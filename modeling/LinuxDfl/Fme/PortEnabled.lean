import LinuxDfl.Fme.PartialReconfig

/-!
# Ports after partial reconfiguration

A request which succeeds disables the port once and enables it once, so it
leaves the disable count as it found it.  A request which fails between the
two leaves the count one higher, and from then on the port stays in reset.
-/

namespace LinuxDfl.Fme

open LinuxDfl.Kernel
open LinuxDfl.Fpga
open LinuxDfl.Port
open LinuxDfl.Lib.Transition

/-! ## What a request meets -/

/-- The bridge has looked up its port, or finds it when it is disabled. -/
structure FindsPort (attempt : Attempt) (fmePort : FmePort) : Prop where
  portFdata :
    fmePort.priv.portFdata = true ∨ attempt.disable.findPortData = true
  portOps : fmePort.priv.portOps = true ∨ attempt.disable.portOps = true

/-- The request gets the region, its manager and its bridge. -/
structure Grants (attempt : Attempt) : Prop where
  region : attempt.regionEnv.trylock = true
  regionModule : attempt.regionEnv.tryModuleGet = true
  mgr : attempt.regionEnv.mgrTrylock = true
  bridge : attempt.bridgeEnv.find = true
  bridgeTrylock : attempt.bridgeEnv.trylock = true
  bridgeModule : attempt.bridgeEnv.tryModuleGet = true

/-- The image can be had, and its region is there. -/
structure HasRegion (attempt : Attempt) (fme : DflFme) : Prop where
  copyBuffer : attempt.copyBuffer = true
  infoAlloc : attempt.infoAlloc ≠ none
  fmePrivate : attempt.fmePrivate = true
  findRegion : attempt.findRegion = true
  region : fme.regions attempt.portPr.portId ≠ none

/-- The request is well-formed, and its region is there. -/
structure Accepted (attempt : Attempt) (fme : DflFme) : Prop where
  copyRequest : attempt.copyRequest = true
  argsz : portPrMinsz ≤ attempt.portPr.argsz
  flags : attempt.portPr.flags = 0
  bufferSize : attempt.portPr.bufferSize ≠ 0
  portId : attempt.portPr.portId < fmeCapNumPorts.get fme.cap
  vmalloc : attempt.vmalloc = true
  hasRegion : HasRegion attempt fme

/-- The request gets as far as the port of its region. -/
structure Reaches (attempt : Attempt) (fme : DflFme) : Prop where
  accepted : Accepted attempt fme
  grants : Grants attempt
  findsPort : FindsPort attempt (fme.ports attempt.portPr.portId)

/-- The answer of `fpga_mgr_load`: the first of its steps which fails. -/
def LoadEnv.answer (env : LoadEnv) : Option Errno :=
  env.writeInit.or (env.write.or env.writeComplete)

/-- What a request which reaches its port does to the port. -/
def reconfigure (attempt : Attempt) (port : AfuPort) :
    Option Errno × AfuPort :=
  let disabled := afuPortDisable attempt.disable.ack port
  andThen (andThen disabled fun port => (attempt.load.answer, port))
    (afuPortEnable attempt.enable.ack)

/-! ## Bridges and manager -/

theorem fpgaBridgesSet_singleton {Bridge Target : Type}
    (enableSet : Bridge → Bool → Target → Option Errno × Target)
    (enable : Bool) (bridge : Bridge) (target : Target) :
    fpgaBridgesSet enableSet enable [bridge] target =
      enableSet bridge enable target := by
  rcases set : enableSet bridge enable target with ⟨_ | ret, next⟩ <;>
    simp [fpgaBridgesSet, andThen, set]

theorem fpgaMgrLoadBuf_answer
    (env : LoadEnv) (mgr : FpgaManager Unit) {info : FpgaImageInfo}
    (nonempty : info.buf.length ≠ 0) (noData : info.dataSize = 0) :
    (fpgaMgrLoadBuf (fmeMgrOps env) mgr (some info)).1 = env.answer := by
  obtain ⟨writeInit, write, writeComplete⟩ := env
  cases writeInit <;> cases write <;> cases writeComplete <;>
    simp [fpgaMgrLoadBuf, fmeMgrOps, fpgaMgrBufLoadMapped,
      fpgaMgrParseHeaderMapped, fpgaMgrWriteInitBuf, fpgaMgrWrite,
      fpgaMgrWriteComplete, LoadEnv.answer, nonempty, noData]

/-- The bridge has found its port, and sets it. -/
theorem fmeBridgeEnableSet_of_found
    (enable : Bool) {env : FmeBrEnv} {fmePort : FmePort}
    (portFdata :
      fmePort.priv.portFdata = true ∨ env.findPortData = true)
    (portOps : fmePort.priv.portOps = true ∨ env.portOps = true) :
    fmeBridgeEnableSet env enable fmePort =
      ((portEnableSet env.ack enable fmePort.port).1,
        ⟨⟨true, true⟩, (portEnableSet env.ack enable fmePort.port).2⟩) := by
  have found : (fmePort.priv.portFdata || env.findPortData) = true := by
    simpa using portFdata
  have ops : (fmePort.priv.portOps || env.portOps) = true := by
    simpa using portOps
  simp [fmeBridgeEnableSet, found, ops]

/-- A bridge which does not find its port fails and leaves it alone. -/
theorem fmeBridgeEnableSet_of_not_found
    (enable : Bool) {env : FmeBrEnv} {fmePort : FmePort}
    (missing :
      ¬ ((fmePort.priv.portFdata = true ∨ env.findPortData = true) ∧
        (fmePort.priv.portOps = true ∨ env.portOps = true))) :
    (fmeBridgeEnableSet env enable fmePort).1 ≠ none ∧
      (fmeBridgeEnableSet env enable fmePort).2.port = fmePort.port := by
  unfold fmeBridgeEnableSet
  cases found : fmePort.priv.portFdata || env.findPortData with
  | false => simp
  | true =>
      cases ops : fmePort.priv.portOps || env.portOps with
      | false => simp
      | true =>
          refine absurd ⟨?_, ?_⟩ missing
          · simpa using found
          · simpa using ops

/-! ## Programming with the bridge of the port -/

/-- The bridge of the port is collected, and the image is at hand. -/
structure Collected (portId : Nat)
    (state : Programming Nat Unit (Nat → FmePort)) : Prop where
  bridgeList : state.region.bridgeList = [portId]
  image :
    ∃ info, state.region.info = some info ∧ info.buf.length ≠ 0 ∧
      info.dataSize = 0

/-- The step sets the port behind the one bridge of the list. -/
theorem setStep_singleton
    (attempt : Attempt) {portId : Nat}
    {state : Programming Nat Unit (Nat → FmePort)}
    (list : state.region.bridgeList = [portId]) (enable : Bool) :
    (fmeRegionOps attempt portId).setStep enable state =
      let set :=
        fmeBridgeEnableSet (if enable then attempt.enable else attempt.disable)
          enable (state.target portId)
      (set.1,
        { state with target := Function.update state.target portId set.2 }) := by
  simp only [RegionOps.setStep, list, fpgaBridgesSet_singleton, fmeRegionOps]

variable {attempt : Attempt} {portId : Nat}
  {state : Programming Nat Unit (Nat → FmePort)}

theorem Collected.update (collected : Collected portId state)
    (target : Nat → FmePort) :
    Collected portId { state with target := target } :=
  ⟨collected.bridgeList, collected.image⟩

/-- Loading leaves the bridges and the ports alone. -/
theorem loadStep_kept (attempt : Attempt) (portId : Nat)
    (state : Programming Nat Unit (Nat → FmePort)) :
    let next := ((fmeRegionOps attempt portId).loadStep state).2
    next.region.bridgeList = state.region.bridgeList ∧
      next.target = state.target :=
  ⟨rfl, rfl⟩

theorem Collected.loadStep_answer
    (collected : Collected portId state) (attempt : Attempt) :
    ((fmeRegionOps attempt portId).loadStep state).1 = attempt.load.answer := by
  obtain ⟨info, isInfo, nonempty, noData⟩ := collected.image
  simp only [RegionOps.loadStep, isInfo, fmeRegionOps]
  exact fpgaMgrLoadBuf_answer attempt.load state.mgr nonempty noData

/-- Without its port the bridge fails, before anything is loaded. -/
theorem programBridged_of_not_found
    (collected : Collected portId state)
    (missing : ¬ FindsPort attempt (state.target portId)) :
    let result := programBridged (fmeRegionOps attempt portId) state
    result.1 ≠ none ∧
      ∀ other, (result.2.target other).port = (state.target other).port := by
  obtain ⟨fails, same⟩ :=
    fmeBridgeEnableSet_of_not_found false
      fun found => missing ⟨found.1, found.2⟩
  simp only [programBridged, setStep_singleton attempt collected.bridgeList,
    Bool.false_eq_true, if_false]
  rcases set : fmeBridgeEnableSet attempt.disable false
    (state.target portId) with ⟨_ | ret, next⟩
  · exact absurd (by rw [set]) fails
  · refine ⟨by simp [andThen], fun other => ?_⟩
    have unchanged : next.port = (state.target portId).port := by
      rw [set] at same
      exact same
    by_cases isPort : other = portId
    · simp [andThen, isPort, unchanged]
    · simp [andThen, isPort]

/-- Enabling the port again, once the bridge has found it. -/
theorem setStep_true_of_looked_up
    {port : AfuPort} (list : state.region.bridgeList = [portId])
    (lookedUp : state.target portId = ⟨⟨true, true⟩, port⟩) :
    (fmeRegionOps attempt portId).setStep true state =
      let enabled := afuPortEnable attempt.enable.ack port
      (enabled.1,
        { state with target :=
            Function.update state.target portId ⟨⟨true, true⟩, enabled.2⟩ }) := by
  have portFdata :
      (state.target portId).priv.portFdata = true ∨
        attempt.enable.findPortData = true := Or.inl (by rw [lookedUp])
  have portOps :
      (state.target portId).priv.portOps = true ∨
        attempt.enable.portOps = true := Or.inl (by rw [lookedUp])
  have enable := fmeBridgeEnableSet_of_found true portFdata portOps
  rw [lookedUp] at enable
  simp only [setStep_singleton attempt list, if_true, lookedUp, enable,
    portEnableSet]

/-- Loading, and enabling the port which the bridge has disabled. -/
theorem load_and_enable_of_looked_up
    (attempt : Attempt) {port : AfuPort}
    (collected : Collected portId state)
    (lookedUp : state.target portId = ⟨⟨true, true⟩, port⟩) :
    let ops := fmeRegionOps attempt portId
    let result := andThen (ops.loadStep state) (ops.setStep true)
    let expected :=
      andThen (attempt.load.answer, port) (afuPortEnable attempt.enable.ack)
    result.1 = expected.1 ∧ (result.2.target portId).port = expected.2 ∧
      ∀ other, other ≠ portId →
        result.2.target other = state.target other := by
  have answer := collected.loadStep_answer attempt
  have kept := loadStep_kept attempt portId state
  rcases loaded : (fmeRegionOps attempt portId).loadStep state
    with ⟨ret, next⟩
  rw [loaded] at answer kept
  obtain rfl : ret = attempt.load.answer := answer
  have list : next.region.bridgeList = [portId] :=
    kept.1.trans collected.bridgeList
  have target : next.target = state.target := kept.2
  simp only [loaded]
  cases attempt.load.answer with
  | some ret => simp [andThen, target, lookedUp]
  | none =>
      have found : next.target portId = ⟨⟨true, true⟩, port⟩ := by
        rw [target, lookedUp]
      simp only [andThen, setStep_true_of_looked_up list found]
      simp +contextual [target]

/-- With its port the bridge disables and enables it around the loading. -/
theorem programBridged_of_found
    (collected : Collected portId state)
    (found : FindsPort attempt (state.target portId)) :
    let result := programBridged (fmeRegionOps attempt portId) state
    let port := reconfigure attempt (state.target portId).port
    result.1 = port.1 ∧ (result.2.target portId).port = port.2 ∧
      ∀ other, other ≠ portId →
        result.2.target other = state.target other := by
  have disable :=
    fmeBridgeEnableSet_of_found false found.portFdata found.portOps
  simp only [programBridged, setStep_singleton attempt collected.bridgeList,
    Bool.false_eq_true, if_false, disable, portEnableSet, reconfigure]
  rcases afuPortDisable attempt.disable.ack (state.target portId).port
    with ⟨_ | ret, port⟩
  · have lookedUp :=
      Function.update_self portId (⟨⟨true, true⟩, port⟩ : FmePort) state.target
    obtain ⟨answers, isPort, others⟩ :=
      load_and_enable_of_looked_up attempt
        (collected.update
          (Function.update state.target portId ⟨⟨true, true⟩, port⟩))
        lookedUp
    refine ⟨answers, isPort, fun other isOther => ?_⟩
    exact (others other isOther).trans (Function.update_of_ne isOther _ _)
  · simp +contextual [andThen]

/-! ## The whole request -/

/-- Nothing is programmed without the region, its manager and its bridge. -/
theorem fpgaRegionProgramFpga_of_not_granted
    (refused : ¬ Grants attempt) (portId : Nat)
    (state : Programming Nat Unit (Nat → FmePort)) :
    let result :=
      fpgaRegionProgramFpga attempt.regionEnv
        (fmeRegionOps attempt portId) state
    result.1 ≠ none ∧ result.2.target = state.target := by
  rcases region : fpgaRegionGet attempt.regionEnv state.region
    with ⟨_ | ret, gotRegion⟩
  · rcases mgr : fpgaMgrLock attempt.regionEnv.mgrTrylock state.mgr
      with ⟨_ | ret, lockedMgr⟩
    · rcases bridge : fpgaBridgeGet attempt.bridgeEnv gotRegion.info
        (state.bridges portId) with ⟨_ | ret, gotBridge⟩
      · have gotRegion :=
          (fpgaRegionGet_succeeds_iff attempt.regionEnv state.region).mp
            (by rw [region])
        have gotMgr :=
          (fpgaMgrLock_succeeds_iff attempt.regionEnv.mgrTrylock
            state.mgr).mp (by rw [mgr])
        have gotBridge :=
          (fpgaBridgeGet_succeeds_iff attempt.bridgeEnv _ _).mp
            (by rw [bridge])
        exact absurd ⟨gotRegion.1, gotRegion.2, gotMgr, gotBridge.1,
          gotBridge.2.1, gotBridge.2.2⟩ refused
      · simp [fpgaRegionProgramFpga, region, mgr, RegionOps.getBridgesStep,
          fmeRegionOps, bridge, Programming.release]
    · simp [fpgaRegionProgramFpga, region, mgr]
  · simp [fpgaRegionProgramFpga, region]

/-- The region is idle and has an image to load. -/
structure Prepared (region : FpgaRegion Nat) : Prop where
  bridgeList : region.bridgeList = []
  image :
    ∃ info, region.info = some info ∧ info.buf.length ≠ 0 ∧
      info.dataSize = 0

/-- What is programmed once everything is granted. -/
theorem fpgaRegionProgramFpga_of_granted
    (granted : Grants attempt) (prepared : Prepared state.region)
    (portId : Nat) :
    ∃ ready, Collected portId ready ∧ ready.target = state.target ∧
      let result :=
        fpgaRegionProgramFpga attempt.regionEnv
          (fmeRegionOps attempt portId) state
      let bridged := programBridged (fmeRegionOps attempt portId) ready
      result.1 = bridged.1 ∧ result.2.target = bridged.2.target := by
  have getRegion :=
    (fpgaRegionGet_succeeds_iff attempt.regionEnv state.region).mpr
      ⟨granted.region, granted.regionModule⟩
  have getMgr :=
    (fpgaMgrLock_succeeds_iff attempt.regionEnv.mgrTrylock state.mgr).mpr
      granted.mgr
  have info := fpgaRegionGet_info attempt.regionEnv state.region
  have list := fpgaRegionGet_bridgeList attempt.regionEnv state.region
  rcases region : fpgaRegionGet attempt.regionEnv state.region
    with ⟨ret, gotRegion⟩
  rcases mgr : fpgaMgrLock attempt.regionEnv.mgrTrylock state.mgr
    with ⟨ret', lockedMgr⟩
  rw [region] at getRegion info list
  rw [mgr] at getMgr
  obtain rfl : ret = none := getRegion
  obtain rfl : ret' = none := getMgr
  have getBridge :=
    (fpgaBridgeGet_succeeds_iff attempt.bridgeEnv gotRegion.info
      (state.bridges portId)).mpr
        ⟨granted.bridge, granted.bridgeTrylock, granted.bridgeModule⟩
  have collected :
      (fmeRegionOps attempt portId).getBridgesStep
          { state with mgr := lockedMgr, region := gotRegion } =
        (none,
          { state with
            mgr := lockedMgr
            region := { gotRegion with
              bridgeList := portId :: gotRegion.bridgeList }
            bridges := Function.update state.bridges portId
              (fpgaBridgeGet attempt.bridgeEnv gotRegion.info
                (state.bridges portId)).2 }) := by
    simp [RegionOps.getBridgesStep, fmeRegionOps, getBridge]
  refine ⟨_, ⟨?_, ?_⟩, ?_,
    fpgaRegionProgramFpga_of_collected region mgr collected⟩
  · exact congrArg (portId :: ·) (list.trans prepared.bridgeList)
  · obtain ⟨image, isImage, sizes⟩ := prepared.image
    exact ⟨image, info.trans isImage, sizes⟩
  · rfl

@[simp]
theorem imageInfoFree_ports (fme : DflFme) (info : Option FpgaImageInfo) :
    (fme.imageInfoFree info).ports = fme.ports := by
  cases info <;> rfl

variable {fme : DflFme} {ident : Nat} {region : FpgaRegion Nat}

/-- What a request programs, before the region is locked. -/
def startOf (attempt : Attempt) (ident : Nat) (fme : DflFme)
    (region : FpgaRegion Nat) : Programming Nat Unit (Nat → FmePort) :=
  (fme.imageInfoFree region.info).programming region
    (attempt.imageInfo ident)

theorem startOf_target : (startOf attempt ident fme region).target = fme.ports := by
  simp [startOf, DflFme.programming]

theorem prepared_startOf (ident : Nat) (fme : DflFme)
    (idle : region.bridgeList = [])
    (nonempty : attempt.portPr.bufferSize ≠ 0) :
    Prepared (startOf attempt ident fme region).region where
  bridgeList := idle
  image := by
    refine ⟨attempt.imageInfo ident, rfl, ?_, rfl⟩
    simpa [Attempt.imageInfo] using nonempty

/-- Programming which does not get to the port leaves all ports alone. -/
theorem fmePrProgram_of_not_found
    (ident : Nat) (fme : DflFme) (idle : region.bridgeList = [])
    (nonempty : attempt.portPr.bufferSize ≠ 0)
    (missing :
      ¬ (Grants attempt ∧
        FindsPort attempt (fme.ports attempt.portPr.portId))) :
    let result := fmePrProgram attempt ident fme region
    result.1 ≠ none ∧
      ∀ other, (result.2.ports other).port = (fme.ports other).port := by
  by_cases granted : Grants attempt
  · obtain ⟨ready, collected, target, answers, ports⟩ :=
      fpgaRegionProgramFpga_of_granted granted
        (prepared_startOf ident fme idle nonempty) attempt.portPr.portId
    rw [startOf_target] at target
    have notFound :
        ¬ FindsPort attempt (ready.target attempt.portPr.portId) := by
      rw [target]
      exact fun found => missing ⟨granted, found⟩
    obtain ⟨fails, same⟩ := programBridged_of_not_found collected notFound
    refine ⟨fun succeeds => fails (answers.symm.trans succeeds), ?_⟩
    intro other
    rw [← target, ← same other, ← ports]
    rfl
  · obtain ⟨fails, same⟩ :=
      fpgaRegionProgramFpga_of_not_granted granted attempt.portPr.portId
        (startOf attempt ident fme region)
    rw [startOf_target] at same
    refine ⟨fails, fun other => ?_⟩
    rw [← same]
    rfl

/-- Programming which gets to the port reconfigures it, and no other port. -/
theorem fmePrProgram_of_found
    (idle : region.bridgeList = [])
    (nonempty : attempt.portPr.bufferSize ≠ 0)
    (granted : Grants attempt)
    (found : FindsPort attempt (fme.ports attempt.portPr.portId)) :
    let portId := attempt.portPr.portId
    let result := fmePrProgram attempt ident fme region
    let port := reconfigure attempt (fme.ports portId).port
    result.1 = port.1 ∧ (result.2.ports portId).port = port.2 ∧
      ∀ other, other ≠ portId →
        (result.2.ports other).port = (fme.ports other).port := by
  obtain ⟨ready, collected, target, answers, ports⟩ :=
    fpgaRegionProgramFpga_of_granted granted
      (prepared_startOf ident fme idle nonempty) attempt.portPr.portId
  rw [startOf_target] at target
  obtain ⟨bridged, isPort, others⟩ :=
    programBridged_of_found collected (by rw [target]; exact found)
  rw [← ports] at isPort others
  rw [target] at bridged isPort
  refine ⟨answers.trans bridged, isPort, fun other isOther => ?_⟩
  rw [← target, ← others other isOther]
  rfl

/-- The outcome is that of programming the region of the request. -/
def Programs (attempt : Attempt) (fme : DflFme)
    (result : Option Errno × DflFme) : Prop :=
  ∃ ident region before,
    fme.regions attempt.portPr.portId = some region ∧
      before.ports = fme.ports ∧
      result.1 = (fmePrProgram attempt ident before region).1 ∧
      result.2.ports = (fmePrProgram attempt ident before region).2.ports

/-- The outcome is a failure which has touched no port. -/
def Refuses (fme : DflFme) (result : Option Errno × DflFme) : Prop :=
  result.1 ≠ none ∧ result.2.ports = fme.ports

theorem fmePrBuffered_cases (attempt : Attempt) (fme : DflFme) :
    (¬ HasRegion attempt fme ∧ Refuses fme (fmePrBuffered attempt fme)) ∨
      (HasRegion attempt fme ∧
        Programs attempt fme (fmePrBuffered attempt fme)) := by
  by_cases copyBuffer : attempt.copyBuffer = true
  case neg =>
    exact Or.inl ⟨fun has => copyBuffer has.copyBuffer,
      by simp [Refuses, fmePrBuffered, copyBuffer]⟩
  rcases infoAlloc : attempt.infoAlloc with _ | ident
  case none =>
    exact Or.inl ⟨fun has => has.infoAlloc infoAlloc,
      by simp [Refuses, fmePrBuffered, copyBuffer, infoAlloc]⟩
  by_cases fmePrivate : attempt.fmePrivate = true
  case neg =>
    exact Or.inl ⟨fun has => fmePrivate has.fmePrivate,
      by simp [Refuses, fmePrBuffered, copyBuffer, infoAlloc, fmePrivate]⟩
  by_cases findRegion : attempt.findRegion = true
  case neg =>
    exact Or.inl ⟨fun has => findRegion has.findRegion,
      by simp [Refuses, fmePrBuffered, copyBuffer, infoAlloc, fmePrivate,
        findRegion]⟩
  rcases isRegion : fme.regions attempt.portPr.portId with _ | region
  case none =>
    exact Or.inl ⟨fun has => has.region isRegion,
      by simp [Refuses, fmePrBuffered, copyBuffer, infoAlloc, fmePrivate,
        findRegion, isRegion]⟩
  refine Or.inr ⟨⟨copyBuffer, by simp [infoAlloc], fmePrivate, findRegion,
    by simp [isRegion]⟩, ident, region,
    { fme with liveInfos := ident :: fme.liveInfos }, isRegion, rfl, ?_⟩
  simp [fmePrBuffered, copyBuffer, infoAlloc, fmePrivate, findRegion,
    isRegion]

/-- A request fails before it touches a port, or it programs its region. -/
theorem fmePr_cases (attempt : Attempt) (fme : DflFme) :
    (¬ Accepted attempt fme ∧ Refuses fme (fmePr attempt fme)) ∨
      (Accepted attempt fme ∧ Programs attempt fme (fmePr attempt fme)) := by
  by_cases copyRequest : attempt.copyRequest = true
  case neg =>
    exact Or.inl ⟨fun accepted => copyRequest accepted.copyRequest,
      by simp [Refuses, fmePr, copyRequest]⟩
  by_cases fields : attempt.portPr.argsz < portPrMinsz ∨
      attempt.portPr.flags ≠ 0 ∨ attempt.portPr.bufferSize = 0
  case pos =>
    refine Or.inl ⟨fun accepted => ?_,
      by simp [Refuses, fmePr, copyRequest, fields]⟩
    rcases fields with argsz | flags | bufferSize
    · exact absurd accepted.argsz (Nat.not_le_of_lt argsz)
    · exact flags accepted.flags
    · exact accepted.bufferSize bufferSize
  by_cases portId : fmeCapNumPorts.get fme.cap ≤ attempt.portPr.portId
  case pos =>
    exact Or.inl ⟨fun accepted => absurd accepted.portId
      (Nat.not_lt_of_le portId),
      by simp [Refuses, fmePr, copyRequest, fields, portId]⟩
  by_cases vmalloc : attempt.vmalloc = true
  case neg =>
    exact Or.inl ⟨fun accepted => vmalloc accepted.vmalloc,
      by simp [Refuses, fmePr, copyRequest, fields, portId, vmalloc]⟩
  have runs : fmePr attempt fme =
      let ran :=
        fmePrBuffered attempt { fme with buffers := fme.buffers + 1 }
      (ran.1, { ran.2 with buffers := ran.2.buffers - 1 }) := by
    simp [fmePr, copyRequest, fields, portId, vmalloc]
  rw [runs]
  rcases fmePrBuffered_cases attempt
    { fme with buffers := fme.buffers + 1 } with ⟨missing, refuses⟩ | ran
  · exact Or.inl ⟨fun accepted => missing
      ⟨accepted.hasRegion.copyBuffer, accepted.hasRegion.infoAlloc,
        accepted.hasRegion.fmePrivate, accepted.hasRegion.findRegion,
        accepted.hasRegion.region⟩, refuses⟩
  · obtain ⟨has, programs⟩ := ran
    push Not at fields
    exact Or.inr ⟨⟨copyRequest, fields.1, fields.2.1, fields.2.2,
      Nat.lt_of_not_le portId, vmalloc,
      ⟨has.copyBuffer, has.infoAlloc, has.fmePrivate, has.findRegion,
        has.region⟩⟩, programs⟩

/-! ## What a request does to its port -/

/-- The regions of the FME are idle between requests. -/
def Idle (fme : DflFme) : Prop :=
  ∀ portId region, fme.regions portId = some region →
    region.bridgeList = []

/-- A request which does not reach its port fails, and changes no port. -/
theorem fmePr_of_not_reaches
    (idle : Idle fme) (stops : ¬ Reaches attempt fme) :
    (fmePr attempt fme).1 ≠ none ∧
      ∀ other,
        ((fmePr attempt fme).2.ports other).port = (fme.ports other).port := by
  rcases fmePr_cases attempt fme with ⟨-, fails, same⟩ | ⟨accepted, programs⟩
  · exact ⟨fails, fun other => by rw [same]⟩
  · obtain ⟨ident, region, before, isRegion, ports, answers, after⟩ :=
      programs
    have missing :
        ¬ (Grants attempt ∧
          FindsPort attempt (before.ports attempt.portPr.portId)) := by
      rw [ports]
      exact fun reached => stops ⟨accepted, reached.1, reached.2⟩
    obtain ⟨fails, same⟩ :=
      fmePrProgram_of_not_found ident before
        (idle _ region isRegion) accepted.bufferSize missing
    rw [answers, after, ← ports]
    exact ⟨fails, same⟩

/-- A request which reaches its port reconfigures it, and no other port. -/
theorem fmePr_of_reaches
    (idle : Idle fme) (reaches : Reaches attempt fme) :
    let portId := attempt.portPr.portId
    let port := reconfigure attempt (fme.ports portId).port
    (fmePr attempt fme).1 = port.1 ∧
      ((fmePr attempt fme).2.ports portId).port = port.2 ∧
      ∀ other, other ≠ portId →
        ((fmePr attempt fme).2.ports other).port =
          (fme.ports other).port := by
  rcases fmePr_cases attempt fme with ⟨refused, -⟩ | ⟨accepted, programs⟩
  · exact absurd reaches.accepted refused
  · obtain ⟨ident, region, before, isRegion, ports, answers, after⟩ :=
      programs
    have found := reaches.findsPort
    rw [← ports] at found ⊢
    rw [answers, after]
    exact fmePrProgram_of_found (idle _ region isRegion)
      accepted.bufferSize reaches.grants found

@[simp]
theorem imageInfoFree_regions
    (fme : DflFme) (info : Option FpgaImageInfo) :
    (fme.imageInfoFree info).regions = fme.regions := by
  cases info <;> rfl

theorem idle_fmePrProgram (idle : Idle fme) :
    Idle (fmePrProgram attempt ident fme region).2 := by
  intro portId other isRegion
  simp only [fmePrProgram, imageInfoFree_regions, Function.update_apply]
    at isRegion
  split_ifs at isRegion
  · obtain rfl := Option.some.inj isRegion
    rfl
  · exact idle portId other isRegion

theorem idle_fmePrBuffered {fme : DflFme} (idle : Idle fme) :
    Idle (fmePrBuffered attempt fme).2 := by
  unfold fmePrBuffered
  split
  · exact idle
  split
  · exact idle
  dsimp only
  split
  · exact idle
  split
  · exact idle
  split
  · exact idle
  · exact idle_fmePrProgram idle

/-- A request leaves the regions idle. -/
theorem idle_fmePr (idle : Idle fme) : Idle (fmePr attempt fme).2 := by
  unfold fmePr
  split_ifs
  · exact idle
  · exact idle
  · exact idle
  · exact idle
  · have counted : Idle { fme with buffers := fme.buffers + 1 } := idle
    exact idle_fmePrBuffered counted

/-! ## Counting the abandoned requests -/

/-- The request enables the port which it has disabled. -/
def EnablesAgain (attempt : Attempt) (port : AfuPort) : Prop :=
  (port.disableCount = 0#32 → attempt.disable.ack = true) ∧
    attempt.load.answer = none

theorem reconfigure_of_enablesAgain
    {port : AfuPort} (again : EnablesAgain attempt port) :
    reconfigure attempt port =
      afuPortEnable attempt.enable.ack
        (afuPortDisable attempt.disable.ack port).2 := by
  have disables :=
    (afuPortDisable_succeeds_iff attempt.disable.ack port).mpr again.1
  rcases disabled : afuPortDisable attempt.disable.ack port
    with ⟨_ | ret, after⟩
  · simp only [reconfigure, disabled, andThen, again.2]
  · rw [disabled] at disables
    exact absurd disables (by simp)

theorem reconfigure_of_not_enablesAgain
    {port : AfuPort} (abandoned : ¬ EnablesAgain attempt port) :
    (reconfigure attempt port).1 ≠ none ∧
      (reconfigure attempt port).2 =
        (afuPortDisable attempt.disable.ack port).2 := by
  rcases disabled : afuPortDisable attempt.disable.ack port
    with ⟨_ | ret, after⟩
  · have disables :=
      (afuPortDisable_succeeds_iff attempt.disable.ack port).mp
        (by rw [disabled])
    cases answer : attempt.load.answer with
    | none => exact absurd ⟨disables, answer⟩ abandoned
    | some ret => simp [reconfigure, disabled, andThen, answer]
  · simp [reconfigure, disabled, andThen]

/-- The request disables the port of this id, and does not enable it again. -/
def Abandons (portId : Nat) (fme : DflFme) (attempt : Attempt) : Prop :=
  attempt.portPr.portId = portId ∧ Reaches attempt fme ∧
    ¬ EnablesAgain attempt (fme.ports portId).port

/-- Nothing fails on the way of the request to the port and back. -/
def GoesThrough (portId : Nat) (fme : DflFme) (attempt : Attempt) : Prop :=
  attempt.portPr.portId = portId ∧ Reaches attempt fme ∧
    EnablesAgain attempt (fme.ports portId).port ∧
    ((fme.ports portId).port.disableCount = 0#32 →
      attempt.enable.ack = false)

/-- If the request for the port succeeds, the port is enabled afterwards. -/
def LeavesPortEnabled
    (portId : Nat) (fme : DflFme) (attempt : Attempt) : Prop :=
  attempt.portPr.portId = portId → (fmePr attempt fme).1 = none →
    ((fmePr attempt fme).2.ports portId).port.Enabled

/-! ## The disable count over a run -/

/-- The regions are idle, and the count is that of the abandoned requests. -/
structure Tracks (portId : Nat) (abandoned : Nat) (fme : DflFme) : Prop where
  idle : Idle fme
  disableCount :
    (fme.ports portId).port.disableCount = BitVec.ofNat 32 abandoned

/-- A port which is not enabled again keeps the count of its disable. -/
theorem disableCount_of_abandons
    (idle : Idle fme) (abandons : Abandons portId fme attempt) :
    ((fmePr attempt fme).2.ports portId).port.disableCount =
      (fme.ports portId).port.disableCount + 1#32 := by
  obtain ⟨rfl, reaches, abandoned⟩ := abandons
  obtain ⟨-, isPort, -⟩ := fmePr_of_reaches idle reaches
  rw [isPort, (reconfigure_of_not_enablesAgain abandoned).2]
  exact afuPortDisable_disableCount _ _

/-- Every other request leaves the count as it is. -/
theorem disableCount_of_not_abandons
    (idle : Idle fme) {portId : Nat} (keeps : ¬ Abandons portId fme attempt) :
    ((fmePr attempt fme).2.ports portId).port.disableCount =
      (fme.ports portId).port.disableCount := by
  by_cases reaches : Reaches attempt fme
  · obtain ⟨-, isPort, others⟩ := fmePr_of_reaches idle reaches
    by_cases addressed : attempt.portPr.portId = portId
    · subst addressed
      have again :
          EnablesAgain attempt (fme.ports attempt.portPr.portId).port :=
        not_not.mp fun abandoned => keeps ⟨rfl, reaches, abandoned⟩
      rw [isPort, reconfigure_of_enablesAgain again,
        afuPortEnable_disableCount, afuPortDisable_disableCount,
        BitVec.add_sub_cancel]
    · rw [others portId (Ne.symm addressed)]
  · rw [(fmePr_of_not_reaches idle reaches).2 portId]

/-- The requests which succeed are those which go through. -/
theorem fmePr_succeeds_iff (idle : Idle fme) :
    (fmePr attempt fme).1 = none ↔
      GoesThrough attempt.portPr.portId fme attempt := by
  by_cases reaches : Reaches attempt fme
  case neg =>
    have fails := (fmePr_of_not_reaches idle reaches).1
    exact iff_of_false fails fun through => reaches through.2.1
  rw [(fmePr_of_reaches idle reaches).1]
  by_cases again :
      EnablesAgain attempt (fme.ports attempt.portPr.portId).port
  case neg =>
    exact iff_of_false (reconfigure_of_not_enablesAgain again).1
      fun through => again through.2.2.1
  rw [reconfigure_of_enablesAgain again, afuPortEnable_succeeds_iff,
    afuPortDisable_disableCount]
  have last :
      (fme.ports attempt.portPr.portId).port.disableCount + 1#32 = 1#32 ↔
        (fme.ports attempt.portPr.portId).port.disableCount = 0#32 := by
    bv_omega
  rw [last]
  exact ⟨fun ack => ⟨rfl, reaches, again, ack⟩, fun through => through.2.2.2⟩

/-- A request which goes through leaves the port enabled if it found it so. -/
theorem leavesPortEnabled_iff (idle : Idle fme) :
    LeavesPortEnabled portId fme attempt ↔
      (GoesThrough portId fme attempt →
        (fme.ports portId).port.disableCount = 0#32) := by
  constructor
  · intro leaves through
    have isPort : attempt.portPr.portId = portId := through.1
    subst isPort
    have again := through.2.2.1
    have succeeds := (fmePr_succeeds_iff idle).mpr through
    have keeps : ¬ Abandons attempt.portPr.portId fme attempt :=
      fun abandons => abandons.2.2 again
    have kept := disableCount_of_not_abandons idle keeps
    exact kept.symm.trans (leaves rfl succeeds).disableCount
  · intro starts isPort succeeds
    subst isPort
    have through := (fmePr_succeeds_iff idle).mp succeeds
    rw [(fmePr_of_reaches idle through.2.1).2.1,
      reconfigure_of_enablesAgain through.2.2.1]
    refine enabled_afuPortEnable ?_ _
    rw [afuPortDisable_disableCount, starts through]
    rfl

/--
Along every run of requests from a port whose disable count is zero, every
successful request leaves the port enabled if and only if every request which
goes through comes after a number of abandoned ones (requests which disabled
the port and failed before enabling it again) at which the 32-bit disable
count is zero.
-/
theorem port_enabled_after_pr_iff
    (portId : Nat) (fme : DflFme) (idle : Idle fme)
    (enabled : (fme.ports portId).port.disableCount = 0#32)
    (path : List (Attempt × DflFme)) (isPath : IsPath DflFme.Step fme path) :
    StepsMeet (LeavesPortEnabled portId) fme path ↔
      StepsMeetCounting (Abandons portId)
        (fun abandoned fme attempt =>
          GoesThrough portId fme attempt → 2 ^ 32 ∣ abandoned)
        0 fme path := by
  refine stepsMeet_iff_stepsMeetCounting (Tracks portId)
    ?_ ?_ ?_ isPath ⟨idle, enabled⟩
  · rintro abandoned source attempt target tracks rfl abandons
    refine ⟨idle_fmePr tracks.idle, ?_⟩
    rw [disableCount_of_abandons tracks.idle abandons, tracks.disableCount,
      BitVec.ofNat_add]
  · rintro abandoned source attempt target tracks rfl keeps
    refine ⟨idle_fmePr tracks.idle, ?_⟩
    rw [disableCount_of_not_abandons tracks.idle keeps,
      tracks.disableCount]
  · intro abandoned source attempt tracks
    rw [leavesPortEnabled_iff tracks.idle, tracks.disableCount,
      ← BitVec.toNat_inj, BitVec.toNat_ofNat, Nat.dvd_iff_mod_eq_zero]
    rfl

/-! ## Runs of two requests -/

/-- A request for port 0 which meets no obstacle. -/
def smoothAttempt : Attempt where
  copyRequest := true
  portPr := ⟨24, 0, 0, 4, fun _ => 0⟩
  vmalloc := true
  copyBuffer := true
  infoAlloc := some 0
  fmePrivate := true
  findRegion := true
  regionEnv := ⟨true, true, true⟩
  bridgeEnv := ⟨true, true, true⟩
  disable := ⟨true, true, true⟩
  load := ⟨none, none, none⟩
  enable := ⟨true, true, false⟩

/-- An FME with one port, which is enabled. -/
def onePortFme : DflFme where
  cap := fmeCapNumPorts.prep 1
  regions portId := if portId = 0 then some ⟨⟨0, 0, 0⟩, none, []⟩ else none
  mgr := ⟨0, .unknown, ()⟩
  bridges _ := ⟨none, ⟨0, 0, 0⟩⟩
  ports _ := ⟨⟨false, false⟩, ⟨0, 0⟩⟩
  liveInfos := []
  buffers := 0

theorem idle_onePortFme : Idle onePortFme := by
  intro portId region isRegion
  simp only [onePortFme] at isRegion
  split_ifs at isRegion
  obtain rfl := Option.some.inj isRegion
  rfl

/-- After a request whose image is refused, the next one succeeds in vain. -/
theorem port_left_disabled_after_failed_write :
    ¬ StepsMeet (LeavesPortEnabled 0) onePortFme
      (pathOf (fun fme attempt => (fmePr attempt fme).2) onePortFme
        [{ smoothAttempt with load := ⟨none, some .etimedout, none⟩ },
          smoothAttempt]) := by
  rintro ⟨-, leaves, -⟩
  have enabled := leaves rfl (by decide)
  exact absurd enabled.disableCount (by decide)

/-- After a request which finds the region busy, the next one succeeds. -/
theorem port_enabled_after_busy_region :
    StepsMeet (LeavesPortEnabled 0) onePortFme
      (pathOf (fun fme attempt => (fmePr attempt fme).2) onePortFme
        [{ smoothAttempt with regionEnv := ⟨false, true, true⟩ },
          smoothAttempt]) := by
  refine (port_enabled_after_pr_iff 0 onePortFme idle_onePortFme rfl _
    (isPath_pathOf _ _ _)).mpr ?_
  refine ⟨fun _ => Nat.dvd_zero _, fun abandons => ?_, fun _ => ?_⟩
  · exact absurd abandons.2.1.grants.region (by decide)
  · exact ⟨fun _ => Nat.dvd_zero _, fun _ => trivial, fun _ => trivial⟩

end LinuxDfl.Fme
