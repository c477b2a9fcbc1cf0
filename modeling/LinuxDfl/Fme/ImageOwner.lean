import LinuxDfl.Fme.PartialReconfig
import LinuxDfl.Fpga.ResourceUses
import LinuxDfl.Lib.Transition
import Mathlib.Data.List.Nodup

/-!
# Who owns the image information

A request for partial reconfiguration allocates the information of its image,
and hands it to the region, which gives up the one it had.  Between the two
the request may still end.  What it takes and gives back is recorded.
-/

namespace LinuxDfl.Fme.ImageOwner

open LinuxDfl.Kernel
open LinuxDfl.Fpga
open LinuxDfl.Fpga.Uses (ofRet retOf)
open LinuxDfl.Lib.Balance (Use usesOf owedFrom heldAfter)
open LinuxDfl.Lib.Traced
open LinuxDfl.Lib.Traced.Program
open LinuxDfl.Lib.Transition

/-! ## The request -/

/-- What a request takes and gives back. -/
inductive Resource where
  /-- The buffer from `vmalloc`. -/
  | buffer
  /-- The lock of the FME. -/
  | lock
  /-- A reference to the device of the FME. -/
  | device
  /-- An image information, by its identity. -/
  | info (ident : Nat)
  /-- The reference which `fpga_region_class_find` takes. -/
  | foundRegion (portId : Nat)
  deriving DecidableEq, Repr

abbrev Event := Resource × Use

abbrev PrProgram (Value : Type) := Program Event Errno DflFme Value

def take (resource : Resource) : PrProgram Unit := emit (resource, .take)

def give (resource : Resource) : PrProgram Unit := emit (resource, .give)

/-- `fpga_image_info_alloc`; without memory its caller fails. -/
def fpgaImageInfoAlloc (attempt : Attempt) : PrProgram Nat := do
  take .device
  match attempt.infoAlloc with
  | none => do
      give .device
      fail .enomem
  | some ident => do
      take (.info ident)
      update fun fme => { fme with liveInfos := ident :: fme.liveInfos }
      pure ident

/-- `fpga_image_info_free` -/
def fpgaImageInfoFree : Option FpgaImageInfo → PrProgram Unit
  | none => pure ()
  | some info => do
      give (.info info.ident)
      update fun fme => fme.imageInfoFree (some info)
      give .device

/-- What the request does to the region which it has found. -/
def programRegion (attempt : Attempt) (ident : Nat)
    (region : FpgaRegion Nat) : PrProgram Unit := fun fme =>
  let portId := attempt.portPr.portId
  let programmed :=
    fpgaRegionProgramFpga attempt.regionEnv (fmeRegionOps attempt portId)
      (fme.programming region (attempt.imageInfo ident))
  let state := programmed.2.putBridges
  ⟨[], ofRet programmed.1,
    { fme with
      regions := Function.update fme.regions portId
        (some { state.region with held := state.region.held.putDevice })
      mgr := state.mgr
      bridges := state.bridges
      ports := state.target }⟩

/-- `fme_pr`, while it has the lock -/
def fmePrLocked (attempt : Attempt) (ident : Nat) : PrProgram Unit := do
  let fme ← read
  if !attempt.fmePrivate then fail .einval
  else if !attempt.findRegion then fail .einval
  else
    match fme.regions attempt.portPr.portId with
    | none => fail .einval
    | some region => do
        take (.foundRegion attempt.portPr.portId)
        fpgaImageInfoFree region.info
        ensure (programRegion attempt ident region)
          (give (.foundRegion attempt.portPr.portId))

/-- `fme_pr`, once the image has a buffer -/
def fmePrBuffered (attempt : Attempt) : PrProgram Unit :=
  if !attempt.copyBuffer then fail .efault
  else do
    let ident ← fpgaImageInfoAlloc attempt
    take .lock
    ensure (fmePrLocked attempt ident) (give .lock)

/-- `fme_pr`, once the request is accepted -/
def fmePrAccepted (attempt : Attempt) : PrProgram Unit := do
  take .buffer
  update fun fme => { fme with buffers := fme.buffers + 1 }
  ensure (fmePrBuffered attempt) do
    give .buffer
    update fun fme => { fme with buffers := fme.buffers - 1 }

/-- `fme_pr` -/
def fmePr (attempt : Attempt) : PrProgram Unit := do
  let fme ← read
  if !attempt.copyRequest then fail .efault
  else if attempt.portPr.argsz < portPrMinsz ∨ attempt.portPr.flags ≠ 0 ∨
      attempt.portPr.bufferSize = 0 then fail .einval
  else if fmeCapNumPorts.get fme.cap ≤ attempt.portPr.portId then
    fail .einval
  else if !attempt.vmalloc then fail .enomem
  else fmePrAccepted attempt

/-! ## Sequences of requests -/

/-- An FME, and what has been taken and given back so far. -/
structure System where
  fme : DflFme
  history : List Event

/-- A new image information is not one which is there. -/
def Fresh (attempt : Attempt) (fme : DflFme) : Prop :=
  ∀ ident, attempt.infoAlloc = some ident → ident ∉ fme.liveInfos

def System.apply (system : System) (attempt : Attempt) : System :=
  let run := fmePr attempt system.fme
  ⟨run.state, system.history ++ run.events⟩

def System.Step (system : System) (attempt : Attempt) (next : System) : Prop :=
  Fresh attempt system.fme ∧ system.apply attempt = next

/-- The regions are registered, and nothing has been asked of them. -/
structure Registered (fme : DflFme) : Prop where
  liveInfos : fme.liveInfos = []
  info : ∀ portId region, fme.regions portId = some region →
    region.info = none

/-! ## What is to hold -/

/-- The identity of the image information of a region. -/
def infoOf (fme : DflFme) (portId : Nat) : Option Nat :=
  (fme.regions portId).bind fun region =>
    region.info.map FpgaImageInfo.ident

/-- How often a resource is owed, unless it was given back too often. -/
def System.owed (system : System) (resource : Resource) : Option Nat :=
  owedFrom 0 (usesOf resource system.history)

/--
Each image information has been freed as often as it was allocated, or once
less while it is that of one region.  The references to the device are those
of the regions.  Buffers, locks and references to regions are given back.
-/
structure Owned (system : System) : Prop where
  infos : ∀ ident,
    (system.owed (.info ident) = some 0 ∧
        ∀ portId, infoOf system.fme portId ≠ some ident) ∨
      (system.owed (.info ident) = some 1 ∧
        ∃! portId, infoOf system.fme portId = some ident)
  device : ∃ idents : List Nat, idents.Nodup ∧
    (∀ ident, ident ∈ idents ↔
      ∃ portId, infoOf system.fme portId = some ident) ∧
    system.owed .device = some idents.length
  buffer : system.owed .buffer = some 0
  lock : system.owed .lock = some 0
  foundRegion : ∀ portId, system.owed (.foundRegion portId) = some 0

/-- The request is well-formed, and there is a buffer for its image. -/
structure Accepts (attempt : Attempt) (fme : DflFme) : Prop where
  copyRequest : attempt.copyRequest = true
  fields : ¬ (attempt.portPr.argsz < portPrMinsz ∨
    attempt.portPr.flags ≠ 0 ∨ attempt.portPr.bufferSize = 0)
  portId : ¬ fmeCapNumPorts.get fme.cap ≤ attempt.portPr.portId
  vmalloc : attempt.vmalloc = true

/-- The request gets as far as an image information. -/
structure Allocates (attempt : Attempt) (fme : DflFme) (ident : Nat) : Prop
    extends Accepts attempt fme where
  copyBuffer : attempt.copyBuffer = true
  infoAlloc : attempt.infoAlloc = some ident

/-- The FME is there, and has the region of the port. -/
structure FindsRegion (attempt : Attempt) (fme : DflFme)
    (region : FpgaRegion Nat) : Prop where
  fmePrivate : attempt.fmePrivate = true
  findRegion : attempt.findRegion = true
  region : fme.regions attempt.portPr.portId = some region

/-- A request which gets as far as its image finds the region for it. -/
def HandsOver (system : System) (attempt : Attempt) : Prop :=
  ∀ ident, Allocates attempt system.fme ident →
    ∃ region, FindsRegion attempt system.fme region

/-! ## What a request does -/

section Runs

variable {attempt : Attempt} {fme : DflFme} {ident : Nat}
  {region : FpgaRegion Nat}

/-- What is recorded when an image information is freed. -/
def freed : Option FpgaImageInfo → List Event
  | none => []
  | some info => [(.info info.ident, .give), (.device, .give)]

theorem locked_eq (attempt : Attempt) (ident : Nat) (fme : DflFme) :
    fmePrLocked attempt ident fme =
      if !attempt.fmePrivate then ⟨[], .error .einval, fme⟩
      else if !attempt.findRegion then ⟨[], .error .einval, fme⟩
      else
        match fme.regions attempt.portPr.portId with
        | none => ⟨[], .error .einval, fme⟩
        | some region =>
            let run :=
              programRegion attempt ident region (fme.imageInfoFree region.info)
            ⟨(.foundRegion attempt.portPr.portId, .take) ::
              (freed region.info ++
                [(.foundRegion attempt.portPr.portId, .give)]),
              run.result, run.state⟩ := by
  unfold fmePrLocked
  rw [read_bind]
  split
  · rfl
  split
  · rfl
  cases fme.regions attempt.portPr.portId with
  | none => rfl
  | some region => cases region with
      | mk held info bridgeList => cases info <;> rfl

/-- Without its region the request ends as soon as it has the lock. -/
theorem locked_of_noRegion
    (missing : ¬ ∃ region, FindsRegion attempt fme region) :
    fmePrLocked attempt ident fme = ⟨[], .error .einval, fme⟩ := by
  rw [locked_eq]
  by_cases fmePrivate : attempt.fmePrivate = true
  case neg => rw [if_pos (by simpa using fmePrivate)]
  rw [if_neg (by simpa using fmePrivate)]
  by_cases findRegion : attempt.findRegion = true
  case neg => rw [if_pos (by simpa using findRegion)]
  rw [if_neg (by simpa using findRegion)]
  cases isRegion : fme.regions attempt.portPr.portId with
  | none => rfl
  | some region =>
      exact absurd ⟨region, fmePrivate, findRegion, isRegion⟩ missing

/-- Otherwise it hands the region its image, and programs it. -/
theorem locked_of_region (finds : FindsRegion attempt fme region) :
    fmePrLocked attempt ident fme =
      let run :=
        programRegion attempt ident region (fme.imageInfoFree region.info)
      ⟨(.foundRegion attempt.portPr.portId, .take) :: (freed region.info ++
        [(.foundRegion attempt.portPr.portId, .give)]),
        run.result, run.state⟩ := by
  rw [locked_eq, if_neg (by simpa using finds.fmePrivate),
    if_neg (by simpa using finds.findRegion), finds.region]

/-- The state in which a request which allocates looks for its region. -/
def allocated (ident : Nat) (fme : DflFme) : DflFme :=
  { fme with liveInfos := ident :: fme.liveInfos }

theorem buffered_eq (attempt : Attempt) (fme : DflFme) :
    fmePrBuffered attempt fme =
      if !attempt.copyBuffer then ⟨[], .error .efault, fme⟩
      else
        match attempt.infoAlloc with
        | none =>
            ⟨[(.device, .take), (.device, .give)], .error .enomem, fme⟩
        | some ident =>
            let run := fmePrLocked attempt ident (allocated ident fme)
            ⟨(.device, .take) :: (.info ident, .take) :: (.lock, .take) ::
              (run.events ++ [(.lock, .give)]), run.result, run.state⟩ := by
  unfold fmePrBuffered fpgaImageInfoAlloc
  split
  · rfl
  · cases attempt.infoAlloc <;> rfl

theorem accepted_eq (attempt : Attempt) (fme : DflFme) :
    fmePrAccepted attempt fme =
      let run := fmePrBuffered attempt { fme with buffers := fme.buffers + 1 }
      ⟨(.buffer, .take) :: (run.events ++ [(.buffer, .give)]), run.result,
        { run.state with buffers := run.state.buffers - 1 }⟩ := rfl

/-- A request which is not accepted ends at once. -/
theorem fmePr_cases (attempt : Attempt) (fme : DflFme) :
    (Accepts attempt fme ∧ fmePr attempt fme = fmePrAccepted attempt fme) ∨
      (¬ Accepts attempt fme ∧
        ∃ ret, fmePr attempt fme = ⟨[], .error ret, fme⟩) := by
  unfold fmePr
  rw [read_bind]
  by_cases copyRequest : attempt.copyRequest = true
  case neg =>
    rw [if_pos (by simpa using copyRequest)]
    exact Or.inr ⟨fun accepts => copyRequest accepts.copyRequest, _, rfl⟩
  rw [if_neg (by simpa using copyRequest)]
  by_cases fields : attempt.portPr.argsz < portPrMinsz ∨
      attempt.portPr.flags ≠ 0 ∨ attempt.portPr.bufferSize = 0
  case pos =>
    rw [if_pos fields]
    exact Or.inr ⟨fun accepts => accepts.fields fields, _, rfl⟩
  rw [if_neg fields]
  by_cases portId : fmeCapNumPorts.get fme.cap ≤ attempt.portPr.portId
  case pos =>
    rw [if_pos portId]
    exact Or.inr ⟨fun accepts => accepts.portId portId, _, rfl⟩
  rw [if_neg portId]
  by_cases vmalloc : attempt.vmalloc = true
  case neg =>
    rw [if_pos (by simpa using vmalloc)]
    exact Or.inr ⟨fun accepts => vmalloc accepts.vmalloc, _, rfl⟩
  rw [if_neg (by simpa using vmalloc)]
  exact Or.inl ⟨⟨copyRequest, fields, portId, vmalloc⟩, rfl⟩

/-! ## How a request may end -/

/-- What is recorded of a request which gets no image information. -/
inductive EndsEarly : List Event → Prop where
  | refused : EndsEarly []
  | noCopy : EndsEarly [(.buffer, .take), (.buffer, .give)]
  | noInfo : EndsEarly
      [(.buffer, .take), (.device, .take), (.device, .give), (.buffer, .give)]

/-- What a request does to the infos of the regions, and what it records. -/
inductive Outcome (attempt : Attempt) (fme : DflFme) (events : List Event)
    (next : DflFme) : Prop where
  | ends (never : ∀ ident, ¬ Allocates attempt fme ident)
      (early : EndsEarly events)
      (liveInfos : next.liveInfos = fme.liveInfos)
      (infos : infoOf next = infoOf fme)
  /-- The information is left to nobody. -/
  | leaks (ident : Nat) (allocates : Allocates attempt fme ident)
      (missing : ¬ ∃ region, FindsRegion attempt fme region)
      (events_eq : events =
        [(.buffer, .take), (.device, .take), (.info ident, .take),
          (.lock, .take), (.lock, .give), (.buffer, .give)])
      (liveInfos : next.liveInfos = ident :: fme.liveInfos)
      (infos : infoOf next = infoOf fme)
  | handsOver (ident : Nat) (region : FpgaRegion Nat)
      (allocates : Allocates attempt fme ident)
      (finds : FindsRegion attempt fme region)
      (events_eq : events =
        (.buffer, .take) :: (.device, .take) :: (.info ident, .take) ::
          (.lock, .take) :: (.foundRegion attempt.portPr.portId, .take) ::
          (freed region.info ++
            [(.foundRegion attempt.portPr.portId, .give), (.lock, .give),
              (.buffer, .give)]))
      (liveInfos : next.liveInfos =
        ((allocated ident fme).imageInfoFree region.info).liveInfos)
      (infos : infoOf next =
        Function.update (infoOf fme) attempt.portPr.portId (some ident))

end Runs

/-! ## The image of a region which is programmed -/

/-- The region has the image information of this identity. -/
def Carries {Hw Target : Type} (ident : Nat)
    (state : Programming Nat Hw Target) : Prop :=
  state.region.info.map FpgaImageInfo.ident = some ident

/-- A driver which parses no header leaves the information alone. -/
theorem bufLoad_info {Hw : Type} {mops : FpgaManagerOps Hw}
    (noHeader : mops.parseHeader = none) (mgr : FpgaManager Hw)
    (info : FpgaImageInfo) (buf : List (BitVec 8)) :
    (fpgaMgrBufLoadMapped mops mgr info buf).2.2 = info := by
  have parses : (fpgaMgrParseHeaderMapped mops mgr info buf).2.2 = info := by
    unfold fpgaMgrParseHeaderMapped
    rw [noHeader]
    dsimp only
    by_cases outruns : (info.headerSize + info.dataSize) % 2 ^ 64 > buf.length
    · rw [if_pos outruns]
    · rw [if_neg outruns]
  unfold fpgaMgrBufLoadMapped
  generalize fpgaMgrParseHeaderMapped mops mgr info buf = result at parses ⊢
  rcases result with ⟨- | ret, mgr, parsed⟩
  · dsimp only at parses ⊢
    subst parses
    rcases fpgaMgrWriteInitBuf mops mgr parsed buf with ⟨- | ret, mgr⟩
    · dsimp only
      rcases fpgaMgrWrite mops mgr.hw _ with ⟨- | ret, hw⟩ <;> rfl
    · rfl
  · exact parses

theorem load_ident (env : LoadEnv) (mgr : FpgaManager Unit)
    (info : Option FpgaImageInfo) :
    (fpgaMgrLoadBuf (fmeMgrOps env) mgr info).2.2.map FpgaImageInfo.ident =
      info.map FpgaImageInfo.ident := by
  cases info with
  | none => rfl
  | some info =>
      unfold fpgaMgrLoadBuf
      dsimp only
      split
      · rfl
      · rw [bufLoad_info rfl]
        rfl

section Programs

variable (attempt : Attempt) (portId : Nat) {ident : Nat}
  {state : Programming Nat Unit (Nat → FmePort)}

theorem carries_getBridges (carries : Carries ident state) :
    Carries ident
      ((fmeRegionOps attempt portId).getBridgesStep state).2 := by
  unfold RegionOps.getBridgesStep fmeRegionOps
  dsimp only
  rcases fpgaBridgeGet attempt.bridgeEnv state.region.info
    (state.bridges portId) with ⟨- | ret, bridge⟩ <;> exact carries

theorem carries_loadStep (carries : Carries ident state) :
    Carries ident ((fmeRegionOps attempt portId).loadStep state).2 :=
  (load_ident attempt.load state.mgr state.region.info).trans carries

theorem carries_programBridged (carries : Carries ident state) :
    Carries ident
      (programBridged (fmeRegionOps attempt portId) state).2 := by
  unfold programBridged
  have disabled : Carries ident
      ((fmeRegionOps attempt portId).setStep false state).2 := carries
  generalize (fmeRegionOps attempt portId).setStep false state = result
    at disabled ⊢
  rcases result with ⟨- | ret, disables⟩
  · have loaded := carries_loadStep attempt portId disabled
    dsimp only [Fpga.andThen] at loaded ⊢
    generalize (fmeRegionOps attempt portId).loadStep disables = result
      at loaded ⊢
    rcases result with ⟨- | ret, loads⟩ <;> exact loaded
  · exact disabled

theorem carries_program (env : RegionEnv) (carries : Carries ident state) :
    Carries ident
      (fpgaRegionProgramFpga env (fmeRegionOps attempt portId) state).2 := by
  have gets : Carries ident
      { state with region := (fpgaRegionGet env state.region).2 } := by
    unfold Carries
    rw [fpgaRegionGet_info]
    exact carries
  unfold fpgaRegionProgramFpga
  generalize fpgaRegionGet env state.region = result at gets ⊢
  rcases result with ⟨- | ret, region⟩
  · dsimp only
    rcases fpgaMgrLock env.mgrTrylock state.mgr with ⟨- | ret, mgr⟩
    · have collects := carries_getBridges attempt portId
        (show Carries ident { state with mgr := mgr, region := region }
          from gets)
      dsimp only
      generalize (fmeRegionOps attempt portId).getBridgesStep
        { state with mgr := mgr, region := region } = result at collects ⊢
      rcases result with ⟨- | ret, ready⟩
      · have programmed := carries_programBridged attempt portId collects
        dsimp only at programmed ⊢
        generalize programBridged (fmeRegionOps attempt portId) ready = result
          at programmed ⊢
        rcases result with ⟨- | ret, done⟩ <;> exact programmed
      · exact collects
    · exact gets
  · exact gets

end Programs

theorem programRegion_infoOf (attempt : Attempt) (ident : Nat)
    (region : FpgaRegion Nat) (fme : DflFme) :
    infoOf (programRegion attempt ident region fme).state =
      Function.update (infoOf fme) attempt.portPr.portId (some ident) := by
  have starts : Carries ident
      (fme.programming region (attempt.imageInfo ident)) := rfl
  have carries :=
    carries_program attempt attempt.portPr.portId attempt.regionEnv starts
  funext portId
  by_cases same : portId = attempt.portPr.portId
  · rw [same, Function.update_self]
    unfold infoOf programRegion
    dsimp only
    rw [Function.update_self]
    exact carries
  · rw [Function.update_of_ne same]
    unfold infoOf programRegion
    dsimp only
    rw [Function.update_of_ne same]

theorem imageInfoFree_infoOf (info : Option FpgaImageInfo) (fme : DflFme) :
    infoOf (fme.imageInfoFree info) = infoOf fme := by
  cases info <;> rfl

/-- Every request ends in one of these ways. -/
theorem outcome (attempt : Attempt) (fme : DflFme) :
    Outcome attempt fme (fmePr attempt fme).events
      (fmePr attempt fme).state := by
  rcases fmePr_cases attempt fme with ⟨accepts, runs⟩ | ⟨refused, ret, runs⟩
  case inr =>
    rw [runs]
    exact .ends (fun _ allocates => refused allocates.toAccepts) .refused rfl rfl
  rw [runs, accepted_eq, buffered_eq]
  by_cases copyBuffer : attempt.copyBuffer = true
  case neg =>
    rw [if_pos (by simpa using copyBuffer)]
    exact .ends (fun _ allocates => copyBuffer allocates.copyBuffer) .noCopy
      rfl rfl
  rw [if_neg (by simpa using copyBuffer)]
  cases infoAlloc : attempt.infoAlloc with
  | none =>
      refine .ends (fun ident allocates => ?_) .noInfo rfl rfl
      rw [allocates.infoAlloc] at infoAlloc
      cases infoAlloc
  | some ident =>
      have allocates : Allocates attempt fme ident :=
        ⟨accepts, copyBuffer, infoAlloc⟩
      by_cases has : ∃ region, FindsRegion attempt fme region
      case neg =>
        have missing : ¬ ∃ region, FindsRegion attempt
            (allocated ident { fme with buffers := fme.buffers + 1 })
              region := by
          rintro ⟨region, finds⟩
          exact has
            ⟨region, finds.fmePrivate, finds.findRegion, finds.region⟩
        dsimp only
        rw [locked_of_noRegion missing]
        exact .leaks ident allocates has rfl rfl rfl
      obtain ⟨region, finds⟩ := has
      have alsoFinds : FindsRegion attempt
          (allocated ident { fme with buffers := fme.buffers + 1 }) region :=
        ⟨finds.fmePrivate, finds.findRegion, finds.region⟩
      dsimp only
      rw [locked_of_region alsoFinds]
      refine .handsOver ident region allocates finds ?_ ?_ ?_
      · simp only [List.append_assoc, List.cons_append, List.nil_append]
      · cases region.info <;> rfl
      · change infoOf (programRegion attempt ident region
          (DflFme.imageInfoFree _ region.info)).state = _
        rw [programRegion_infoOf, imageInfoFree_infoOf]
        rfl

/-! ## What is owed -/

/-- Each image information comes with a reference to the device. -/
def owedBy (idents : List Nat) : List Resource :=
  idents.flatMap fun ident => [.info ident, .device]

/-- What always holds. -/
structure Accounts (system : System) : Prop where
  nodup : system.fme.liveInfos.Nodup
  holds : Lib.Balance.Holds (owedBy system.fme.liveInfos) system.history
  live : ∀ portId ident, infoOf system.fme portId = some ident →
    ident ∈ system.fme.liveInfos
  apart : ∀ portId other ident, infoOf system.fme portId = some ident →
    infoOf system.fme other = some ident → portId = other

theorem owedBy_count_info (ident : Nat) (idents : List Nat) :
    (owedBy idents).count (.info ident) = idents.count ident := by
  induction idents with
  | nil => rfl
  | cons first rest ih =>
      change List.count _ (.info first :: .device :: owedBy rest) = _
      simp only [List.count_cons, ih, beq_iff_eq, reduceCtorEq, if_false,
        Nat.add_zero, Resource.info.injEq]

theorem owedBy_count_device (idents : List Nat) :
    (owedBy idents).count .device = idents.length := by
  induction idents with
  | nil => rfl
  | cons first rest ih =>
      change List.count _ (.info first :: .device :: owedBy rest) = _
      simp only [List.count_cons, ih, beq_iff_eq, reduceCtorEq, if_false,
        if_true, Nat.add_zero, List.length_cons]

/-- Nothing else is owed for them. -/
theorem owedBy_count_other {resource : Resource}
    (noInfo : ∀ ident, resource ≠ .info ident) (noDevice : resource ≠ .device)
    (idents : List Nat) : (owedBy idents).count resource = 0 := by
  rw [List.count_eq_zero]
  intro member
  obtain ⟨ident, -, isOwed⟩ := List.mem_flatMap.mp member
  rcases List.mem_cons.mp isOwed with isInfo | isDevice
  · exact noInfo ident isInfo
  · exact noDevice (List.mem_singleton.mp isDevice)

theorem Accounts.owned_iff {system : System} (accounts : Accounts system) :
    Owned system ↔ ∀ ident ∈ system.fme.liveInfos,
      ∃ portId, infoOf system.fme portId = some ident := by
  have owed : ∀ resource, system.owed resource =
      some ((owedBy system.fme.liveInfos).count resource) := accounts.holds
  constructor
  · intro owned ident member
    have once := List.count_eq_one_of_mem accounts.nodup member
    rcases owned.infos ident with ⟨none, -⟩ | ⟨-, portId, has, -⟩
    · rw [owed, owedBy_count_info, once] at none
      cases none
    · exact ⟨portId, has⟩
  intro has
  have others : ∀ resource, (∀ ident, resource ≠ .info ident) →
      resource ≠ .device → system.owed resource = some 0 := by
    intro resource noInfo noDevice
    rw [owed, owedBy_count_other noInfo noDevice]
  exact
    { infos := by
        intro ident
        rw [owed, owedBy_count_info]
        by_cases member : ident ∈ system.fme.liveInfos
        · obtain ⟨portId, isInfo⟩ := has ident member
          rw [List.count_eq_one_of_mem accounts.nodup member]
          exact Or.inr ⟨rfl, portId, isInfo, fun other alsoInfo =>
            accounts.apart other portId ident alsoInfo isInfo⟩
        · rw [List.count_eq_zero_of_not_mem member]
          exact Or.inl ⟨rfl, fun portId isInfo =>
            member (accounts.live portId ident isInfo)⟩
      device := by
        refine ⟨system.fme.liveInfos, accounts.nodup, fun ident => ?_, ?_⟩
        · constructor
          · exact has ident
          · rintro ⟨portId, isInfo⟩
            exact accounts.live portId ident isInfo
        · rw [owed, owedBy_count_device]
      buffer := others .buffer nofun nofun
      lock := others .lock nofun nofun
      foundRegion := fun portId => others (.foundRegion portId) nofun nofun }

theorem heldAfter_early {events : List Event} (early : EndsEarly events)
    (held : List Resource) : heldAfter held events = some held := by
  cases early <;> simp [heldAfter]

theorem heldAfter_leaks (ident : Nat) (held : List Resource) :
    heldAfter held
        [(.buffer, .take), (.device, .take), (.info ident, .take),
          (.lock, .take), (.lock, .give), (.buffer, .give)] =
      some (.info ident :: .device :: held) := by
  simp [heldAfter]

/-- A region without an image information only gets one. -/
theorem heldAfter_first (ident portId : Nat) (held : List Resource) :
    heldAfter held
        ((.buffer, .take) :: (.device, .take) :: (.info ident, .take) ::
          (.lock, .take) :: (.foundRegion portId, .take) ::
          (freed none ++ [(.foundRegion portId, .give), (.lock, .give),
            (.buffer, .give)])) =
      some (.info ident :: .device :: held) := by
  simp [heldAfter, freed]

/-- A region which has an image information gives it up for the new one. -/
theorem heldAfter_next {ident : Nat} {old : FpgaImageInfo}
    (apart : ident ≠ old.ident) (portId : Nat) {held : List Resource}
    (owns : .info old.ident ∈ held) :
    heldAfter held
        ((.buffer, .take) :: (.device, .take) :: (.info ident, .take) ::
          (.lock, .take) :: (.foundRegion portId, .take) ::
          (freed (some old) ++ [(.foundRegion portId, .give), (.lock, .give),
            (.buffer, .give)])) =
      some (.info ident :: held.erase (.info old.ident)) := by
  simp [heldAfter, freed, owns, apart]

/-- What is owed without one of the image informations. -/
theorem owedBy_perm_erase {idents : List Nat} {ident : Nat}
    (member : ident ∈ idents) :
    ((owedBy idents).erase (.info ident)).Perm
      (.device :: owedBy (idents.erase ident)) := by
  have all : (owedBy idents).Perm (owedBy (ident :: idents.erase ident)) :=
    (List.perm_cons_erase member).flatMap_right _
  have erased := all.erase (.info ident)
  exact erased.trans (by
    change (List.erase (.info ident :: .device :: owedBy _) _).Perm _
    rw [List.erase_cons_head])

/-! ## Requests one after the other -/

theorem Registered.accounts {fme : DflFme} (registered : Registered fme) :
    Accounts ⟨fme, []⟩ := by
  have none : ∀ portId ident, infoOf fme portId ≠ some ident := by
    intro portId ident
    unfold infoOf
    cases isRegion : fme.regions portId with
    | none => exact nofun
    | some region =>
        rw [Option.bind_some, registered.info portId region isRegion]
        exact nofun
  exact
    { nodup := by
        dsimp only
        rw [registered.liveInfos]
        exact List.nodup_nil
      holds := by
        dsimp only
        rw [registered.liveInfos]
        exact Lib.Balance.holds_nil
      live := fun portId ident has => absurd has (none portId ident)
      apart := fun portId _ ident has => absurd has (none portId ident) }

section Steps

variable {system : System} {attempt : Attempt} {next : DflFme} {ident : Nat}

/-- The region of a request has what it owned replaced. -/
structure Replaces (system : System) (portId ident : Nat) (next : DflFme) :
    Prop where
  mem_iff : ∀ other, other ∈ next.liveInfos ↔
    other = ident ∨
      other ∈ system.fme.liveInfos ∧ infoOf system.fme portId ≠ some other
  nodup : next.liveInfos.Nodup
  infos : infoOf next =
    Function.update (infoOf system.fme) portId (some ident)

theorem Replaces.accounts {portId : Nat} {history : List Event}
    (replaces : Replaces system portId ident next)
    (accounts : Accounts system) (fresh : ident ∉ system.fme.liveInfos)
    (holds : Lib.Balance.Holds (owedBy next.liveInfos) history) :
    Accounts ⟨next, history⟩ := by
  have onlyOne : ∀ other, infoOf next other = some ident → other = portId := by
    intro other has
    by_contra apart
    rw [replaces.infos, Function.update_of_ne apart] at has
    exact fresh (accounts.live other ident has)
  refine ⟨replaces.nodup, holds, ?_, ?_⟩
  · intro other kept has
    refine (replaces.mem_iff kept).mpr ?_
    change infoOf next other = some kept at has
    by_cases same : other = portId
    · rw [replaces.infos, same, Function.update_self] at has
      exact Or.inl (Option.some.inj has).symm
    · rw [replaces.infos, Function.update_of_ne same] at has
      refine Or.inr ⟨accounts.live other kept has, fun alsoHas => ?_⟩
      exact same (accounts.apart other portId kept has alsoHas)
  · intro first second kept has alsoHas
    change infoOf next first = some kept at has
    change infoOf next second = some kept at alsoHas
    by_cases isNew : kept = ident
    · rw [isNew] at has alsoHas
      exact (onlyOne first has).trans (onlyOne second alsoHas).symm
    · have elsewhere : ∀ other, infoOf next other = some kept →
          infoOf system.fme other = some kept := by
        intro other has
        rw [replaces.infos] at has
        by_cases same : other = portId
        · rw [same, Function.update_self] at has
          exact absurd (Option.some.inj has).symm isNew
        · rwa [Function.update_of_ne same] at has
      exact accounts.apart first second kept (elsewhere first has)
        (elsewhere second alsoHas)

theorem Replaces.owned {portId : Nat}
    (replaces : Replaces system portId ident next)
    (owned : ∀ kept ∈ system.fme.liveInfos,
      ∃ other, infoOf system.fme other = some kept) :
    ∀ kept ∈ next.liveInfos, ∃ other, infoOf next other = some kept := by
  intro kept member
  rw [replaces.infos]
  rcases (replaces.mem_iff kept).mp member with rfl | ⟨live, notThere⟩
  · exact ⟨portId, Function.update_self _ _ _⟩
  · obtain ⟨other, has⟩ := owned kept live
    refine ⟨other, ?_⟩
    rw [Function.update_of_ne, has]
    rintro rfl
    exact notThere has

/-- What is live once a region has a new image information. -/
theorem live_of_handsOver {region : FpgaRegion Nat}
    (accounts : Accounts system) (fresh : ident ∉ system.fme.liveInfos)
    (finds : FindsRegion attempt system.fme region)
    (liveInfos : next.liveInfos =
      ((allocated ident system.fme).imageInfoFree region.info).liveInfos) :
    (∀ other, other ∈ next.liveInfos ↔ other = ident ∨
      other ∈ system.fme.liveInfos ∧
        infoOf system.fme attempt.portPr.portId ≠ some other) ∧
    next.liveInfos.Nodup ∧
    ∀ past, Lib.Balance.Holds (owedBy system.fme.liveInfos) past →
      Lib.Balance.Holds (owedBy next.liveInfos)
        (past ++ (.buffer, .take) :: (.device, .take) ::
          (.info ident, .take) :: (.lock, .take) ::
          (.foundRegion attempt.portPr.portId, .take) ::
          (freed region.info ++
            [(.foundRegion attempt.portPr.portId, .give), (.lock, .give),
              (.buffer, .give)])) := by
  have nodup := List.nodup_cons.mpr ⟨fresh, accounts.nodup⟩
  have infos : infoOf system.fme attempt.portPr.portId =
      region.info.map FpgaImageInfo.ident := by
    unfold infoOf
    rw [finds.region]
    rfl
  cases info : region.info with
  | none =>
      rw [info] at liveInfos infos
      rw [infos, liveInfos]
      refine ⟨fun other => ?_, nodup, fun past holds => ?_⟩
      · exact List.mem_cons.trans
          (or_congr_right (and_iff_left nofun).symm)
      · exact holds.after (heldAfter_first ident attempt.portPr.portId _)
  | some old =>
      rw [info] at liveInfos infos
      have owns : old.ident ∈ system.fme.liveInfos :=
        accounts.live _ _ infos
      have apart : ident ≠ old.ident := by
        rintro rfl
        exact fresh owns
      have isLive : next.liveInfos =
          ident :: system.fme.liveInfos.erase old.ident := by
        rw [liveInfos]
        exact List.erase_cons_tail (by simpa using apart)
      rw [infos, isLive]
      refine ⟨fun other => ?_, ?_, fun past holds => ?_⟩
      · rw [List.mem_cons, accounts.nodup.mem_erase_iff]
        refine or_congr_right ?_
        rw [and_comm, Option.map_some, ne_comm]
        exact and_congr_right fun _ =>
          not_congr (Option.some_inj).symm
      · refine List.nodup_cons.mpr ⟨fun member => ?_, accounts.nodup.erase _⟩
        exact fresh (List.mem_of_mem_erase member)
      · have member : Resource.info old.ident ∈
            owedBy system.fme.liveInfos := by
          refine List.mem_flatMap.mpr ⟨old.ident, owns, ?_⟩
          exact List.mem_cons_self
        have after := holds.after
          (heldAfter_next apart attempt.portPr.portId member)
        exact after.perm ((owedBy_perm_erase owns).cons _)

/-- What one request does to the accounts, and to what is owned. -/
theorem step_accounts (accounts : Accounts system)
    (fresh : Fresh attempt system.fme) :
    Accounts (system.apply attempt) ∧
      (Owned system →
        (Owned (system.apply attempt) ↔ HandsOver system attempt)) := by
  rw [accounts.owned_iff]
  unfold System.apply
  dsimp only
  have ends := outcome attempt system.fme
  generalize (fmePr attempt system.fme).events = events at ends ⊢
  generalize (fmePr attempt system.fme).state = next at ends ⊢
  cases ends with
  | ends never early liveInfos infos =>
      have after : Accounts ⟨next, system.history ++ events⟩ :=
        { nodup := liveInfos ▸ accounts.nodup
          holds := accounts.holds.after
            (liveInfos ▸ heldAfter_early early (owedBy next.liveInfos))
          live := by
            dsimp only
            rw [infos, liveInfos]
            exact accounts.live
          apart := by
            dsimp only
            rw [infos]
            exact accounts.apart }
      refine ⟨after, fun owned => iff_of_true (after.owned_iff.mpr ?_) ?_⟩
      · dsimp only
        rw [infos, liveInfos]
        exact owned
      · exact fun ident allocates => absurd allocates (never ident)
  | leaks ident allocates missing events_eq liveInfos infos =>
      have isNew := fresh ident allocates.infoAlloc
      have after : Accounts ⟨next, system.history ++ events⟩ :=
        { nodup := by
            dsimp only
            rw [liveInfos]
            exact List.nodup_cons.mpr ⟨isNew, accounts.nodup⟩
          holds := by
            dsimp only
            rw [liveInfos, events_eq]
            exact accounts.holds.after (heldAfter_leaks ident _)
          live := by
            dsimp only
            rw [infos, liveInfos]
            exact fun portId other has =>
              List.mem_cons_of_mem _ (accounts.live portId other has)
          apart := by
            dsimp only
            rw [infos]
            exact accounts.apart }
      refine ⟨after, fun _ => iff_of_false (fun owned => ?_) fun hands => ?_⟩
      · have member : ident ∈ next.liveInfos := by
          rw [liveInfos]
          exact List.mem_cons_self
        obtain ⟨portId, has⟩ := after.owned_iff.mp owned ident member
        change infoOf next portId = some ident at has
        rw [infos] at has
        exact isNew (accounts.live portId ident has)
      · exact missing (hands ident allocates)
  | handsOver ident region allocates finds events_eq liveInfos infos =>
      have isNew := fresh ident allocates.infoAlloc
      obtain ⟨members, nodup, holds⟩ :=
        live_of_handsOver accounts isNew finds liveInfos
      have replaces : Replaces system attempt.portPr.portId ident next :=
        ⟨members, nodup, infos⟩
      have after : Accounts ⟨next, system.history ++ events⟩ := by
        refine replaces.accounts accounts isNew ?_
        rw [events_eq]
        exact holds _ accounts.holds
      refine ⟨after, fun owned => iff_of_true (after.owned_iff.mpr ?_) ?_⟩
      · exact replaces.owned owned
      · exact fun _ _ => ⟨region, finds⟩

end Steps

/--
Along requests one after the other, every image information is freed once or
is that of one region, and what else a request takes is given back, if and
only if each request which gets as far as an image finds its region.
-/
theorem owned_iff_handsOver {fme : DflFme} (registered : Registered fme)
    {path : List (Attempt × System)}
    (isPath : IsPath System.Step ⟨fme, []⟩ path) :
    Throughout Owned ⟨fme, []⟩ path ↔ StepsMeet HandsOver ⟨fme, []⟩ path := by
  have starts := registered.accounts
  refine throughout_iff_stepsMeet Accounts ?_ ?_ isPath starts
    (starts.owned_iff.mpr ?_)
  · rintro source attempt target accounts ⟨fresh, rfl⟩
    exact (step_accounts accounts fresh).1
  · rintro source attempt target accounts owned ⟨fresh, rfl⟩
    exact (step_accounts accounts fresh).2 owned
  · intro ident member
    dsimp only at member
    rw [registered.liveInfos] at member
    cases member

/-! ## Without the record -/

theorem locked_unrecorded (attempt : Attempt) (ident : Nat) (fme : DflFme) :
    (retOf (fmePrLocked attempt ident fme).result,
        (fmePrLocked attempt ident fme).state) =
      if !attempt.fmePrivate then (some .einval, fme)
      else if !attempt.findRegion then (some .einval, fme)
      else
        match fme.regions attempt.portPr.portId with
        | none => (some .einval, fme)
        | some region => fmePrProgram attempt ident fme region := by
  rw [locked_eq]
  split
  · rfl
  split
  · rfl
  cases fme.regions attempt.portPr.portId with
  | none => rfl
  | some region =>
      have returns : ∀ ret : Option Errno, retOf (ofRet ret) = ret := by
        intro ret
        cases ret <;> rfl
      exact Prod.ext (returns _) rfl

theorem buffered_unrecorded (attempt : Attempt) (fme : DflFme) :
    (retOf (fmePrBuffered attempt fme).result,
        (fmePrBuffered attempt fme).state) =
      Fme.fmePrBuffered attempt fme := by
  rw [buffered_eq]
  unfold Fme.fmePrBuffered
  split
  · rfl
  cases attempt.infoAlloc with
  | none => rfl
  | some ident => exact locked_unrecorded attempt ident (allocated ident fme)

/-- Without the record, the request is the one which is modelled. -/
theorem fmePr_unrecorded (attempt : Attempt) (fme : DflFme) :
    (retOf (fmePr attempt fme).result, (fmePr attempt fme).state) =
      Fme.fmePr attempt fme := by
  have buffered := buffered_unrecorded attempt
    { fme with buffers := fme.buffers + 1 }
  unfold fmePr Fme.fmePr
  rw [read_bind]
  split
  · rfl
  split
  · rfl
  split
  · rfl
  split
  · rfl
  · rw [accepted_eq]
    dsimp only
    rw [← buffered]

/-! ## A request whose FME is gone -/

/-- A request for port 0 which meets no obstacle. -/
def plainAttempt : Attempt where
  copyRequest := true
  portPr := ⟨24, 0, 0, 4, fun _ => 0⟩
  vmalloc := true
  copyBuffer := true
  infoAlloc := some 0
  fmePrivate := true
  findRegion := true
  regionEnv := ⟨true, true, true⟩
  bridgeEnv := ⟨true, true, true⟩
  disable := ⟨true, true, true⟩
  load := ⟨none, none, none⟩
  enable := ⟨true, true, false⟩

/-- An FME with one port. -/
def onePort : DflFme where
  cap := fmeCapNumPorts.prep 1
  regions portId := if portId = 0 then some ⟨⟨0, 0, 0⟩, none, []⟩ else none
  mgr := ⟨0, .unknown, ()⟩
  bridges _ := ⟨none, ⟨0, 0, 0⟩⟩
  ports _ := ⟨⟨false, false⟩, ⟨0, 0⟩⟩
  liveInfos := []
  buffers := 0

theorem registered_onePort : Registered onePort := by
  refine ⟨rfl, fun portId region isRegion => ?_⟩
  dsimp only [onePort] at isRegion
  split_ifs at isRegion
  cases isRegion
  rfl

/-- The same request twice, each time with an image of its own. -/
def twoImages : List Attempt :=
  [plainAttempt, { plainAttempt with infoAlloc := some 1 }]

theorem second_image_replaces_first :
    IsPath System.Step ⟨onePort, []⟩
        (pathOf System.apply ⟨onePort, []⟩ twoImages) ∧
      Throughout Owned ⟨onePort, []⟩
        (pathOf System.apply ⟨onePort, []⟩ twoImages) := by
  have isPath : IsPath System.Step ⟨onePort, []⟩
      (pathOf System.apply ⟨onePort, []⟩ twoImages) := by
    refine ⟨⟨?_, rfl⟩, ⟨?_, rfl⟩, trivial⟩
    · exact fun _ _ => List.not_mem_nil
    · intro ident allocs
      cases allocs
      decide
  refine ⟨isPath, (owned_iff_handsOver registered_onePort isPath).mpr ?_⟩
  exact ⟨fun _ _ => ⟨_, rfl, rfl, rfl⟩, fun _ _ => ⟨_, rfl, rfl, rfl⟩, trivial⟩

/-- The image information stays allocated, and no region has it. -/
theorem info_lost_without_fme :
    IsPath System.Step ⟨onePort, []⟩
        (pathOf System.apply ⟨onePort, []⟩
          [{ plainAttempt with fmePrivate := false }]) ∧
      ¬ Throughout Owned ⟨onePort, []⟩
        (pathOf System.apply ⟨onePort, []⟩
          [{ plainAttempt with fmePrivate := false }]) := by
  refine ⟨⟨⟨fun _ _ => List.not_mem_nil, rfl⟩, trivial⟩, fun throughout => ?_⟩
  have owned := Throughout.final throughout
  rcases owned.infos 0 with ⟨none, -⟩ | ⟨-, portId, has, -⟩
  · cases none
  · change (if portId = 0 then _ else none : Option (FpgaRegion Nat)).bind _ =
      some 0 at has
    split_ifs at has <;> cases has

end LinuxDfl.Fme.ImageOwner
