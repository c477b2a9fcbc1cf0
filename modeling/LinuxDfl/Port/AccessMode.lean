import LinuxDfl.Port.Ownership

/-!
# Access modes follow the ownership of the ports

A port in VF access mode must be released, and SR-IOV enabled.  SR-IOV
configuration and port release keep this; `dfl_fpga_cdev_assign_port` does
not look at the access mode, so it keeps it exactly when the port it
registers is in PF mode.
-/

namespace LinuxDfl.Port

open LinuxDfl.Kernel
open LinuxDfl.Lib.SharedExclusive
open LinuxDfl.Lib.Transition

/-! ## The access mode registers -/

/-- The access-control field of a `PORT_OFST` register. -/
def accessMode (portOfst : PortOfst) (n : Int) : Nat :=
  fmePortOfstAccCtrl.get (portOfst n)

theorem accessMode_pf_or_vf (portOfst : PortOfst) (n : Int) :
    accessMode portOfst n = fmePortOfstAccPf ∨
      accessMode portOfst n = fmePortOfstAccVf := by
  have bound : accessMode portOfst n < 2 ^ 1 :=
    Field.get_lt fmePortOfstAccCtrl (portOfst n)
  simp only [fmePortOfstAccPf, fmePortOfstAccVf]
  omega

/-- The value which `config_port_access_mode` puts into the field. -/
def modeValue (isVf : Bool) : Nat :=
  if isVf then fmePortOfstAccVf else fmePortOfstAccPf

theorem accessMode_configPortAccessMode
    (portOfst : PortOfst) (portId n : Int) (isVf : Bool) :
    accessMode (configPortAccessMode portOfst portId isVf) n =
      if n = portId then modeValue isVf else accessMode portOfst n := by
  unfold accessMode configPortAccessMode
  by_cases same : n = portId
  · rw [if_pos same, if_pos same, Field.get_update _ (by decide)]
    cases isVf <;> rfl
  · rw [if_neg same, if_neg same]

/-- A port of the list which has no platform device and carries this id. -/
def ReleasedWithId (ports : List FeatureDevData) (n : Int) : Prop :=
  ∃ fdata ∈ ports, fdata.dev = none ∧ fdata.id = n

instance (ports : List FeatureDevData) (n : Int) :
    Decidable (ReleasedWithId ports n) :=
  inferInstanceAs (Decidable (∃ fdata ∈ ports, _))

/-- Exactly the ports without a platform device are configured. -/
theorem accessMode_configReleasedPorts
    (isVf : Bool) (portOfst : PortOfst) (ports : List FeatureDevData)
    (n : Int) :
    accessMode (configReleasedPorts isVf portOfst ports) n =
      if ReleasedWithId ports n then modeValue isVf
      else accessMode portOfst n := by
  induction ports generalizing portOfst with
  | nil => simp [configReleasedPorts, ReleasedWithId]
  | cons fdata rest ih =>
      rw [configReleasedPorts]
      cases registered : fdata.dev with
      | some fdev =>
          have same : ReleasedWithId (fdata :: rest) n ↔
              ReleasedWithId rest n := by
            simp [ReleasedWithId, registered]
          simp only [Option.isSome_some, if_true, ih, same]
      | none =>
          simp only [Option.isSome_none, Bool.false_eq_true, if_false, ih,
            accessMode_configPortAccessMode]
          by_cases atHead : n = fdata.id
          · have atList : ReleasedWithId (fdata :: rest) n :=
              ⟨fdata, List.mem_cons_self, registered, atHead.symm⟩
            simp [atHead ▸ atList, atHead]
          · have same : ReleasedWithId (fdata :: rest) n ↔
                ReleasedWithId rest n := by
              simp [ReleasedWithId, Ne.symm atHead]
            simp only [atHead, if_false, same]

/-! ## The property -/

/-- Access modes follow ownership. -/
structure AccessFollowsOwnership (card : Card) : Prop where
  registered_pf :
    ∀ port fdata, card.IsPort port fdata → fdata.dev ≠ none →
      accessMode card.portOfst fdata.portNum = fmePortOfstAccPf
  vf_released :
    ∀ port fdata, card.IsPort port fdata →
      accessMode card.portOfst fdata.portNum = fmePortOfstAccVf →
        port ∈ card.released ∧ card.sriov = true

/-- All answers of the platform bus let a registration succeed. -/
def RegisterEnv.registers (env : RegisterEnv) : Prop :=
  env.alloc ≠ none ∧ env.addResources = none ∧ env.addData = none ∧
    env.add = none

/--
The condition on a call: a port which is assigned, and whose registration
will succeed, is in PF mode.
-/
def AssignsInPfMode (card : Card) : Op → Prop
  | .assignPort portOps env portId =>
      ∀ port fdata, card.findPort portOps portId = some port →
        card.IsPort port fdata → env.registers →
          accessMode card.portOfst fdata.portNum = fmePortOfstAccPf
  | _ => True

/-- The hardware numbers the ports apart. -/
def DistinctPorts (card : Card) : Prop :=
  ∀ left right leftData rightData,
    card.IsPort left leftData → card.IsPort right rightData →
      leftData.portNum = rightData.portNum → left = right

/-- Ids are read from the hardware, and a released port's id is known. -/
structure Numbered (card : Card) : Prop where
  distinct : DistinctPorts card
  id_eq :
    ∀ port fdata, card.IsPort port fdata →
      fdata.id = featureDevIdUnused ∨ fdata.id = fdata.portNum
  id_of_absent :
    ∀ port fdata, card.IsPort port fdata → fdata.dev = none →
      fdata.id = fdata.portNum

/-! ## What the calls do to numbers and devices -/

/-- Every port of the next card is related to the same port of the card. -/
def Portwise (relation : FeatureDevData → FeatureDevData → Prop)
    (card next : Card) : Prop :=
  ∀ port new, next.IsPort port new →
    ∃ old, card.IsPort port old ∧ relation old new

/--
A port keeps its number, its id may have been read, and its platform device
is only taken away once the id is known.
-/
structure PortKept (old new : FeatureDevData) : Prop where
  portNum : new.portNum = old.portNum
  id_cases :
    new.id = old.id ∨ (old.id = featureDevIdUnused ∧ new.id = old.portNum)
  absent : new.dev = none → old.dev = none ∨ new.id ≠ featureDevIdUnused

/-- A port without a platform device stays without one. -/
structure PortStaysAbsent (old new : FeatureDevData) : Prop
    extends PortKept old new where
  stays : old.dev = none → new.dev = none

theorem RefreshedId.staysAbsent {old new : FeatureDevData}
    (refreshed : RefreshedId old new) : PortStaysAbsent old new := by
  obtain ⟨id, rfl, idCases⟩ := refreshed
  exact ⟨⟨rfl, idCases, fun absent => Or.inl absent⟩, fun absent => absent⟩

theorem portwise_of_refreshed
    {card : Card} {ports : List FeatureDevData}
    (refreshed : List.Forall₂ RefreshedId card.cdev.portDevList ports) :
    Portwise PortStaysAbsent card (card.withPorts ports) := by
  intro port new isNew
  obtain ⟨old, isOld, related⟩ := getElem?_of_forall₂ refreshed isNew
  exact ⟨old, isOld, related.staysAbsent⟩

/-- One port is replaced after the search has refreshed the ids. -/
theorem portwise_of_set
    {relation : FeatureDevData → FeatureDevData → Prop}
    {card next : Card} {ports : List FeatureDevData} {position : Nat}
    {fdata after : FeatureDevData}
    (weaken : ∀ old new, PortStaysAbsent old new → relation old new)
    (refreshed : List.Forall₂ RefreshedId card.cdev.portDevList ports)
    (lookup : ports[position]? = some fdata)
    (isNext : next.cdev.portDevList = ports.set position after)
    (changed : ∀ old, RefreshedId old fdata → relation old after) :
    Portwise relation card next := by
  intro port new isNew
  by_cases atPosition : port = position
  · subst port
    have isAfter : new = after := by
      rw [Card.IsPort, isNext, isPort_setPort lookup] at isNew
      exact (Option.some.inj isNew).symm
    obtain ⟨old, isOld, related⟩ := getElem?_of_forall₂ refreshed lookup
    exact ⟨old, isOld, isAfter ▸ changed old related⟩
  · have kept : ports[port]? = some new := by
      simpa [Card.IsPort, isNext, Ne.symm atPosition] using isNew
    obtain ⟨old, isOld, related⟩ := getElem?_of_forall₂ refreshed kept
    exact ⟨old, isOld, weaken old new related.staysAbsent⟩

theorem Portwise.refl_staysAbsent (card : Card) :
    Portwise PortStaysAbsent card card :=
  portwise_of_refreshed (refreshed_refl _)

/-- A change of the use count and of the flag only. -/
theorem staysAbsent_of_use
    {old fdata after : FeatureDevData}
    (refreshed : RefreshedId old fdata)
    (portNum : after.portNum = fdata.portNum)
    (id : after.id = fdata.id) (dev : after.dev = fdata.dev) :
    PortStaysAbsent old after := by
  have kept := refreshed.staysAbsent
  refine ⟨⟨?_, ?_, ?_⟩, ?_⟩
  · rw [portNum]
    exact kept.portNum
  · rw [id]
    exact kept.id_cases
  · rw [dev, id]
    exact kept.absent
  · rw [dev]
    exact kept.stays

@[simp]
theorem dflFeatureDevUseEnd_portNum (fdata : FeatureDevData) :
    (dflFeatureDevUseEnd fdata).portNum = fdata.portNum := by
  unfold dflFeatureDevUseEnd
  split_ifs <;> rfl

@[simp]
theorem dflFeatureDevUseEnd_id (fdata : FeatureDevData) :
    (dflFeatureDevUseEnd fdata).id = fdata.id := by
  unfold dflFeatureDevUseEnd
  split_ifs <;> rfl

/-- The parts of the card which only SR-IOV configuration writes. -/
structure SameModes (card next : Card) : Prop where
  portOfst : next.portOfst = card.portOfst
  sriov : next.sriov = card.sriov

theorem afuOpen_kept (card : Card) (port : Nat) (excl : Bool) :
    Portwise PortStaysAbsent card (card.afuOpen port excl).2 ∧
      SameModes card (card.afuOpen port excl).2 := by
  unfold Card.afuOpen
  split
  · exact ⟨Portwise.refl_staysAbsent card, rfl, rfl⟩
  · rename_i fdata isPort
    split
    · exact ⟨Portwise.refl_staysAbsent card, rfl, rfl⟩
    · rename_i after begun
      obtain ⟨-, -, rfl⟩ := dflFeatureDevUseBegin_ok begun
      refine ⟨?_, rfl, rfl⟩
      exact portwise_of_set (fun _ _ kept => kept) (refreshed_refl _)
        isPort rfl
        fun old related => staysAbsent_of_use related rfl rfl rfl

theorem afuRelease_kept (card : Card) (file : Nat) :
    Portwise PortStaysAbsent card (card.afuRelease file).2 ∧
      SameModes card (card.afuRelease file).2 := by
  unfold Card.afuRelease
  split
  · exact ⟨Portwise.refl_staysAbsent card, rfl, rfl⟩
  · rename_i openFile isOpen
    split
    · exact ⟨Portwise.refl_staysAbsent card, rfl, rfl⟩
    · rename_i fdata isPort
      refine ⟨?_, rfl, rfl⟩
      exact portwise_of_set (fun _ _ kept => kept) (refreshed_refl _)
        isPort rfl
        fun old related =>
          staysAbsent_of_use related (by simp) (by simp) (by simp)

theorem releasePort_kept
    (card : Card) (portOps : Nat → Bool) (portId : Int) :
    Portwise PortStaysAbsent card (card.releasePort portOps portId).2 ∧
      SameModes card (card.releasePort portOps portId).2 := by
  obtain ⟨ports, refreshed, ⟨ret, failed⟩ | succeeded⟩ :=
    releasePort_effect card portOps portId
  · rw [failed]
    exact ⟨portwise_of_refreshed refreshed, rfl, rfl⟩
  · obtain ⟨position, fdata, -, lookup, used, -, -, -, effect⟩ := succeeded
    rw [effect]
    refine ⟨?_, rfl, rfl⟩
    refine portwise_of_set (fun _ _ kept => kept) refreshed lookup rfl ?_
    intro old related
    have kept := related.staysAbsent
    exact ⟨⟨kept.portNum, kept.id_cases, fun _ => Or.inr used⟩,
      fun _ => rfl⟩

theorem sriovConfigure_kept
    (card : Card) (numVfs : Nat) (enable : Option Errno) :
    (card.sriovConfigure numVfs enable).2.cdev = card.cdev := by
  unfold Card.sriovConfigure
  split_ifs
  · rfl
  · split
    · rfl
    · split <;> rfl

/-- A registration which goes through had every answer it needed. -/
theorem featureDevRegister_registers_iff
    (env : RegisterEnv) (fdata : FeatureDevData) :
    (featureDevRegister env fdata).1 = none ↔ env.registers := by
  unfold featureDevRegister RegisterEnv.registers
  cases env.alloc <;> cases env.addResources <;> cases env.addData <;>
    cases env.add <;> simp

/-- A registration keeps the number and the id of a port. -/
theorem featureDevRegister_keeps
    (env : RegisterEnv) (fdata : FeatureDevData) :
    (featureDevRegister env fdata).2.portNum = fdata.portNum ∧
      (featureDevRegister env fdata).2.id = fdata.id := by
  unfold featureDevRegister FeatureDevData.setDev
  split
  · exact ⟨rfl, rfl⟩
  · split
    · exact ⟨rfl, rfl⟩
    · split
      · exact ⟨rfl, rfl⟩
      · split <;> exact ⟨rfl, rfl⟩

/--
`dfl_fpga_cdev_assign_port` keeps the numbers.  Either it registers no
platform device, or it registers the port it found, which had none.
-/
theorem assignPort_kept
    (card : Card) (portOps : Nat → Bool) (env : RegisterEnv)
    (portId : Int) :
    Portwise PortKept card (card.assignPort portOps env portId).2 ∧
      SameModes card (card.assignPort portOps env portId).2 ∧
      ((Portwise PortStaysAbsent card
            (card.assignPort portOps env portId).2 ∧
          (env.registers →
            ∀ position old, card.findPort portOps portId = some position →
              card.IsPort position old → old.dev ≠ none)) ∨
        ∃ position old after,
          env.registers ∧
          card.findPort portOps portId = some position ∧
          card.IsPort position old ∧
          (card.assignPort portOps env portId).2.IsPort position after ∧
          after.portNum = old.portNum ∧ after.dev ≠ none ∧
          Portwise
            (fun old new => PortStaysAbsent old new ∨ new = after)
            card (card.assignPort portOps env portId).2) := by
  obtain ⟨ports, refreshed, ⟨ret, present, failed⟩ | found⟩ :=
    assignPort_effect card portOps env portId
  · have kept := portwise_of_refreshed refreshed
    rw [failed]
    refine ⟨?_, ⟨rfl, rfl⟩, Or.inl ⟨kept, ?_⟩⟩
    · intro port new isNew
      obtain ⟨old, isOld, stays⟩ := kept port new isNew
      exact ⟨old, isOld, stays.toPortKept⟩
    · intro _ position old isFound isOld
      obtain ⟨fdata, lookup, hasDev⟩ := present position isFound
      obtain ⟨same, isSame, related⟩ := getElem?_of_forall₂ refreshed lookup
      rw [isPort_unique isOld isSame, ← related.agrees.dev]
      exact hasDev
  · obtain ⟨position, fdata, after, isFound, lookup, noDev, outcome⟩ := found
    obtain ⟨old, isOld, related⟩ := getElem?_of_forall₂ refreshed lookup
    have numbers := featureDevRegister_keeps env fdata
    have registers := featureDevRegister_registers_iff env fdata
    rcases outcome with ⟨ret, register, effect⟩ | ⟨register, effect⟩
    · rw [register] at numbers registers
      have agrees := featureDevRegister_fail noDev register
      have kept :
          Portwise PortStaysAbsent card
            (card.withPorts (ports.set position after)) :=
        portwise_of_set (fun _ _ stays => stays) refreshed lookup rfl
          fun old related =>
            staysAbsent_of_use related numbers.1 numbers.2 agrees.dev
      rw [effect]
      refine ⟨?_, ⟨rfl, rfl⟩, Or.inl ⟨kept, ?_⟩⟩
      · intro port new isNew
        obtain ⟨old, isOld, stays⟩ := kept port new isNew
        exact ⟨old, isOld, stays.toPortKept⟩
      · intro succeeds
        have impossible := registers.mpr succeeds
        simp at impossible
    · rw [register] at numbers registers
      obtain ⟨fdev, -, rfl⟩ := featureDevRegister_ok register
      have keptAt (old : FeatureDevData) (related : RefreshedId old fdata) :
          PortKept old (dflFeatureDevUseEnd (fdata.setDev fdev)) := by
        have kept := related.staysAbsent
        refine ⟨?_, ?_, ?_⟩
        · simpa [FeatureDevData.setDev] using kept.portNum
        · simpa [FeatureDevData.setDev] using kept.id_cases
        · simp
      rw [effect]
      refine ⟨?_, ⟨rfl, rfl⟩, Or.inr ?_⟩
      · exact portwise_of_set (fun _ _ stays => stays.toPortKept)
          refreshed lookup rfl keptAt
      · refine ⟨position, old, _, registers.mp rfl, isFound, isOld,
          isPort_setPort lookup _, (keptAt old related).portNum,
          by simp, ?_⟩
        exact portwise_of_set (fun _ _ stays => Or.inl stays)
          refreshed lookup rfl fun _ _ => Or.inr rfl

/-! ## Numbering is an invariant -/

theorem Numbered.transfer
    {card next : Card} (numbered : Numbered card)
    (kept : Portwise PortKept card next) : Numbered next where
  distinct := by
    intro left right leftData rightData isLeft isRight same
    obtain ⟨oldLeft, wasLeft, leftKept⟩ := kept left leftData isLeft
    obtain ⟨oldRight, wasRight, rightKept⟩ := kept right rightData isRight
    exact numbered.distinct left right oldLeft oldRight wasLeft wasRight
      (leftKept.portNum.symm.trans (same.trans rightKept.portNum))
  id_eq := by
    intro port new isNew
    obtain ⟨old, wasOld, portKept⟩ := kept port new isNew
    have oldCases := numbered.id_eq port old wasOld
    rw [portKept.portNum]
    rcases portKept.id_cases with same | ⟨-, read⟩
    · rw [same]
      exact oldCases
    · exact Or.inr read
  id_of_absent := by
    intro port new isNew absent
    obtain ⟨old, wasOld, portKept⟩ := kept port new isNew
    have oldCases := numbered.id_eq port old wasOld
    rw [portKept.portNum]
    rcases portKept.id_cases with same | ⟨-, read⟩
    · rcases portKept.absent absent with wasAbsent | used
      · rw [same]
        exact numbered.id_of_absent port old wasOld wasAbsent
      · rw [same] at used ⊢
        exact oldCases.resolve_left used
    · exact read

theorem Portwise.toPortKept {card next : Card}
    (stays : Portwise PortStaysAbsent card next) :
    Portwise PortKept card next := by
  intro port new isNew
  obtain ⟨old, isOld, kept⟩ := stays port new isNew
  exact ⟨old, isOld, kept.toPortKept⟩

theorem apply_kept (card : Card) (op : Op) :
    Portwise PortKept card (card.apply op).2 := by
  cases op with
  | afuOpen port excl => exact (afuOpen_kept card port excl).1.toPortKept
  | afuRelease file => exact (afuRelease_kept card file).1.toPortKept
  | releasePort portOps portId =>
      exact (releasePort_kept card portOps portId).1.toPortKept
  | assignPort portOps env portId =>
      exact (assignPort_kept card portOps env portId).1
  | sriovConfigure numVfs enable =>
      intro port new isNew
      rw [Card.apply, Card.IsPort, sriovConfigure_kept] at isNew
      exact ⟨new, isNew, rfl, Or.inl rfl, Or.inl⟩

/-! ## What each call does to the access modes -/

/-- Only ports without a platform device are in VF mode, under SR-IOV. -/
def VfAbsent (card : Card) : Prop :=
  ∀ port fdata, card.IsPort port fdata →
    accessMode card.portOfst fdata.portNum = fmePortOfstAccVf →
      fdata.dev = none ∧ card.sriov = true

/-- A call which takes devices away and leaves the modes alone. -/
theorem VfAbsent.transfer
    {card next : Card} (vfAbsent : VfAbsent card)
    (stays : Portwise PortStaysAbsent card next)
    (modes : SameModes card next) : VfAbsent next := by
  intro port new isNew vf
  obtain ⟨old, isOld, kept⟩ := stays port new isNew
  rw [modes.portOfst, kept.portNum] at vf
  obtain ⟨absent, enabled⟩ := vfAbsent port old isOld vf
  exact ⟨kept.stays absent, by rw [modes.sriov]; exact enabled⟩

/-- An absent port is one of those which SR-IOV configuration writes. -/
theorem releasedWithId_of_absent
    {card : Card} (numbered : Numbered card)
    {port : Nat} {fdata : FeatureDevData}
    (isPort : card.IsPort port fdata) (absent : fdata.dev = none) :
    ReleasedWithId card.cdev.portDevList fdata.portNum :=
  ⟨fdata, List.mem_of_getElem? isPort, absent,
    numbered.id_of_absent port fdata isPort absent⟩

/-- The only port which a released id writes is the absent one itself. -/
theorem absent_of_releasedWithId
    {card : Card} (numbered : Numbered card)
    {port : Nat} {fdata : FeatureDevData}
    (isPort : card.IsPort port fdata)
    (written : ReleasedWithId card.cdev.portDevList fdata.portNum) :
    fdata.dev = none := by
  obtain ⟨other, member, absent, isId⟩ := written
  obtain ⟨position, isOther⟩ := List.mem_iff_getElem?.mp member
  have number : other.portNum = fdata.portNum := by
    have := numbered.id_of_absent position other isOther absent
    omega
  have same : position = port :=
    numbered.distinct position port other fdata isOther isPort number
  subst position
  rw [isPort_unique isPort isOther]
  exact absent

/-- After the absent ports are back in PF mode, no port is in VF mode. -/
theorem not_vf_of_configured_pf
    {card : Card} (numbered : Numbered card)
    {portOfst : PortOfst} {port : Nat} {fdata : FeatureDevData}
    (isPort : card.IsPort port fdata)
    (before :
      accessMode portOfst fdata.portNum = fmePortOfstAccVf →
        fdata.dev = none) :
    accessMode (configReleasedPorts false portOfst card.cdev.portDevList)
        fdata.portNum ≠ fmePortOfstAccVf := by
  rw [accessMode_configReleasedPorts]
  split_ifs with written
  · decide
  · intro vf
    exact written (releasedWithId_of_absent numbered isPort (before vf))

/-- Putting the absent ports into VF mode puts no other port into it. -/
theorem absent_of_configured_vf
    {card : Card} (numbered : Numbered card) (vfAbsent : VfAbsent card)
    {port : Nat} {fdata : FeatureDevData}
    (isPort : card.IsPort port fdata)
    (vf :
      accessMode
          (configReleasedPorts true card.portOfst card.cdev.portDevList)
          fdata.portNum = fmePortOfstAccVf) :
    fdata.dev = none := by
  rw [accessMode_configReleasedPorts] at vf
  split_ifs at vf with written
  · exact absent_of_releasedWithId numbered isPort written
  · exact (vfAbsent port fdata isPort vf).1

theorem VfAbsent.sriovConfigure
    {card : Card} (numbered : Numbered card) (vfAbsent : VfAbsent card)
    (numVfs : Nat) (enable : Option Errno) :
    VfAbsent (card.sriovConfigure numVfs enable).2 := by
  unfold Card.sriovConfigure
  split_ifs
  · intro port fdata isPort vf
    refine absurd vf (not_vf_of_configured_pf numbered isPort ?_)
    exact fun wasVf => (vfAbsent port fdata isPort wasVf).1
  · simp only [dflFpgaCdevConfigPortsVf]
    split_ifs
    · exact vfAbsent
    · cases enable with
      | none =>
          intro port fdata isPort vf
          exact ⟨absent_of_configured_vf numbered vfAbsent isPort vf, rfl⟩
      | some ret =>
          intro port fdata isPort vf
          refine absurd vf (not_vf_of_configured_pf numbered isPort ?_)
          exact absent_of_configured_vf numbered vfAbsent isPort

/-- The access mode property is kept by exactly the guarded calls. -/
theorem vfAbsent_apply_iff
    {card : Card} (numbered : Numbered card) (vfAbsent : VfAbsent card)
    (op : Op) :
    VfAbsent (card.apply op).2 ↔ AssignsInPfMode card op := by
  cases op with
  | afuOpen port excl =>
      have kept := afuOpen_kept card port excl
      exact iff_of_true (vfAbsent.transfer kept.1 kept.2) trivial
  | afuRelease file =>
      have kept := afuRelease_kept card file
      exact iff_of_true (vfAbsent.transfer kept.1 kept.2) trivial
  | releasePort portOps portId =>
      have kept := releasePort_kept card portOps portId
      exact iff_of_true (vfAbsent.transfer kept.1 kept.2) trivial
  | sriovConfigure numVfs enable =>
      exact iff_of_true (vfAbsent.sriovConfigure numbered numVfs enable)
        trivial
  | assignPort portOps env portId =>
      obtain ⟨-, modes, ⟨stays, present⟩ | registered⟩ :=
        assignPort_kept card portOps env portId
      · refine iff_of_true (vfAbsent.transfer stays modes) ?_
        intro port fdata isFound isPort succeeds
        refine (accessMode_pf_or_vf _ _).resolve_right fun vf => ?_
        exact present succeeds port fdata isFound isPort
          (vfAbsent port fdata isPort vf).1
      · obtain ⟨position, old, after, succeeds, isFound, isOld, isAfter,
          number, hasDev, others⟩ := registered
        constructor
        · intro nextAbsent port fdata foundPort isPort _
          rw [isFound] at foundPort
          cases foundPort
          rw [isPort_unique isPort isOld, ← number]
          refine (accessMode_pf_or_vf _ _).resolve_right fun vf => ?_
          refine hasDev (nextAbsent position after isAfter ?_).1
          rw [Card.apply, modes.portOfst]
          exact vf
        · intro inPfMode port new isNew vf
          rw [Card.apply, modes.portOfst] at vf
          obtain ⟨was, isWas, stays | isChanged⟩ := others port new isNew
          · rw [stays.portNum] at vf
            obtain ⟨absent, enabled⟩ := vfAbsent port was isWas vf
            refine ⟨stays.stays absent, ?_⟩
            rw [Card.apply, modes.sriov]
            exact enabled
          · have pf := inPfMode position old isFound isOld succeeds
            rw [isChanged, number, pf] at vf
            exact absurd vf (by decide)

/-! ## The statement about every history of calls -/

/-- Access modes follow ownership once platform devices follow releases. -/
theorem accessFollowsOwnership_iff
    {card : Card} (follow : DevicesFollow card) :
    AccessFollowsOwnership card ↔ VfAbsent card := by
  constructor
  · intro follows port fdata isPort vf
    obtain ⟨released, enabled⟩ := follows.vf_released port fdata isPort vf
    exact ⟨(follow port fdata isPort).mpr released,
      enabled⟩
  · intro vfAbsent
    refine ⟨?_, ?_⟩
    · intro port fdata isPort hasDev
      refine (accessMode_pf_or_vf _ _).resolve_right fun vf => ?_
      exact hasDev (vfAbsent port fdata isPort vf).1
    · intro port fdata isPort vf
      obtain ⟨absent, enabled⟩ := vfAbsent port fdata isPort vf
      exact ⟨(follow port fdata isPort).mp absent,
        enabled⟩

/-- Ports are numbered apart and start in the default PF access mode. -/
structure AccessDefault (card : Card) : Prop where
  distinct : DistinctPorts card
  access_pf : ∀ n, accessMode card.portOfst n = fmePortOfstAccPf

theorem Numbered.of_enumerated
    {card : Card} (enumerated : card.Enumerated)
    (default : AccessDefault card) : Numbered card where
  distinct := default.distinct
  id_eq port fdata isPort :=
    Or.inl (enumerated.registered port fdata isPort).2.1
  id_of_absent port fdata isPort absent := by
    have registered := (enumerated.registered port fdata isPort).1
    simp [absent] at registered

theorem accessFollowsOwnership_of_default
    {card : Card} (default : AccessDefault card) :
    AccessFollowsOwnership card where
  registered_pf _ fdata _ _ := default.access_pf fdata.portNum
  vf_released _ fdata _ vf := by
    rw [default.access_pf] at vf
    exact absurd vf (by decide)

/--
Along every history of calls on an enumerated card, the access modes follow
the ownership in every state if and only if no call of the history registers
a port which is in VF mode.
-/
theorem access_follows_ownership_iff
    (card : Card) (enumerated : card.Enumerated)
    (default : AccessDefault card)
    (path : List (Op × Card)) (isPath : IsPath Card.Step card path) :
    Throughout AccessFollowsOwnership card path ↔
      StepsMeet AssignsInPfMode card path := by
  refine throughout_iff_stepsMeet
    (fun state => DevicesFollow state ∧ Numbered state) ?_ ?_ isPath
    ⟨DevicesFollow.of_enumerated enumerated,
      Numbered.of_enumerated enumerated default⟩
    (accessFollowsOwnership_of_default default)
  · rintro source op target ⟨devices, numbered⟩ rfl
    exact ⟨devices.apply op, numbered.transfer (apply_kept source op)⟩
  · rintro source op target ⟨devices, numbered⟩ follows rfl
    rw [accessFollowsOwnership_iff (devices.apply op)]
    exact vfAbsent_apply_iff numbered
      ((accessFollowsOwnership_iff devices).mp follows) op

theorem twoPortCard_accessDefault : AccessDefault twoPortCard where
  distinct := by
    intro left right leftData rightData isLeft isRight same
    rw [Card.IsPort, twoPortCard] at isLeft isRight
    rcases left with _ | _ | left <;> rcases right with _ | _ | right <;>
      simp at isLeft isRight <;> subst isLeft <;> subst isRight <;>
      simp at same ⊢
  access_pf _ := by
    change fmePortOfstAccCtrl.get 0 = fmePortOfstAccPf
    decide

/-- Release port 0, enable SR-IOV with one function, assign port 0 back. -/
def assignUnderSriov : List Op :=
  [.releasePort (fun _ => true) 0, .sriovConfigure 1 none,
    .assignPort (fun _ => true) ⟨some 7, none, none, none⟩ 0]

/-- The port assigned while SR-IOV is enabled is registered in VF mode. -/
theorem access_not_following_assignUnderSriov :
    ¬ Throughout AccessFollowsOwnership twoPortCard
      (pathOf (fun card op => (card.apply op).2)
        twoPortCard assignUnderSriov) := by
  intro follows
  have last :=
    (follows.2 _ (List.getLast_mem (by decide))).registered_pf 0
      ⟨0, some 7, 0, false, 0, [⟨some 7⟩]⟩ (by rfl) (by decide)
  exact absurd last (by decide)

/-- The same calls, with SR-IOV disabled before the assign. -/
theorem access_follows_ownership_assignAfterSriov :
    Throughout AccessFollowsOwnership twoPortCard
      (pathOf (fun card op => (card.apply op).2) twoPortCard
        [.releasePort (fun _ => true) 0, .sriovConfigure 1 none,
          .sriovConfigure 0 none,
          .assignPort (fun _ => true) ⟨some 7, none, none, none⟩ 0]) := by
  refine (access_follows_ownership_iff twoPortCard twoPortCard_enumerated
    twoPortCard_accessDefault _ (isPath_pathOf _ _ _)).mpr ?_
  refine ⟨trivial, trivial, trivial, ?_, trivial⟩
  intro port fdata isFound isPort _
  obtain rfl : 0 = port := Option.some.inj isFound
  obtain rfl : (⟨0, none, 0, true, 1, [⟨none⟩]⟩ : FeatureDevData) = fdata :=
    Option.some.inj isPort
  decide

end LinuxDfl.Port
