import Mathlib.Data.List.Forall2
import LinuxDfl.Lib.Transition
import LinuxDfl.Port.Card

/-!
# Use counts, releases and platform devices stay in step

A port is held by its open files and, while it is released, by the release
itself.  The open count and the exclusive flag of the port represent these
holders.  `OwnershipStep` lists what a call can do to them; every call of the
model refines it, and it keeps the counters in agreement with the holders.
-/

namespace LinuxDfl.Port

open LinuxDfl.Kernel
open LinuxDfl.Lib.SharedExclusive
open LinuxDfl.Lib.Transition

/-! ## Searching a port -/

/-- The same port data, except that its id may have been read meanwhile. -/
def RefreshedId (old new : FeatureDevData) : Prop :=
  ∃ id, new = { old with id := id } ∧
    (id = old.id ∨ (old.id = featureDevIdUnused ∧ id = old.portNum))

theorem dflFpgaCheckPortId_refreshes
    (portOps : Bool) (fdata : FeatureDevData) (portId : Int) :
    RefreshedId fdata (dflFpgaCheckPortId portOps fdata portId).2 := by
  unfold dflFpgaCheckPortId
  split_ifs with unused
  · exact ⟨fdata.id, rfl, Or.inl rfl⟩
  · exact ⟨fdata.portNum, rfl, Or.inr ⟨not_ne_iff.mp unused, rfl⟩⟩
  · exact ⟨fdata.id, rfl, Or.inl rfl⟩

theorem dflFpgaCheckPortId_matches
    {portOps : Bool} {fdata : FeatureDevData} {portId : Int}
    (matched : (dflFpgaCheckPortId portOps fdata portId).1 = true) :
    (dflFpgaCheckPortId portOps fdata portId).2.id = portId ∧
      portId ≠ featureDevIdUnused := by
  unfold dflFpgaCheckPortId at matched ⊢
  split_ifs at matched ⊢ with used known
  · have isId : fdata.id = portId := by simpa using matched
    exact ⟨isId, isId ▸ used⟩
  · have isNum : (fdata.portNum : Int) = portId := by simpa using matched
    refine ⟨isNum, ?_⟩
    rw [← isNum, featureDevIdUnused]
    omega

theorem findPortData_refreshes
    (portOps : Nat → Bool) (portId : Int) (ports : List FeatureDevData) :
    List.Forall₂ RefreshedId ports
      (dflFpgaCdevFindPortData portOps portId ports).2 := by
  induction ports generalizing portOps with
  | nil => exact List.Forall₂.nil
  | cons fdata rest ih =>
      have head :=
        dflFpgaCheckPortId_refreshes (portOps 0) fdata portId
      rw [dflFpgaCdevFindPortData]
      split_ifs
      · refine List.Forall₂.cons head ?_
        exact List.forall₂_same.mpr
          fun same _ => ⟨same.id, rfl, Or.inl rfl⟩
      · exact List.Forall₂.cons head (ih fun n => portOps (n + 1))

/-- The port found carries the id which was asked for. -/
theorem findPortData_matches
    {portOps : Nat → Bool} {portId : Int} {ports : List FeatureDevData}
    {position : Nat}
    (found :
      (dflFpgaCdevFindPortData portOps portId ports).1 = some position) :
    ∃ fdata,
      (dflFpgaCdevFindPortData portOps portId ports).2[position]? =
          some fdata ∧
        fdata.id = portId ∧ portId ≠ featureDevIdUnused := by
  induction ports generalizing portOps position with
  | nil => simp [dflFpgaCdevFindPortData] at found
  | cons fdata rest ih =>
      rw [dflFpgaCdevFindPortData] at found ⊢
      split_ifs at found ⊢ with matched
      · obtain rfl : 0 = position := by simpa using found
        exact ⟨_, rfl, dflFpgaCheckPortId_matches matched⟩
      · obtain ⟨inner, innerFound, rfl⟩ := Option.map_eq_some_iff.mp found
        obtain ⟨target, isTarget, hasId⟩ := ih innerFound
        exact ⟨target, by simpa using isTarget, hasId⟩

/-- Lists related entry by entry agree at every position. -/
theorem getElem?_of_forall₂
    {α : Type*} {relation : α → α → Prop} {left right : List α}
    (related : List.Forall₂ relation left right)
    {position : Nat} {new : α} (isNew : right[position]? = some new) :
    ∃ old, left[position]? = some old ∧ relation old new := by
  induction related generalizing position with
  | nil => simp at isNew
  | cons head _ ih =>
      cases position with
      | zero =>
          simp only [List.getElem?_cons_zero, Option.some.injEq] at isNew
          exact ⟨_, rfl, isNew ▸ head⟩
      | succ position =>
          exact ih (by simpa using isNew)

/-! ## What a call can do to the holders -/

/-- Two views of a port agree on its use and on its platform device. -/
structure PortAgrees (old new : FeatureDevData) : Prop where
  openCount : new.openCount = old.openCount
  exclOpen : new.exclOpen = old.exclOpen
  dev : new.dev = old.dev

theorem RefreshedId.agrees {old new : FeatureDevData}
    (refreshed : RefreshedId old new) : PortAgrees old new := by
  obtain ⟨id, rfl, -⟩ := refreshed
  exact ⟨rfl, rfl, rfl⟩

/-- Every port of the next card, except `position`, agrees with the card's. -/
def OthersAgree (card next : Card) (except : Option Nat) : Prop :=
  ∀ port new, next.IsPort port new → some port ≠ except →
    ∃ old, card.IsPort port old ∧ PortAgrees old new

/-- A call which changes neither holders nor platform devices. -/
structure SameOwnership (card next : Card) : Prop where
  ports : next.cdev.portDevList.length = card.cdev.portDevList.length
  others : OthersAgree card next none
  files : next.files = card.files
  released : next.released = card.released
  releasedPortNum : next.cdev.releasedPortNum = card.cdev.releasedPortNum

/-- What a call can do to the holders of the ports. -/
inductive OwnershipStep (card next : Card) : Prop where
  | same (same : SameOwnership card next)
  | opened (port : Nat) (excl : Bool) (old new : FeatureDevData)
      (before : card.IsPort port old)
      (after : next.IsPort port new)
      (others : OthersAgree card next (some port))
      (notExcl : old.exclOpen = false)
      (alone : excl = true → old.openCount = 0)
      (count : new.openCount = old.openCount + 1)
      (flag : new.exclOpen = (excl || old.exclOpen))
      (dev : new.dev = old.dev)
      (files : next.files = ⟨port, excl⟩ :: card.files)
      (released : next.released = card.released)
      (number : next.cdev.releasedPortNum = card.cdev.releasedPortNum)
  | closed (file : Nat) (openFile : OpenFile) (old new : FeatureDevData)
      (isOpen : card.files[file]? = some openFile)
      (before : card.IsPort openFile.port old)
      (after : next.IsPort openFile.port new)
      (others : OthersAgree card next (some openFile.port))
      (count :
        new.openCount =
          if old.openCount.toInt ≤ 0 then old.openCount
          else old.openCount - 1)
      (flag : new.exclOpen = false)
      (dev : new.dev = old.dev)
      (files : next.files = card.files.eraseIdx file)
      (released : next.released = card.released)
      (number : next.cdev.releasedPortNum = card.cdev.releasedPortNum)
  | released (port : Nat) (old new : FeatureDevData)
      (before : card.IsPort port old)
      (after : next.IsPort port new)
      (others : OthersAgree card next (some port))
      (hasDev : old.dev ≠ none)
      (notExcl : old.exclOpen = false)
      (alone : old.openCount = 0)
      (count : new.openCount = old.openCount + 1)
      (flag : new.exclOpen = true)
      (dev : new.dev = none)
      (files : next.files = card.files)
      (released : next.released = card.released ∪ {port})
      (number : next.cdev.releasedPortNum = card.cdev.releasedPortNum + 1)
  | assigned (port : Nat) (old new : FeatureDevData)
      (before : card.IsPort port old)
      (after : next.IsPort port new)
      (others : OthersAgree card next (some port))
      (noDev : old.dev = none)
      (count :
        new.openCount =
          if old.openCount.toInt ≤ 0 then old.openCount
          else old.openCount - 1)
      (flag : new.exclOpen = false)
      (dev : new.dev ≠ none)
      (files : next.files = card.files)
      (released : next.released = card.released \ {port})
      (number : next.cdev.releasedPortNum = card.cdev.releasedPortNum - 1)

/-! ### The parts of the calls -/

theorem dflFeatureDevUseBegin_ok
    {fdata after : FeatureDevData} {excl : Bool}
    (begun : dflFeatureDevUseBegin fdata excl = (none, after)) :
    fdata.exclOpen = false ∧ (excl = true → fdata.openCount = 0) ∧
      after = { fdata with
        exclOpen := excl || fdata.exclOpen
        openCount := fdata.openCount + 1 } := by
  unfold dflFeatureDevUseBegin at begun
  split_ifs at begun with taken exclusive busy <;>
    simp only [Prod.mk.injEq, reduceCtorEq, false_and, true_and] at begun
  · subst begun
    simp_all
  · subst begun
    simp_all

theorem dflFeatureDevUseEnd_openCount (fdata : FeatureDevData) :
    (dflFeatureDevUseEnd fdata).openCount =
      if fdata.openCount.toInt ≤ 0 then fdata.openCount
      else fdata.openCount - 1 := by
  unfold dflFeatureDevUseEnd
  split_ifs <;> rfl

@[simp]
theorem dflFeatureDevUseEnd_exclOpen (fdata : FeatureDevData) :
    (dflFeatureDevUseEnd fdata).exclOpen = false := by
  unfold dflFeatureDevUseEnd
  split_ifs <;> rfl

@[simp]
theorem dflFeatureDevUseEnd_dev (fdata : FeatureDevData) :
    (dflFeatureDevUseEnd fdata).dev = fdata.dev := by
  unfold dflFeatureDevUseEnd
  split_ifs <;> rfl

@[simp]
theorem setDev_dev (fdata : FeatureDevData) (dev : Option PlatformDevice) :
    (fdata.setDev dev).dev = dev := rfl

@[simp]
theorem setDev_openCount
    (fdata : FeatureDevData) (dev : Option PlatformDevice) :
    (fdata.setDev dev).openCount = fdata.openCount := rfl

@[simp]
theorem setDev_exclOpen
    (fdata : FeatureDevData) (dev : Option PlatformDevice) :
    (fdata.setDev dev).exclOpen = fdata.exclOpen := rfl

/-- A failed registration leaves an unregistered port unregistered. -/
theorem featureDevRegister_fail
    {env : RegisterEnv} {fdata after : FeatureDevData} {ret : Errno}
    (unregistered : fdata.dev = none)
    (failed : featureDevRegister env fdata = (some ret, after)) :
    PortAgrees fdata after := by
  unfold featureDevRegister at failed
  split at failed
  · cases failed
    exact ⟨rfl, rfl, rfl⟩
  · split at failed
    · cases failed
      exact ⟨rfl, rfl, unregistered.symm⟩
    · split at failed
      · cases failed
        exact ⟨rfl, rfl, unregistered.symm⟩
      · split at failed <;> cases failed
        exact ⟨rfl, rfl, unregistered.symm⟩

/-- A successful registration links a platform device and nothing else. -/
theorem featureDevRegister_ok
    {env : RegisterEnv} {fdata after : FeatureDevData}
    (registered : featureDevRegister env fdata = (none, after)) :
    ∃ fdev, env.alloc = some fdev ∧ after = fdata.setDev fdev := by
  unfold featureDevRegister at registered
  split at registered
  · cases registered
  · rename_i fdev allocated
    refine ⟨fdev, allocated, ?_⟩
    split at registered
    · cases registered
    · split at registered
      · cases registered
      · split at registered <;> cases registered
        rfl

/-! ### The calls -/

/-- The port at a position is unique. -/
theorem isPort_unique
    {card : Card} {port : Nat} {left right : FeatureDevData}
    (isLeft : card.IsPort port left) (isRight : card.IsPort port right) :
    left = right :=
  Option.some.inj (isLeft.symm.trans isRight)

/-- A port which is replaced is the new one. -/
theorem isPort_setPort
    {ports : List FeatureDevData} {position : Nat}
    {old : FeatureDevData} (isOld : ports[position]? = some old)
    (new : FeatureDevData) :
    (ports.set position new)[position]? = some new := by
  have inside : position < ports.length :=
    (List.getElem?_eq_some_iff.mp isOld).1
  simp [inside]

theorem others_of_set
    {card next : Card} {ports : List FeatureDevData} {position : Nat}
    {new : FeatureDevData}
    (refreshed :
      List.Forall₂ RefreshedId card.cdev.portDevList ports)
    (isNext : next.cdev.portDevList = ports.set position new) :
    OthersAgree card next (some position) := by
  intro port other isOther different
  have apart : position ≠ port := by
    rintro rfl
    exact different rfl
  have kept : ports[port]? = some other := by
    simpa [Card.IsPort, isNext, apart] using isOther
  obtain ⟨old, isOld, related⟩ := getElem?_of_forall₂ refreshed kept
  exact ⟨old, isOld, related.agrees⟩

theorem others_of_refreshed
    {card next : Card}
    (refreshed :
      List.Forall₂ RefreshedId
        card.cdev.portDevList next.cdev.portDevList) :
    OthersAgree card next none := by
  intro port other isOther _
  obtain ⟨old, isOld, related⟩ := getElem?_of_forall₂ refreshed isOther
  exact ⟨old, isOld, related.agrees⟩

theorem refreshed_refl (ports : List FeatureDevData) :
    List.Forall₂ RefreshedId ports ports :=
  List.forall₂_same.mpr fun same _ => ⟨same.id, rfl, Or.inl rfl⟩

theorem SameOwnership.refl (card : Card) : SameOwnership card card :=
  ⟨rfl, others_of_refreshed (refreshed_refl _), rfl, rfl, rfl⟩

/-- `afu_open` either fails and changes nothing, or adds one holder. -/
theorem afuOpen_cases (card : Card) (port : Nat) (excl : Bool) :
    (∃ ret, card.afuOpen port excl = (some ret, card)) ∨
      ((card.afuOpen port excl).1 = none ∧
        OwnershipStep card (card.afuOpen port excl).2) := by
  unfold Card.afuOpen
  split
  · exact Or.inl ⟨_, rfl⟩
  · rename_i fdata isPort
    split
    · exact Or.inl ⟨_, rfl⟩
    · rename_i after begun
      obtain ⟨notExcl, alone, rfl⟩ := dflFeatureDevUseBegin_ok begun
      refine Or.inr ⟨rfl, ?_⟩
      exact OwnershipStep.opened port excl fdata _ isPort
        (isPort_setPort isPort _)
        (others_of_set (refreshed_refl _) rfl)
        notExcl alone rfl rfl rfl rfl rfl rfl

/-- `afu_release` either fails and changes nothing, or removes one holder. -/
theorem afuRelease_cases (card : Card) (file : Nat) :
    (∃ ret, card.afuRelease file = (some ret, card)) ∨
      ((card.afuRelease file).1 = none ∧
        OwnershipStep card (card.afuRelease file).2) := by
  unfold Card.afuRelease
  split
  · exact Or.inl ⟨_, rfl⟩
  · rename_i openFile isOpen
    split
    · exact Or.inl ⟨_, rfl⟩
    · rename_i fdata isPort
      refine Or.inr ⟨rfl, ?_⟩
      exact OwnershipStep.closed file openFile fdata _ isOpen isPort
        (isPort_setPort isPort _)
        (others_of_set (refreshed_refl _) rfl)
        (dflFeatureDevUseEnd_openCount fdata) (by simp) (by simp)
        rfl rfl rfl

/-- The card with a refreshed list of ports, otherwise unchanged. -/
def Card.withPorts (card : Card) (ports : List FeatureDevData) : Card :=
  { card with cdev := { card.cdev with portDevList := ports } }

/-- Everything `dfl_fpga_cdev_release_port` can do to a card. -/
theorem releasePort_effect
    (card : Card) (portOps : Nat → Bool) (portId : Int) :
    ∃ ports,
      List.Forall₂ RefreshedId card.cdev.portDevList ports ∧
      ((∃ ret,
          card.releasePort portOps portId =
            (some ret, card.withPorts ports)) ∨
        ∃ position fdata,
          card.findPort portOps portId = some position ∧
          ports[position]? = some fdata ∧
          fdata.id ≠ featureDevIdUnused ∧ fdata.dev ≠ none ∧
          fdata.exclOpen = false ∧ fdata.openCount = 0 ∧
          card.releasePort portOps portId =
            (none, { card with
              cdev :=
                { portDevList := ports.set position
                    (featureDevUnregister { fdata with
                      exclOpen := true, openCount := fdata.openCount + 1 })
                  releasedPortNum := card.cdev.releasedPortNum + 1 }
              released := card.released ∪ {position} })) := by
  have refreshed :=
    findPortData_refreshes portOps portId card.cdev.portDevList
  have matching :=
    @findPortData_matches portOps portId card.cdev.portDevList
  unfold Card.releasePort Card.findPort dflFpgaCdevReleasePort
  generalize dflFpgaCdevFindPortData portOps portId
    card.cdev.portDevList = found at *
  obtain ⟨position, ports⟩ := found
  refine ⟨ports, refreshed, ?_⟩
  cases position with
  | none => exact Or.inl ⟨_, rfl⟩
  | some position =>
      obtain ⟨fdata, lookup, isId, used⟩ := matching rfl
      simp only [lookup]
      by_cases absent : fdata.dev.isNone
      · simp only [absent, if_true]
        exact Or.inl ⟨_, rfl⟩
      · simp only [absent]
        cases begin : dflFeatureDevUseBegin fdata true with
        | mk ret after =>
            cases ret with
            | some ret => exact Or.inl ⟨_, rfl⟩
            | none =>
                obtain ⟨notExcl, alone, rfl⟩ :=
                  dflFeatureDevUseBegin_ok begin
                refine Or.inr ⟨position, fdata, rfl, lookup, ?_, ?_,
                  notExcl, alone rfl, ?_⟩
                · rw [isId]
                  exact used
                · simpa using absent
                · simp [DflFpgaCdev.setPort]

/-- Everything `dfl_fpga_cdev_assign_port` can do to a card. -/
theorem assignPort_effect
    (card : Card) (portOps : Nat → Bool) (env : RegisterEnv)
    (portId : Int) :
    ∃ ports,
      List.Forall₂ RefreshedId card.cdev.portDevList ports ∧
      ((∃ ret,
          (∀ position, card.findPort portOps portId = some position →
            ∃ fdata, ports[position]? = some fdata ∧ fdata.dev ≠ none) ∧
          card.assignPort portOps env portId =
            (some ret, card.withPorts ports)) ∨
        ∃ position fdata after,
          card.findPort portOps portId = some position ∧
          ports[position]? = some fdata ∧ fdata.dev = none ∧
          ((∃ ret,
              featureDevRegister env fdata = (some ret, after) ∧
              card.assignPort portOps env portId =
                (some ret, card.withPorts (ports.set position after))) ∨
            featureDevRegister env fdata = (none, after) ∧
            card.assignPort portOps env portId =
              (none, { card with
                cdev :=
                  { portDevList := ports.set position
                      (dflFeatureDevUseEnd after)
                    releasedPortNum := card.cdev.releasedPortNum - 1 }
                released := card.released \ {position} }))) := by
  have refreshed :=
    findPortData_refreshes portOps portId card.cdev.portDevList
  have matching :=
    @findPortData_matches portOps portId card.cdev.portDevList
  unfold Card.assignPort Card.findPort dflFpgaCdevAssignPort
  generalize dflFpgaCdevFindPortData portOps portId
    card.cdev.portDevList = found at *
  obtain ⟨position, ports⟩ := found
  refine ⟨ports, refreshed, ?_⟩
  cases position with
  | none => exact Or.inl ⟨_, by simp, rfl⟩
  | some position =>
      obtain ⟨fdata, lookup, -, -⟩ := matching rfl
      simp only [lookup]
      by_cases present : fdata.dev.isSome
      · simp only [present, if_true]
        refine Or.inl ⟨_, ?_, rfl⟩
        rintro _ ⟨⟩
        exact ⟨fdata, lookup, Option.isSome_iff_ne_none.mp present⟩
      · simp only [present]
        cases register : featureDevRegister env fdata with
        | mk ret after =>
            refine Or.inr ⟨position, fdata, after, rfl, lookup,
              by simpa using present, ?_⟩
            cases ret with
            | some ret => exact Or.inl ⟨ret, register, rfl⟩
            | none =>
                refine Or.inr ⟨register, ?_⟩
                simp [DflFpgaCdev.setPort]

theorem SameOwnership.of_refreshed
    {card : Card} {ports : List FeatureDevData}
    (refreshed : List.Forall₂ RefreshedId card.cdev.portDevList ports) :
    SameOwnership card (card.withPorts ports) :=
  ⟨refreshed.length_eq.symm, others_of_refreshed refreshed, rfl, rfl, rfl⟩

/--
`dfl_fpga_cdev_release_port` either fails and leaves the ownership alone, or
adds the release as the only holder of the port it found.
-/
theorem releasePort_cases
    (card : Card) (portOps : Nat → Bool) (portId : Int) :
    (∃ ret next,
        card.releasePort portOps portId = (some ret, next) ∧
          SameOwnership card next) ∨
      ((card.releasePort portOps portId).1 = none ∧
        OwnershipStep card (card.releasePort portOps portId).2) := by
  obtain ⟨ports, refreshed, ⟨ret, failed⟩ | succeeded⟩ :=
    releasePort_effect card portOps portId
  · exact Or.inl ⟨ret, _, failed, SameOwnership.of_refreshed refreshed⟩
  · obtain ⟨position, fdata, -, lookup, -, hasDev, notExcl, alone,
      effect⟩ := succeeded
    obtain ⟨old, isOld, related⟩ := getElem?_of_forall₂ refreshed lookup
    have agrees := related.agrees
    refine Or.inr ⟨by rw [effect], ?_⟩
    rw [effect]
    exact OwnershipStep.released position old _ isOld
      (isPort_setPort lookup _) (others_of_set refreshed rfl)
      (by rw [← agrees.dev]; exact hasDev)
      (by rw [← agrees.exclOpen]; exact notExcl)
      (by rw [← agrees.openCount]; exact alone)
      (by simp [featureDevUnregister, agrees.openCount])
      (by simp [featureDevUnregister])
      rfl rfl rfl rfl

/--
`dfl_fpga_cdev_assign_port` either fails and leaves the ownership alone, or
ends the release of the port it found.
-/
theorem assignPort_cases
    (card : Card) (portOps : Nat → Bool) (env : RegisterEnv)
    (portId : Int) :
    (∃ ret next,
        card.assignPort portOps env portId = (some ret, next) ∧
          SameOwnership card next) ∨
      ((card.assignPort portOps env portId).1 = none ∧
        OwnershipStep card (card.assignPort portOps env portId).2) := by
  obtain ⟨ports, refreshed, ⟨ret, -, failed⟩ | found⟩ :=
    assignPort_effect card portOps env portId
  · exact Or.inl ⟨ret, _, failed, SameOwnership.of_refreshed refreshed⟩
  · obtain ⟨position, fdata, after, -, lookup, noDev, outcome⟩ := found
    obtain ⟨old, isOld, related⟩ := getElem?_of_forall₂ refreshed lookup
    have agrees := related.agrees
    rcases outcome with ⟨ret, register, effect⟩ | ⟨register, effect⟩
    · have kept := featureDevRegister_fail noDev register
      refine Or.inl ⟨ret, _, effect, ?_, ?_, rfl, rfl, rfl⟩
      · simp [Card.withPorts, refreshed.length_eq]
      · intro port new isNew _
        by_cases atPosition : port = position
        · subst port
          have isAfter : new = after :=
            isPort_unique isNew (isPort_setPort lookup after)
          subst new
          exact ⟨old, isOld,
            kept.openCount.trans agrees.openCount,
            kept.exclOpen.trans agrees.exclOpen,
            kept.dev.trans agrees.dev⟩
        · exact others_of_set refreshed rfl port new isNew
            (by simpa using atPosition)
    · obtain ⟨fdev, -, rfl⟩ := featureDevRegister_ok register
      refine Or.inr ⟨by rw [effect], ?_⟩
      rw [effect]
      exact OwnershipStep.assigned position old _ isOld
        (isPort_setPort lookup _) (others_of_set refreshed rfl)
        (by rw [← agrees.dev]; exact noDev)
        (by
          rw [dflFeatureDevUseEnd_openCount,
            setDev_openCount, agrees.openCount])
        (by simp) (by simp) rfl rfl rfl

/-- `cci_pci_sriov_configure` leaves the ownership alone. -/
theorem sriovConfigure_same
    (card : Card) (numVfs : Nat) (enable : Option Errno) :
    SameOwnership card (card.sriovConfigure numVfs enable).2 := by
  have same (sriov : Bool) (portOfst : PortOfst) :
      SameOwnership card
        { card with sriov := sriov, portOfst := portOfst } :=
    ⟨rfl, others_of_refreshed (refreshed_refl _), rfl, rfl, rfl⟩
  unfold Card.sriovConfigure
  split_ifs
  · exact same _ _
  · split
    · exact SameOwnership.refl card
    · split
      · exact same _ _
      · exact same _ _

/-- Every call of the model is a step of the abstract ownership. -/
theorem apply_ownershipStep (card : Card) (op : Op) :
    OwnershipStep card (card.apply op).2 := by
  cases op with
  | afuOpen port excl =>
      rcases afuOpen_cases card port excl with ⟨ret, failed⟩ | ⟨-, step⟩
      · rw [Card.apply, failed]
        exact OwnershipStep.same (SameOwnership.refl card)
      · exact step
  | afuRelease file =>
      rcases afuRelease_cases card file with ⟨ret, failed⟩ | ⟨-, step⟩
      · rw [Card.apply, failed]
        exact OwnershipStep.same (SameOwnership.refl card)
      · exact step
  | releasePort portOps portId =>
      rcases releasePort_cases card portOps portId with
        ⟨ret, next, failed, same⟩ | ⟨-, step⟩
      · rw [Card.apply, failed]
        exact OwnershipStep.same same
      · exact step
  | assignPort portOps env portId =>
      rcases assignPort_cases card portOps env portId with
        ⟨ret, next, failed, same⟩ | ⟨-, step⟩
      · rw [Card.apply, failed]
        exact OwnershipStep.same same
      · exact step
  | sriovConfigure numVfs enable =>
      exact OwnershipStep.same (sriovConfigure_same card numVfs enable)

/-- A call which fails leaves the ownership alone. -/
theorem sameOwnership_of_fails
    {card : Card} {op : Op} (fails : (card.apply op).1 ≠ none) :
    SameOwnership card (card.apply op).2 := by
  cases op with
  | afuOpen port excl =>
      rcases afuOpen_cases card port excl with
        ⟨ret, failed⟩ | ⟨succeeds, -⟩
      · rw [Card.apply, failed]
        exact SameOwnership.refl card
      · exact absurd succeeds fails
  | afuRelease file =>
      rcases afuRelease_cases card file with
        ⟨ret, failed⟩ | ⟨succeeds, -⟩
      · rw [Card.apply, failed]
        exact SameOwnership.refl card
      · exact absurd succeeds fails
  | releasePort portOps portId =>
      rcases releasePort_cases card portOps portId with
        ⟨ret, next, failed, same⟩ | ⟨succeeds, -⟩
      · rw [Card.apply, failed]
        exact same
      · exact absurd succeeds fails
  | assignPort portOps env portId =>
      rcases assignPort_cases card portOps env portId with
        ⟨ret, next, failed, same⟩ | ⟨succeeds, -⟩
      · rw [Card.apply, failed]
        exact same
      · exact absurd succeeds fails
  | sriovConfigure numVfs enable =>
      exact sriovConfigure_same card numVfs enable

/-! ## Holders under the steps -/

theorem holders_congr
    {card next : Card} (port : Nat)
    (files : next.files = card.files)
    (released : port ∈ next.released ↔ port ∈ card.released) :
    next.holders port = card.holders port := by
  simp only [Card.holders, files, released]

theorem holders_opened
    {card next : Card} {port : Nat} {excl : Bool}
    (files : next.files = ⟨port, excl⟩ :: card.files)
    (released : next.released = card.released) :
    next.holders port = excl ::ₘ card.holders port := by
  simp [Card.holders, files, released, ← Multiset.cons_coe]

theorem holders_opened_other
    {card next : Card} {port other : Nat} {excl : Bool}
    (different : other ≠ port)
    (files : next.files = ⟨port, excl⟩ :: card.files)
    (released : next.released = card.released) :
    next.holders other = card.holders other := by
  simp [Card.holders, files, released, Ne.symm different]

/-- The open files are the closed one together with those which stay. -/
theorem files_perm_of_close
    {files : List OpenFile} {file : Nat} {openFile : OpenFile}
    (isOpen : files[file]? = some openFile) :
    files.Perm (openFile :: files.eraseIdx file) := by
  obtain ⟨inside, rfl⟩ := List.getElem?_eq_some_iff.mp isOpen
  exact (List.getElem_cons_eraseIdx_perm inside).symm

theorem holders_closed
    {card next : Card} {file : Nat} {openFile : OpenFile}
    (isOpen : card.files[file]? = some openFile)
    (files : next.files = card.files.eraseIdx file)
    (released : next.released = card.released) :
    card.holders openFile.port =
      openFile.excl ::ₘ next.holders openFile.port := by
  have perm :=
    ((files_perm_of_close isOpen).filter
      (·.port = openFile.port)).map (·.excl)
  rw [Card.holders, Multiset.coe_eq_coe.mpr perm]
  simp [Card.holders, files, released, ← Multiset.cons_coe]

theorem holders_closed_other
    {card next : Card} {file other : Nat} {openFile : OpenFile}
    (isOpen : card.files[file]? = some openFile)
    (different : other ≠ openFile.port)
    (files : next.files = card.files.eraseIdx file)
    (released : next.released = card.released) :
    card.holders other = next.holders other := by
  have perm :=
    ((files_perm_of_close isOpen).filter
      (·.port = other)).map (·.excl)
  rw [Card.holders, Multiset.coe_eq_coe.mpr perm]
  simp [Card.holders, files, released, Ne.symm different]

theorem holders_released
    {card next : Card} {port : Nat}
    (assigned : port ∉ card.released)
    (files : next.files = card.files)
    (released : next.released = card.released ∪ {port}) :
    next.holders port = true ::ₘ card.holders port := by
  simp [Card.holders, files, released, assigned, ← Multiset.singleton_add,
    Multiset.add_comm]

theorem holders_assigned
    {card next : Card} {port : Nat}
    (wasReleased : port ∈ card.released)
    (files : next.files = card.files)
    (released : next.released = card.released \ {port}) :
    card.holders port = true ::ₘ next.holders port := by
  simp [Card.holders, files, released, wasReleased,
    ← Multiset.singleton_add, Multiset.add_comm]

/-! ## Counts -/

/-- A count which stays below `2 ^ 31` goes up by one. -/
theorem toInt_add_one {count : BitVec 32} (counts : 0 ≤ count.toInt)
    (fits : count.toInt + 1 < 2 ^ 31) :
    (count + 1).toInt = count.toInt + 1 := by
  have before := BitVec.toInt_eq_toNat_cond count
  have after := BitVec.toInt_eq_toNat_cond (count + 1)
  have sum : (count + 1).toNat = (count.toNat + 1) % 2 ^ 32 := by
    rw [BitVec.toNat_add]
    rfl
  have bound := count.isLt
  split_ifs at before after <;> omega

/-- A count of somebody goes down by one. -/
theorem toInt_sub_one {count : BitVec 32} (positive : 0 < count.toInt) :
    (count - 1).toInt = count.toInt - 1 := by
  have before := BitVec.toInt_eq_toNat_cond count
  have after := BitVec.toInt_eq_toNat_cond (count - 1)
  have difference :
      (count - 1).toNat = (2 ^ 32 - 1 + count.toNat) % 2 ^ 32 := by
    rw [BitVec.toNat_sub]
    rfl
  have bound := count.isLt
  split_ifs at before after <;> omega

/-- An `int` can count the holders of every port, and the released ports. -/
structure Countable (card : Card) : Prop where
  holders : ∀ port fdata, card.IsPort port fdata →
    (card.holders port).card < 2 ^ 31
  released : card.released.card < 2 ^ 31

/-! ## Platform devices -/

/-- The ports without a platform device are those which are released. -/
def DevicesFollow (card : Card) : Prop :=
  ∀ port fdata, card.IsPort port fdata →
    (fdata.dev = none ↔ port ∈ card.released)

theorem DevicesFollow.of_enumerated
    {card : Card} (enumerated : card.Enumerated) : DevicesFollow card := by
  intro port fdata isPort
  have dev := (enumerated.registered port fdata isPort).1
  simp [enumerated.no_released.1, ← Option.isSome_iff_ne_none.not_left, dev]

/-- A step which changes one port leaves the devices of the others alone. -/
theorem DevicesFollow.of_change
    {card next : Card} {changed : Nat} {new : FeatureDevData}
    (follow : DevicesFollow card)
    (after : next.IsPort changed new)
    (others : OthersAgree card next (some changed))
    (released :
      ∀ port, port ≠ changed →
        (port ∈ next.released ↔ port ∈ card.released))
    (atChanged : new.dev = none ↔ changed ∈ next.released) :
    DevicesFollow next := by
  intro port fdata isPort
  by_cases same : port = changed
  · subst port
    rw [isPort_unique isPort after]
    exact atChanged
  · obtain ⟨old, isOld, agrees⟩ :=
      others port fdata isPort (by simpa using same)
    rw [agrees.dev, released port same]
    exact follow port old isOld

/-- Every step of the abstract ownership keeps devices and releases in step. -/
theorem DevicesFollow.step
    {card next : Card}
    (follow : DevicesFollow card) (step : OwnershipStep card next) :
    DevicesFollow next := by
  cases step with
  | same same =>
      intro port fdata isPort
      obtain ⟨old, isOld, agrees⟩ := same.others port fdata isPort (by simp)
      rw [agrees.dev, same.released]
      exact follow port old isOld
  | opened port excl old new before after others notExcl alone
      count flag dev files released number =>
      refine follow.of_change after others (fun _ _ => by rw [released]) ?_
      rw [dev, released]
      exact follow port old before
  | closed file openFile old new isOpen before after others
      count flag dev files released number =>
      refine follow.of_change after others (fun _ _ => by rw [released]) ?_
      rw [dev, released]
      exact follow openFile.port old before
  | released port old new before after others hasDev notExcl alone
      count flag dev files released number =>
      refine follow.of_change after others ?_ (by simp [dev, released])
      intro other different
      simp [released, different]
  | assigned port old new before after others noDev
      count flag dev files released number =>
      refine follow.of_change after others ?_ (by simp [dev, released])
      intro other different
      simp [released, different]

theorem DevicesFollow.apply
    {card : Card} (follow : DevicesFollow card) (op : Op) :
    DevicesFollow (card.apply op).2 :=
  follow.step (apply_ownershipStep card op)

/-! ## The invariant -/

/-- The bookkeeping of one port agrees with its holders. -/
structure PortConsistent (card : Card) (port : Nat) (fdata : FeatureDevData) :
    Prop where
  represents :
    Represents fdata.openCount.toInt fdata.exclOpen (card.holders port)
  compatible : Compatible (card.holders port)

/-- The bookkeeping of a card agrees with holders and releases. -/
structure Consistent (card : Card) : Prop where
  ports :
    ∀ port fdata, card.IsPort port fdata → PortConsistent card port fdata
  devices : DevicesFollow card
  number : card.cdev.releasedPortNum.toInt = card.released.card

/-- A holder joins a port which the counter and the flag show to be free. -/
theorem PortConsistent.join
    {card next : Card} {port : Nat} {old new : FeatureDevData} {excl : Bool}
    (consistent : PortConsistent card port old)
    (notExcl : old.exclOpen = false)
    (alone : excl = true → old.openCount = 0)
    (holders : next.holders port = excl ::ₘ card.holders port)
    (countable : (next.holders port).card < 2 ^ 31)
    (count : new.openCount = old.openCount + 1)
    (flag : new.exclOpen = (excl || old.exclOpen)) :
    PortConsistent next port new := by
  have canJoin : CanJoin (card.holders port) excl := by
    refine ⟨?_, fun exclusive => ?_⟩
    · rw [← consistent.represents.flag_iff, notExcl]
      simp
    · refine consistent.represents.count_eq_zero_iff.mp ?_
      rw [alone exclusive]
      rfl
  have counts := consistent.represents.count_eq
  have increments : new.openCount.toInt = old.openCount.toInt + 1 := by
    rw [holders, Multiset.card_cons] at countable
    rw [count]
    exact toInt_add_one (by omega) (by omega)
  constructor
  · rw [increments, flag, holders]
    exact consistent.represents.join canJoin
  · rw [holders]
    exact Compatible.join canJoin

/-- A holder leaves a port, which clears the flag. -/
theorem PortConsistent.leave
    {card next : Card} {port : Nat} {old new : FeatureDevData} {excl : Bool}
    (consistent : PortConsistent card port old)
    (holders : card.holders port = excl ::ₘ next.holders port)
    (count :
      new.openCount =
        if old.openCount.toInt ≤ 0 then old.openCount
        else old.openCount - 1)
    (flag : new.exclOpen = false) :
    PortConsistent next port new := by
  have represents := holders ▸ consistent.represents
  have compatible := holders ▸ consistent.compatible
  have positive : 0 < old.openCount.toInt := represents.count_pos_of_cons
  have decrements : new.openCount.toInt = old.openCount.toInt - 1 := by
    rw [count, if_neg (Int.not_le.mpr positive)]
    exact toInt_sub_one positive
  refine ⟨?_, compatible.leave⟩
  rw [decrements, flag]
  exact represents.leave compatible

/-- Consistency of a port is about its use and its holders only. -/
theorem PortConsistent.transfer
    {card next : Card} {port : Nat} {old new : FeatureDevData}
    (consistent : PortConsistent card port old)
    (agrees : PortAgrees old new)
    (holders : next.holders port = card.holders port) :
    PortConsistent next port new where
  represents := by
    rw [agrees.openCount, agrees.exclOpen, holders]
    exact consistent.represents
  compatible := by
    rw [holders]
    exact consistent.compatible

theorem Consistent.of_enumerated
    {card : Card} (enumerated : card.Enumerated) : Consistent card where
  ports := by
    intro port fdata isPort
    obtain ⟨-, -, exclOpen, openCount⟩ :=
      enumerated.registered port fdata isPort
    have noHolders : card.holders port = 0 := by
      simp [Card.holders, enumerated.no_files, enumerated.no_released.1]
    constructor
    · rw [openCount, exclOpen, noHolders]
      exact represents_zero
    · rw [noHolders]
      exact compatible_zero
  devices := .of_enumerated enumerated
  number := by
    rw [enumerated.no_released.2, enumerated.no_released.1]
    rfl

/--
A step which changes one port keeps the others consistent, provided their
holders are not touched.
-/
theorem Consistent.ports_of_change
    {card next : Card} {changed : Nat} {new : FeatureDevData}
    (consistent : Consistent card)
    (after : next.IsPort changed new)
    (others : OthersAgree card next (some changed))
    (holders :
      ∀ port, port ≠ changed → next.holders port = card.holders port)
    (atChanged : PortConsistent next changed new) :
    ∀ port fdata, next.IsPort port fdata →
      PortConsistent next port fdata := by
  intro port fdata isPort
  by_cases same : port = changed
  · subst port
    rw [isPort_unique isPort after]
    exact atChanged
  · obtain ⟨old, isOld, agrees⟩ :=
      others port fdata isPort (by simpa using same)
    exact (consistent.ports port old isOld).transfer agrees
      (holders port same)

/--
Every step of the abstract ownership keeps the bookkeeping consistent, as long
as the holders can be counted.
-/
theorem Consistent.step
    {card next : Card} (countable : Countable next)
    (consistent : Consistent card) (step : OwnershipStep card next) :
    Consistent next := by
  have devices := consistent.devices.step step
  cases step with
  | same same =>
      refine ⟨?_, devices, ?_⟩
      · intro port fdata isPort
        obtain ⟨old, isOld, agrees⟩ :=
          same.others port fdata isPort (by simp)
        exact (consistent.ports port old isOld).transfer agrees
          (holders_congr port same.files (by rw [same.released]))
      · rw [same.releasedPortNum, same.released]
        exact consistent.number
  | opened port excl old new before after others notExcl alone
      count flag dev files released number =>
      have joined : next.holders port = excl ::ₘ card.holders port :=
        holders_opened files released
      have atNew :=
        (consistent.ports port old before).join notExcl alone joined
          (countable.holders port new after) count flag
      refine ⟨consistent.ports_of_change after others ?_ atNew, devices, ?_⟩
      · intro other different
        exact holders_opened_other different files released
      · rw [number, released]
        exact consistent.number
  | closed file openFile old new isOpen before after others
      count flag dev files released number =>
      have left := holders_closed isOpen files released
      have atNew :=
        (consistent.ports openFile.port old before).leave left count flag
      refine ⟨consistent.ports_of_change after others ?_ atNew, devices, ?_⟩
      · intro other different
        exact (holders_closed_other isOpen different files released).symm
      · rw [number, released]
        exact consistent.number
  | released port old new before after others hasDev notExcl alone
      count flag dev files released number =>
      have assigned : port ∉ card.released :=
        fun member => hasDev ((consistent.devices port old before).mpr member)
      have joined : next.holders port = true ::ₘ card.holders port :=
        holders_released assigned files released
      have atNew :=
        (consistent.ports port old before).join notExcl (fun _ => alone)
          joined (countable.holders port new after) count (by simp [flag])
      refine ⟨consistent.ports_of_change after others ?_ atNew, devices, ?_⟩
      · intro other different
        exact holders_congr other files (by simp [released, different])
      · have more : next.released.card = card.released.card + 1 := by
          rw [released, Finset.card_union_of_disjoint
            (Finset.disjoint_singleton_right.mpr assigned),
            Finset.card_singleton]
        have counts := consistent.number
        have fits := countable.released
        rw [number, toInt_add_one (by omega) (by omega), counts, more]
        rfl
  | assigned port old new before after others noDev
      count flag dev files released number =>
      have wasReleased : port ∈ card.released :=
        (consistent.devices port old before).mp noDev
      have left := holders_assigned wasReleased files released
      have atNew := (consistent.ports port old before).leave left count flag
      refine ⟨consistent.ports_of_change after others ?_ atNew, devices, ?_⟩
      · intro other different
        exact holders_congr other files (by simp [released, different])
      · have fewer :
            (card.released \ {port}).card + 1 = card.released.card := by
          rw [Finset.sdiff_singleton_eq_erase]
          exact Finset.card_erase_add_one wasReleased
        have counts := consistent.number
        rw [number, released, toInt_sub_one (by omega)]
        omega

theorem Consistent.apply
    {card : Card} (consistent : Consistent card) (op : Op)
    (countable : Countable (card.apply op).2) :
    Consistent (card.apply op).2 :=
  consistent.step countable (apply_ownershipStep card op)

/-! ## The statement about every history of calls -/

/-- What is observed of a card: counters, flags, devices and their holders. -/
structure HoldersRespected (card : Card) : Prop where
  openCount :
    ∀ port fdata, card.IsPort port fdata →
      fdata.openCount.toInt = (card.holders port).card
  exclOpen :
    ∀ port fdata, card.IsPort port fdata →
      fdata.exclOpen = true → card.holders port = {true}
  absent :
    ∀ port fdata, card.IsPort port fdata →
      (fdata.dev = none ↔ port ∈ card.released)
  releasedPortNum : card.cdev.releasedPortNum.toInt = card.released.card

theorem Consistent.holdersRespected
    {card : Card} (consistent : Consistent card) : HoldersRespected card where
  openCount port fdata isPort :=
    (consistent.ports port fdata isPort).represents.count_eq
  exclOpen port fdata isPort exclusive :=
    (consistent.ports port fdata isPort).compatible
      ((consistent.ports port fdata isPort).represents.flag_iff.mp exclusive)
  absent := consistent.devices
  releasedPortNum := consistent.number

theorem HoldersRespected.countable {card : Card}
    (respected : HoldersRespected card) : Countable card where
  holders port fdata isPort := by
    have counts := respected.openCount port fdata isPort
    have bound := BitVec.toInt_lt (x := fdata.openCount)
    omega
  released := by
    have counts := respected.releasedPortNum
    have bound := BitVec.toInt_lt (x := card.cdev.releasedPortNum)
    omega

/--
Along every sequence of calls from an enumerated card, the open counts,
exclusive flags, platform devices and the number of released ports are those
of the ports' holders, and no failing call changes any of them, exactly as
long as an `int` can count the holders of each port and the released ports.
-/
theorem holders_respected_throughout
    (card : Card) (enumerated : card.Enumerated)
    (path : List (Op × Card)) (isPath : IsPath Card.Step card path) :
    Throughout
        (fun state =>
          HoldersRespected state ∧
            ∀ op, (state.apply op).1 ≠ none →
              SameOwnership state (state.apply op).2)
        card path ↔
      Throughout Countable card path := by
  constructor
  · exact Throughout.mono fun state holds => holds.1.countable
  · intro countable
    have consistent : Throughout Consistent card path := by
      refine throughout_of_limit ?_ isPath countable
        (Consistent.of_enumerated enumerated)
      intro source op target holds fits step
      have isNext : (source.apply op).2 = target := step
      rw [← isNext] at fits ⊢
      exact holds.apply op fits
    exact consistent.mono fun state holds =>
      ⟨holds.holdersRespected, fun op fails => sameOwnership_of_fails fails⟩

/-- So few files and releases that the holders can be counted. -/
theorem countable_of_few {card : Card}
    (few : card.files.length + 1 < 2 ^ 31 ∧ card.released.card < 2 ^ 31) :
    Countable card where
  holders port fdata isPort := by
    have fewer := List.length_filter_le (·.port = port) card.files
    simp only [Card.holders, Multiset.card_add, Multiset.coe_card,
      List.length_map]
    split_ifs
    · rw [Multiset.card_singleton]
      omega
    · rw [Multiset.card_zero]
      omega
  released := few.2

/--
On the two-port card: an exclusive open, a release refused by it, the close,
the release, a shared open refused by it, and the assign.
-/
theorem holders_respected_throughout_twoPortCard :
    Throughout
      (fun state =>
        HoldersRespected state ∧
          ∀ op, (state.apply op).1 ≠ none →
            SameOwnership state (state.apply op).2)
      twoPortCard
      (pathOf (fun card op => (card.apply op).2) twoPortCard
        [.afuOpen 1 true, .releasePort (fun _ => true) 1, .afuRelease 0,
          .releasePort (fun _ => true) 1, .afuOpen 1 false,
          .assignPort (fun _ => true) ⟨some 7, none, none, none⟩ 1]) := by
  refine (holders_respected_throughout twoPortCard twoPortCard_enumerated _
    (isPath_pathOf _ _ _)).mpr ⟨countable_of_few (by decide), ?_⟩
  intro entry member
  exact countable_of_few (by revert entry; decide)

/-! ## More holders than an `int` counts -/

/-- The two-port card when its port 0 is open in so many files. -/
def crowdedCard (users : Nat) : Card :=
  { twoPortCard with
    cdev :=
      { twoPortCard.cdev with
        portDevList :=
          [⟨0, some 0, featureDevIdUnused, false, BitVec.ofNat 32 users,
              [⟨some 0⟩]⟩,
            ⟨1, some 1, featureDevIdUnused, false, 0, [⟨some 1⟩]⟩] }
    files := List.replicate users ⟨0, false⟩ }

/-- Another user may always open the port. -/
theorem apply_crowdedCard (users : Nat) :
    ((crowdedCard users).apply (.afuOpen 0 false)).2 =
      crowdedCard (users + 1) := by
  rw [crowdedCard, crowdedCard, BitVec.ofNat_add]
  rfl

theorem respected_of_throughout_opens {users more : Nat}
    (respected :
      Throughout HoldersRespected (crowdedCard users)
        (pathOf (fun card op => (card.apply op).2) (crowdedCard users)
          (List.replicate more (.afuOpen 0 false)))) :
    HoldersRespected (crowdedCard (users + more)) := by
  induction more generalizing users with
  | zero => exact respected.1
  | succ more ih =>
      rw [List.replicate_succ, pathOf, throughout_cons,
        apply_crowdedCard] at respected
      have later : users + (more + 1) = users + 1 + more := by omega
      rw [later]
      exact ih respected.2

theorem crowdedCard_zero : crowdedCard 0 = twoPortCard := rfl

theorem holders_crowdedCard (users : Nat) :
    (crowdedCard users).holders 0 = Multiset.replicate users false := by
  simp [Card.holders, crowdedCard, twoPortCard, Multiset.coe_replicate]

/-- With so many open files, the open count of the port is another number. -/
theorem not_respected_of_opens {users : Nat} (many : 2 ^ 31 ≤ users) :
    ∃ path, IsPath Card.Step twoPortCard path ∧
      ¬ Throughout HoldersRespected twoPortCard path := by
  refine ⟨pathOf (fun card op => (card.apply op).2) twoPortCard
    (List.replicate users (.afuOpen 0 false)), isPath_pathOf _ _ _, ?_⟩
  intro throughout
  rw [← crowdedCard_zero] at throughout
  have respected := respected_of_throughout_opens throughout
  rw [Nat.zero_add] at respected
  have counted := respected.countable.holders 0 _ rfl
  rw [holders_crowdedCard, Multiset.card_replicate] at counted
  omega

/-- A port which is open in `2 ^ 31` files. -/
theorem holders_not_respected_when_crowded :
    twoPortCard.Enumerated ∧
      ∃ path, IsPath Card.Step twoPortCard path ∧
        ¬ Throughout HoldersRespected twoPortCard path :=
  ⟨twoPortCard_enumerated, not_respected_of_opens (Nat.le_refl (2 ^ 31))⟩

end LinuxDfl.Port
