import Mathlib.Data.List.Induction
import LinuxDfl.Dfl.Container
import LinuxDfl.Lib.Balance

/-!
# References to feature devices

Platform devices are numbered in the order in which an enumeration registers
them.  A registration holds a reference to its device; the container device
holds another to the FME.
-/

namespace LinuxDfl.Dfl

open LinuxDfl.Kernel
open LinuxDfl.Lib.Traced
open LinuxDfl.Lib.Balance

/-! ## References -/

/-- A reference to a platform device. -/
inductive Reference where
  /-- The one of its registration. -/
  | registered (device : Nat)
  /-- The one of `cdev->fme_dev`. -/
  | fmeDev (device : Nat)
  deriving DecidableEq, Repr

/-- The platform devices of a container device. -/
structure References where
  /-- How many have been registered so far. -/
  devices : Nat
  /-- The children of the region. -/
  children : List Nat
  fmeDev : Option Nat
  uses : List (Reference × Use)

/-- A reference is dropped. -/
def References.put (refs : References) (reference : Reference) : References :=
  { refs with uses := refs.uses ++ [(reference, .give)] }

/-- `feature_dev_register` -/
def References.register (refs : References) : References :=
  { refs with
    devices := refs.devices + 1
    children := refs.children ++ [refs.devices]
    uses := refs.uses ++ [(.registered refs.devices, .take)] }

/-- `get_device` of the device which was registered last -/
def References.getFmeDev (refs : References) : References :=
  { refs with
    fmeDev := some (refs.devices - 1)
    uses := refs.uses ++ [(.fmeDev (refs.devices - 1), .take)] }

/-- `build_info_commit_dev` takes references. -/
def References.commit (refs : References) (type : DflIdType) : References :=
  match type with
  | .port => refs.register
  | .privFeat => refs.register
  | _ => refs.register.getFmeDev

/-- What an event does to the references. -/
def References.record (refs : References) : Event → References
  | .committed fdata => refs.commit fdata.type
  | _ => refs

/-- The references of which these events tell. -/
def referencesOf (events : List Event) : References :=
  events.foldl References.record ⟨0, [], none, []⟩

@[simp]
theorem referencesOf_append_singleton (past : List Event) (event : Event) :
    referencesOf (past ++ [event]) = (referencesOf past).record event := by
  rw [referencesOf, List.foldl_append]
  rfl

/-- `remove_feature_devs` -/
def removeFeatureDevs (refs : References) : References :=
  { refs with
    children := []
    uses := refs.uses ++
      refs.children.map fun device => (.registered device, .give) }

/-- `dfl_fpga_feature_devs_remove` -/
def dflFpgaFeatureDevsRemove (refs : References) : References :=
  removeFeatureDevs
    (match refs.fmeDev with
    | some device => refs.put (.fmeDev device)
    | none => refs)

/--
The references of an enumeration, which ends with its own error path or, if it
succeeds, is undone by `dfl_fpga_feature_devs_remove`.
-/
def lifetime (run : Run Event Failure Enumeration Unit) : References :=
  match run.result with
  | .ok () => dflFpgaFeatureDevsRemove (referencesOf run.events)
  | .error _ => removeFeatureDevs (referencesOf run.events)

/-- References to an FME which are taken are dropped, once each. -/
def DroppedOnce (refs : References) : Prop :=
  ∀ device, (.fmeDev device, .take) ∈ refs.uses →
    Once (usesOf (.fmeDev device) refs.uses)

/-- A device for which `build_info_commit_dev` takes a reference. -/
def DflFeatureDevData.IsFme (fdata : DflFeatureDevData) : Prop :=
  fdata.type ≠ .port ∧ fdata.type ≠ .privFeat

/-- An FME is committed only while the container device has none. -/
def FmeIsFirst (events : List Event) : Prop :=
  ∀ past fdata, past ++ [.committed fdata] <+: events → fdata.IsFme →
    (cdevOf past).fmeDev = none

/-! ## What has been taken -/

/-- Every device which has been registered is a child of the region. -/
structure Registered (refs : References) : Prop where
  children : refs.children = List.range refs.devices
  uses : ∀ device, usesOf (.registered device) refs.uses =
    if device < refs.devices then [.take] else []

/-- References to an FME are taken once at most. -/
structure Taken (refs : References) : Prop where
  uses : ∀ device, usesOf (.fmeDev device) refs.uses = [] ∨
    device < refs.devices ∧ usesOf (.fmeDev device) refs.uses = [.take]
  fmeDev : ∀ device, refs.fmeDev = some device →
    usesOf (.fmeDev device) refs.uses = [.take]

/-- The container device has every FME to which a reference has been taken. -/
def HasAll (refs : References) : Prop :=
  ∀ device, usesOf (.fmeDev device) refs.uses = [.take] →
    refs.fmeDev = some device

section Steps

variable {refs : References}

theorem usesOf_register (refs : References) (reference : Reference) :
    usesOf reference refs.register.uses =
      usesOf reference refs.uses ++
        if .registered refs.devices = reference then [.take] else [] := by
  rw [References.register, usesOf_append, usesOf_singleton]

theorem usesOf_getFmeDev (refs : References) (reference : Reference) :
    usesOf reference refs.register.getFmeDev.uses =
      usesOf reference refs.register.uses ++
        if .fmeDev refs.devices = reference then [.take] else [] := by
  rw [References.getFmeDev, usesOf_append, usesOf_singleton]
  rfl

theorem ite_lt_succ (device count : Nat) (use : Use) :
    ((if device < count then [use] else []) ++
      if count = device then [use] else []) =
        if device < count + 1 then [use] else [] := by
  rcases Nat.lt_trichotomy device count with below | rfl | above
  · rw [if_pos below, if_neg below.ne', if_pos (Nat.lt_succ_of_lt below)]
    rfl
  · rw [if_neg (Nat.lt_irrefl _), if_pos rfl, if_pos (Nat.lt_succ_self _)]
    rfl
  · rw [if_neg (Nat.lt_asymm above), if_neg above.ne, if_neg (by omega)]
    rfl

theorem Registered.register (holds : Registered refs) :
    Registered refs.register where
  children := by
    rw [References.register, List.range_succ, holds.children]
  uses device := by
    rw [usesOf_register, holds.uses]
    simp only [Reference.registered.injEq]
    exact ite_lt_succ _ _ _

theorem Registered.getFmeDev (holds : Registered refs.register) :
    Registered refs.register.getFmeDev where
  children := holds.children
  uses device := by
    rw [usesOf_getFmeDev, if_neg Reference.noConfusion, List.append_nil]
    exact holds.uses device

/-- A device which has not been registered has no references. -/
theorem Taken.fresh (taken : Taken refs) :
    usesOf (.fmeDev refs.devices) refs.uses = [] := by
  rcases taken.uses refs.devices with none | ⟨below, -⟩
  · exact none
  · exact absurd below (Nat.lt_irrefl _)

theorem Taken.fmeDev_lt (taken : Taken refs) {device : Nat}
    (pointer : refs.fmeDev = some device) : device < refs.devices := by
  rcases taken.uses device with none | ⟨below, -⟩
  · rw [taken.fmeDev device pointer] at none
    cases none
  · exact below

theorem usesOf_fmeDev_register (device : Nat) :
    usesOf (.fmeDev device) refs.register.uses =
      usesOf (.fmeDev device) refs.uses := by
  rw [usesOf_register, if_neg Reference.noConfusion, List.append_nil]

theorem Taken.register (taken : Taken refs) : Taken refs.register where
  uses device := by
    rw [usesOf_fmeDev_register]
    exact (taken.uses device).imp_right fun ⟨below, once⟩ =>
      ⟨Nat.lt_succ_of_lt below, once⟩
  fmeDev device pointer := by
    rw [usesOf_fmeDev_register]
    exact taken.fmeDev device pointer

/-- The reference which is taken is the only new one. -/
theorem Taken.usesOf_getFmeDev (taken : Taken refs) (device : Nat) :
    usesOf (.fmeDev device) refs.register.getFmeDev.uses =
      if device = refs.devices then [.take]
      else usesOf (.fmeDev device) refs.uses := by
  rw [LinuxDfl.Dfl.usesOf_getFmeDev, usesOf_fmeDev_register]
  by_cases same : device = refs.devices
  · rw [same, if_pos rfl, if_pos rfl, taken.fresh, List.nil_append]
  · rw [if_neg same, if_neg fun other =>
      same (Reference.fmeDev.inj other).symm, List.append_nil]

theorem Taken.getFmeDev (taken : Taken refs) :
    Taken refs.register.getFmeDev where
  uses device := by
    rw [taken.usesOf_getFmeDev]
    by_cases same : device = refs.devices
    · rw [if_pos same, same]
      exact .inr ⟨Nat.lt_succ_self _, rfl⟩
    · rw [if_neg same]
      exact (taken.uses device).imp_right fun ⟨below, once⟩ =>
        ⟨Nat.lt_succ_of_lt below, once⟩
  fmeDev device pointer := by
    have same : refs.devices = device := Option.some.inj pointer
    rw [taken.usesOf_getFmeDev, if_pos same.symm]

theorem hasAll_register : HasAll refs.register ↔ HasAll refs := by
  refine forall_congr' fun device => ?_
  rw [usesOf_fmeDev_register]
  exact Iff.rfl

/-- Another FME is forgotten when the container device gets this one. -/
theorem Taken.hasAll_getFmeDev (taken : Taken refs) :
    HasAll refs.register.getFmeDev ↔ refs.fmeDev = none ∧ HasAll refs := by
  have other {device : Nat}
      (once : usesOf (.fmeDev device) refs.uses = [.take]) :
      device ≠ refs.devices := by
    rintro rfl
    rw [taken.fresh] at once
    cases once
  constructor
  · intro all
    have none {device : Nat} :
        usesOf (.fmeDev device) refs.uses ≠ [.take] := by
      intro once
      have pointer := all device (by
        rw [taken.usesOf_getFmeDev, if_neg (other once)]
        exact once)
      exact other once (Option.some.inj pointer).symm
    refine ⟨?_, fun device once => absurd once none⟩
    cases pointer : refs.fmeDev with
    | none => rfl
    | some device => exact absurd (taken.fmeDev device pointer) none
  · intro ⟨empty, all⟩ device once
    rw [taken.usesOf_getFmeDev] at once
    by_cases same : device = refs.devices
    · exact congrArg some same.symm
    · rw [if_neg same] at once
      exact absurd (empty.symm.trans (all device once)) nofun

end Steps

/-! ## Traces -/

section Traces

theorem commit_fme {fdata : DflFeatureDevData} (isFme : fdata.IsFme)
    (refs : References) :
    refs.commit fdata.type = refs.register.getFmeDev := by
  cases type : fdata.type with
  | port => exact absurd type isFme.1
  | privFeat => exact absurd type isFme.2
  | fme => rfl
  | max => rfl

theorem type_of_not_isFme {fdata : DflFeatureDevData}
    (other : ¬ fdata.IsFme) : fdata.type = .port ∨ fdata.type = .privFeat := by
  by_contra neither
  exact other (not_or.mp neither)

theorem commit_other {fdata : DflFeatureDevData} (other : ¬ fdata.IsFme)
    (refs : References) : refs.commit fdata.type = refs.register := by
  rcases type_of_not_isFme other with port | privFeat
  · rw [port]
    rfl
  · rw [privFeat]
    rfl

theorem add_fme {fdata : DflFeatureDevData} (isFme : fdata.IsFme)
    (cdev : DflFpgaCdev) : (cdev.add fdata.type fdata).fmeDev = some fdata := by
  cases type : fdata.type with
  | port => exact absurd type isFme.1
  | privFeat => exact absurd type isFme.2
  | fme => rfl
  | max => rfl

theorem add_other {fdata : DflFeatureDevData} (other : ¬ fdata.IsFme)
    (cdev : DflFpgaCdev) :
    (cdev.add fdata.type fdata).fmeDev = cdev.fmeDev := by
  rcases type_of_not_isFme other with port | privFeat
  · rw [port]
    rfl
  · rw [privFeat]
    rfl

/-- The data of the devices, in the order of their numbers. -/
def committedOf (events : List Event) : List DflFeatureDevData :=
  events.filterMap fun
    | .committed fdata => some fdata
    | _ => none

theorem committedOf_append_committed (past : List Event)
    (fdata : DflFeatureDevData) :
    committedOf (past ++ [.committed fdata]) = committedOf past ++ [fdata] :=
  List.filterMap_append

theorem committedOf_append_other {event : Event}
    (other : ∀ fdata, event ≠ .committed fdata) (past : List Event) :
    committedOf (past ++ [event]) = committedOf past := by
  rw [committedOf, List.filterMap_append]
  cases event with
  | committed fdata => exact absurd rfl (other fdata)
  | _ => exact List.append_nil _

/-- What registering a device and taking a reference to it keep. -/
theorem referencesOf_induction (kept : References → Prop)
    (initial : kept ⟨0, [], none, []⟩)
    (register : ∀ refs, kept refs → kept refs.register)
    (getFmeDev : ∀ refs, kept refs → kept refs.register.getFmeDev)
    (events : List Event) : kept (referencesOf events) := by
  induction events using List.reverseRecOn with
  | nil => exact initial
  | append_singleton past event ih =>
      rw [referencesOf_append_singleton]
      cases event with
      | committed fdata =>
          by_cases isFme : fdata.IsFme
          · rw [References.record, commit_fme isFme]
            exact getFmeDev _ ih
          · rw [References.record, commit_other isFme]
            exact register _ ih
      | _ => exact ih

theorem referencesOf_registered (events : List Event) :
    Registered (referencesOf events) :=
  referencesOf_induction Registered ⟨rfl, fun _ => rfl⟩
    (fun _ => Registered.register)
    (fun _ holds => holds.register.getFmeDev) events

theorem referencesOf_taken (events : List Event) :
    Taken (referencesOf events) :=
  referencesOf_induction Taken ⟨fun _ => .inl rfl, nofun⟩
    (fun _ => Taken.register) (fun _ => Taken.getFmeDev) events

theorem fmeIsFirst_append_committed (past : List Event)
    (fdata : DflFeatureDevData) :
    FmeIsFirst (past ++ [.committed fdata]) ↔
      (fdata.IsFme → (cdevOf past).fmeDev = none) ∧ FmeIsFirst past := by
  constructor
  · intro first
    exact ⟨first past fdata (List.prefix_refl _), fun earlier other isPrefix =>
      first earlier other (isPrefix.trans (List.prefix_append _ _))⟩
  · intro ⟨here, first⟩ earlier other isPrefix
    rcases List.prefix_concat_iff.mp isPrefix with same | before
    · obtain ⟨rfl, last⟩ := List.append_inj' same rfl
      cases last
      exact here
    · exact first earlier other before

theorem fmeIsFirst_append_other {event : Event}
    (other : ∀ fdata, event ≠ .committed fdata) (past : List Event) :
    FmeIsFirst (past ++ [event]) ↔ FmeIsFirst past := by
  constructor
  · intro first earlier fdata isPrefix
    exact first earlier fdata (isPrefix.trans (List.prefix_append _ _))
  · intro first earlier fdata isPrefix
    rcases List.prefix_concat_iff.mp isPrefix with same | before
    · obtain ⟨-, last⟩ := List.append_inj' same rfl
      cases last
      exact absurd rfl (other fdata)
    · exact first earlier fdata before

/-- The numbered FME is the one of the container device. -/
theorem referencesOf_fmeDev (events : List Event) :
    (referencesOf events).devices = (committedOf events).length ∧
      (referencesOf events).fmeDev.bind
          (fun device => (committedOf events)[device]?) =
        (cdevOf events).fmeDev := by
  induction events using List.reverseRecOn with
  | nil => exact ⟨rfl, rfl⟩
  | append_singleton past event ih =>
      obtain ⟨count, data⟩ := ih
      rw [referencesOf_append_singleton, cdevOf_append_singleton]
      cases event with
      | committed fdata =>
          rw [committedOf_append_committed, List.length_append]
          by_cases isFme : fdata.IsFme
          · rw [References.record, commit_fme isFme]
            refine ⟨congrArg (· + 1) count, ?_⟩
            change (committedOf past ++ [fdata])[(referencesOf past).devices]? =
              ((cdevOf past).add fdata.type fdata).fmeDev
            rw [count, List.getElem?_concat_length, add_fme isFme]
          · rw [References.record, commit_other isFme]
            refine ⟨congrArg (· + 1) count, ?_⟩
            change (referencesOf past).fmeDev.bind _ =
              ((cdevOf past).add fdata.type fdata).fmeDev
            rw [add_other isFme, ← data]
            cases pointer : (referencesOf past).fmeDev with
            | none => rfl
            | some device =>
                have below := (referencesOf_taken past).fmeDev_lt pointer
                exact List.getElem?_append_left (count ▸ below)
      | _ =>
          rw [committedOf_append_other fun _ => Event.noConfusion]
          exact ⟨count, data⟩

theorem fmeDev_eq_none_iff (events : List Event) :
    (referencesOf events).fmeDev = none ↔ (cdevOf events).fmeDev = none := by
  obtain ⟨count, data⟩ := referencesOf_fmeDev events
  rw [← data]
  cases pointer : (referencesOf events).fmeDev with
  | none => exact iff_of_true rfl rfl
  | some device =>
      have below := (referencesOf_taken events).fmeDev_lt pointer
      rw [count] at below
      rw [Option.bind_some, List.getElem?_eq_getElem below]
      exact iff_of_false nofun nofun

theorem hasAll_iff (events : List Event) :
    HasAll (referencesOf events) ↔ FmeIsFirst events := by
  induction events using List.reverseRecOn with
  | nil =>
      refine iff_of_true (fun _ once => nomatch once) ?_
      intro past fdata isPrefix
      exact absurd (List.prefix_nil.mp isPrefix) (by simp)
  | append_singleton past event ih =>
      rw [referencesOf_append_singleton]
      cases event with
      | committed fdata =>
          rw [fmeIsFirst_append_committed, ← ih]
          by_cases isFme : fdata.IsFme
          · rw [References.record, commit_fme isFme,
              (referencesOf_taken past).hasAll_getFmeDev,
              fmeDev_eq_none_iff]
            exact and_congr_left fun _ => ⟨fun empty _ => empty, (· isFme)⟩
          · rw [References.record, commit_other isFme, hasAll_register]
            exact ⟨fun all => ⟨fun fme => absurd fme isFme, all⟩, And.right⟩
      | _ =>
          rw [fmeIsFirst_append_other fun _ => Event.noConfusion]
          exact ih

end Traces

/-! ## What is dropped -/

section Dropped

variable {refs : References}

theorem usesOf_removeFeatureDevs (refs : References) (reference : Reference) :
    usesOf reference (removeFeatureDevs refs).uses =
      usesOf reference refs.uses ++
        usesOf reference
          (refs.children.map fun device => (.registered device, .give)) :=
  usesOf_append _ _ _

/-- Registrations are undone, and nothing else is. -/
theorem usesOf_fmeDev_remove (refs : References) (device : Nat) :
    usesOf (.fmeDev device) (removeFeatureDevs refs).uses =
      usesOf (.fmeDev device) refs.uses := by
  have others : usesOf (.fmeDev device)
      (refs.children.map fun child => (Reference.registered child, Use.give)) =
        [] := by
    apply usesOf_eq_nil
    intro event member
    obtain ⟨child, -, rfl⟩ := List.mem_map.mp member
    exact Reference.noConfusion
  rw [usesOf_removeFeatureDevs, others, List.append_nil]

theorem usesOf_fmeDev_removeAll (refs : References) (device : Nat) :
    usesOf (.fmeDev device) (dflFpgaFeatureDevsRemove refs).uses =
      usesOf (.fmeDev device) refs.uses ++
        if refs.fmeDev = some device then [.give] else [] := by
  rw [dflFpgaFeatureDevsRemove, usesOf_fmeDev_remove]
  cases refs.fmeDev with
  | none => exact (List.append_nil _).symm
  | some other =>
      change usesOf _ (refs.uses ++ [(.fmeDev other, .give)]) = _
      rw [usesOf_append, usesOf_singleton]
      simp only [Reference.fmeDev.injEq, Option.some.injEq]

theorem mem_uses_of_usesOf {reference : Reference}
    {uses : List (Reference × Use)} {use : Use}
    (member : use ∈ usesOf reference uses) : (reference, use) ∈ uses := by
  obtain ⟨⟨other, same⟩, kept, rfl⟩ := List.mem_map.mp member
  obtain ⟨inside, isIt⟩ := List.mem_filter.mp kept
  rwa [← of_decide_eq_true isIt]

theorem mem_usesOf {reference : Reference}
    {uses : List (Reference × Use)} {use : Use}
    (member : (reference, use) ∈ uses) : use ∈ usesOf reference uses :=
  List.mem_map_of_mem (List.mem_filter.mpr ⟨member, decide_eq_true rfl⟩)

/-- The error path drops no reference to an FME. -/
theorem Taken.droppedOnce_remove (taken : Taken refs) :
    DroppedOnce (removeFeatureDevs refs) ↔
      HasAll refs ∧ refs.fmeDev = none := by
  constructor
  · intro dropped
    have untaken (device : Nat) :
        usesOf (.fmeDev device) refs.uses ≠ [.take] := by
      intro once
      rw [← usesOf_fmeDev_remove] at once
      have settled := dropped device (mem_uses_of_usesOf (by
        rw [once]
        exact List.mem_singleton_self _))
      rw [Once, once] at settled
      cases settled
    refine ⟨fun device once => absurd once (untaken device), ?_⟩
    cases pointer : refs.fmeDev with
    | none => rfl
    | some device =>
        exact absurd (taken.fmeDev device pointer) (untaken device)
  · intro ⟨all, empty⟩ device member
    have inside := mem_usesOf member
    rw [usesOf_fmeDev_remove] at inside
    rcases taken.uses device with none | ⟨-, once⟩
    · rw [none] at inside
      cases inside
    · exact absurd (empty.symm.trans (all device once)) nofun

/-- Removing the container device drops the reference which it has. -/
theorem Taken.droppedOnce_removeAll (taken : Taken refs) :
    DroppedOnce (dflFpgaFeatureDevsRemove refs) ↔ HasAll refs := by
  constructor
  · intro dropped device once
    by_contra other
    have same := usesOf_fmeDev_removeAll refs device
    rw [if_neg other, List.append_nil, once] at same
    have settled := dropped device (mem_uses_of_usesOf (by
      rw [same]
      exact List.mem_singleton_self _))
    rw [Once, same] at settled
    cases settled
  · intro all device member
    rw [usesOf_fmeDev_removeAll]
    rcases taken.uses device with none | ⟨-, once⟩
    · have inside := mem_usesOf member
      rw [usesOf_fmeDev_removeAll, none] at inside
      split at inside
      · next pointer =>
          rw [taken.fmeDev device pointer] at none
          cases none
      · cases inside
    · rw [once, if_pos (all device once)]
      rfl

end Dropped

/--
References to FMEs are balanced when there is one FME at most, and none if the
enumeration fails.
-/
theorem droppedOnce_iff (platform : Platform) (nrIrqs : Nat)
    (dfls : List DflFpgaEnumDfl) :
    let run := dflFpgaFeatureDevsEnumerate platform nrIrqs dfls
    DroppedOnce (lifetime run) ↔
      FmeIsFirst run.events ∧
        (run.result ≠ .ok () → run.state.cdev.fmeDev = none) := by
  intro run
  have taken := referencesOf_taken run.events
  rw [enumerate_cdev, ← fmeDev_eq_none_iff, ← hasAll_iff, lifetime]
  cases result : run.result with
  | ok =>
      rw [taken.droppedOnce_removeAll]
      exact ⟨fun all => ⟨all, fun fails => absurd rfl fails⟩, And.left⟩
  | error failure =>
      rw [taken.droppedOnce_remove]
      exact and_congr_right fun _ =>
        ⟨fun empty _ => empty, fun fails => fails nofun⟩

/-- A list with an FME, and one with a feature which belongs to nothing. -/
def fmeThenOrphan : Platform where
  mmio address :=
    if address = 0x1000 then 0x4000010000000000
    else if address = 0x2000 then 0x3000010000000042
    else 0
  external _ := none
  irqTable _ := 0
  nrIrqsMax := 0
  beyond := 0
  fuel := 1

/-- The FME has been committed when the second list is refused. -/
theorem fmeThenOrphan_leaks :
    let run := dflFpgaFeatureDevsEnumerate fmeThenOrphan 0
      [⟨0x1000, 0x1000, by decide, by decide⟩,
        ⟨0x2000, 0x1000, by decide, by decide⟩]
    run.result = .error (.errno .einval) ∧ ¬ DroppedOnce (lifetime run) := by
  intro run
  refine ⟨by decide, fun dropped => ?_⟩
  have uses : (lifetime run).uses =
      [(.registered 0, .take), (.fmeDev 0, .take), (.registered 0, .give)] := by
    decide
  have once := dropped 0
  rw [uses] at once
  have settled := once (by decide)
  rw [Once] at settled
  exact absurd settled (by decide)

/-! ## Registrations -/

theorem Registered.put {refs : References} (holds : Registered refs)
    (device : Nat) : Registered (refs.put (.fmeDev device)) where
  children := holds.children
  uses other := by
    rw [References.put, usesOf_append, usesOf_singleton,
      if_neg Reference.noConfusion, List.append_nil]
    exact holds.uses other

theorem usesOf_children (count device : Nat) :
    usesOf (.registered device)
      ((List.range count).map fun child => (Reference.registered child, .give)) =
        if device < count then [.give] else [] := by
  induction count with
  | zero => rfl
  | succ count ih =>
      rw [List.range_succ, List.map_append, usesOf_append, ih, List.map_singleton,
        usesOf_singleton]
      simp only [Reference.registered.injEq]
      exact ite_lt_succ _ _ _

theorem Registered.removed {refs : References} (holds : Registered refs)
    (device : Nat) :
    usesOf (.registered device) (removeFeatureDevs refs).uses =
      if device < refs.devices then [.take, .give] else [] := by
  rw [usesOf_removeFeatureDevs, holds.children, holds.uses, usesOf_children]
  split <;> rfl

/-- Every registration is undone, whatever the end. -/
theorem lifetime_registered (run : Run Event Failure Enumeration Unit)
    (device : Nat) :
    usesOf (.registered device) (lifetime run).uses =
      if device < (committedOf run.events).length then [.take, .give]
      else [] := by
  have holds := referencesOf_registered run.events
  rw [← (referencesOf_fmeDev run.events).1, lifetime]
  split
  · rw [dflFpgaFeatureDevsRemove]
    split
    · exact (holds.put _).removed device
    · exact holds.removed device
  · exact holds.removed device

end LinuxDfl.Dfl
