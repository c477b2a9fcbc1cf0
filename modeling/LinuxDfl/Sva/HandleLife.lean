import LinuxDfl.Sva.Device
import LinuxDfl.Lib.Balance
import LinuxDfl.Lib.Transition
import Mathlib.Data.List.Nodup

/-!
# The life of SVA handles

Each bond is held by the handle of one file.  It is dropped by this file or
with the device, before the SVA feature is disabled; whichever of the device
and its files goes last frees the memory.
-/

namespace LinuxDfl.Sva

open LinuxDfl.Kernel
open LinuxDfl.Lib.Balance
open LinuxDfl.Lib.Transition

/-! ## What is to hold -/

variable {Resource : Type}

/-- The bonds which are bound and unbound, as seen through `view`. -/
def bondUses (view : SvaBond → Resource) (events : List SvaEvent) :
    List (Resource × Use) :=
  events.filterMap fun
    | .bind bond => some (view bond, .take)
    | .unbind bond => some (view bond, .give)
    | _ => none

/-- No bond outlives the SVA feature, and none is made after it. -/
def BondsEnd (events : List SvaEvent) : Prop :=
  ∀ before after, events = before ++ .disableFeature :: after →
    (∀ bond, Settled (usesOf bond (bondUses id before))) ∧
      bondUses id after = []

/-- The bonds and the memory of a device are looked after. -/
structure LifeCycle (system : SvaSystem) : Prop where
  /-- A bond is unbound as often as it is obtained, or is held once. -/
  bonds : ∀ bond, ∃ owed,
    owedFrom 0 (usesOf bond (bondUses id system.events)) = some owed ∧
      owed ≤ 1 ∧
      (system.listed = false ∨ bond.file ∉ system.files → owed = 0)
  /-- A file holds at most one bond. -/
  single : ∀ file, ∃ owed,
    owedFrom 0 (usesOf file (bondUses SvaBond.file system.events)) =
        some owed ∧ owed ≤ 1
  /-- The feature is disabled with the device. -/
  disabled : system.events.count .disableFeature =
    if system.listed then 0 else 1
  unbound : BondsEnd system.events
  /-- The memory is freed when the device is gone and no file is open. -/
  freed : system.events.count .freeDev =
    if system.listed = false ∧ system.files = [] then 1 else 0

/-! ## Views of events -/

theorem bondUses_append (view : SvaBond → Resource)
    (first rest : List SvaEvent) :
    bondUses view (first ++ rest) =
      bondUses view first ++ bondUses view rest :=
  List.filterMap_append

theorem bondUses_drop (view : SvaBond → Resource) (sva : DflSvaHandle) :
    bondUses view sva.drop =
      (sva.bond.toList.map view).map fun resource => (resource, .give) := by
  unfold DflSvaHandle.drop
  cases sva.bond <;> rfl

/-- The bonds which handles hold. -/
def bondsOf (handles : List DflSvaHandle) : List SvaBond :=
  handles.flatMap fun sva => sva.bond.toList

theorem bondsOf_append (first rest : List DflSvaHandle) :
    bondsOf (first ++ rest) = bondsOf first ++ bondsOf rest :=
  List.flatMap_append

theorem bondsOf_cons (sva : DflSvaHandle) (rest : List DflSvaHandle) :
    bondsOf (sva :: rest) = sva.bond.toList ++ bondsOf rest :=
  List.flatMap_cons

/-- All handles drop what they hold. -/
theorem bondUses_dropAll (view : SvaBond → Resource)
    (handles : List DflSvaHandle) :
    bondUses view (handles.flatMap DflSvaHandle.drop) =
      ((bondsOf handles).map view).map
        fun resource => (resource, .give) := by
  induction handles with
  | nil => rfl
  | cons sva rest ih =>
      rw [List.flatMap_cons, bondUses_append, ih, bondUses_drop,
        bondsOf_cons, List.map_append, List.map_append]

/-- The bonds of a file are counted with its handles. -/
theorem bondsOf_files (handles : List DflSvaHandle) :
    ((bondsOf handles).map SvaBond.file).Sublist
      (handles.map DflSvaHandle.file) := by
  induction handles with
  | nil => exact List.Sublist.refl _
  | cons sva rest ih =>
      rw [bondsOf_cons, List.map_append, List.map_cons]
      unfold DflSvaHandle.bond
      cases sva.svaHandle with
      | none => exact List.Sublist.cons _ ih
      | some svaHandle => exact List.Sublist.cons_cons _ ih

/-! ## Handles -/

/-- A handle which is found stands alone among its list. -/
theorem privateData_split {dev : DflSvaDev} {file : Nat}
    {sva : DflSvaHandle} (finds : dev.privateData file = some sva)
    (distinct : (dev.svaNext.map DflSvaHandle.file).Nodup) :
    sva.file = file ∧ ∃ before after,
      dev.svaNext = before ++ sva :: after ∧
        ∀ other ∈ before ++ after, other.file ≠ sva.file := by
  obtain ⟨hit, before, after, split, -⟩ :=
    List.find?_eq_some_iff_append.mp finds
  refine ⟨of_decide_eq_true hit, before, after, split, ?_⟩
  rw [split, List.map_append, List.map_cons] at distinct
  have apart := List.nodup_middle.mp distinct
  rw [List.nodup_cons, ← List.map_append] at apart
  intro other member same
  exact apart.1 (List.mem_map.mpr ⟨other, member, same⟩)

/-- A handle is replaced at its place. -/
theorem setHandle_split {dev : DflSvaDev} {sva new : DflSvaHandle}
    {before after : List DflSvaHandle}
    (split : dev.svaNext = before ++ sva :: after)
    (others : ∀ other ∈ before ++ after, other.file ≠ sva.file)
    (same : new.file = sva.file) :
    (dev.setHandle new).svaNext = before ++ new :: after := by
  have kept : ∀ handles : List DflSvaHandle,
      (∀ other ∈ handles, other.file ≠ sva.file) →
        (handles.map fun other =>
          if other.file = new.file then new else other) = handles := by
    intro handles apart
    have unchanged : (handles.map fun other =>
        if other.file = new.file then new else other) =
          handles.map id := by
      apply List.map_congr_left
      intro other member
      rw [same, if_neg (apart other member), id_eq]
    rw [unchanged, List.map_id]
  unfold DflSvaDev.setHandle
  dsimp only
  rw [split, List.map_append, List.map_cons, if_pos same.symm,
    kept before fun other member =>
      others other (List.mem_append_left _ member),
    kept after fun other member =>
      others other (List.mem_append_right _ member)]

/-- A handle is taken out at its place. -/
theorem filter_split {sva : DflSvaHandle}
    {handles before after : List DflSvaHandle}
    (split : handles = before ++ sva :: after)
    (others : ∀ other ∈ before ++ after, other.file ≠ sva.file) :
    (handles.filter fun handle => handle.file ≠ sva.file) =
      before ++ after := by
  rw [split, List.filter_append, List.filter_cons_of_neg (by simp),
    ← List.filter_append, List.filter_eq_self]
  intro other member
  exact decide_eq_true (others other member)

/-! ## The end of the feature -/

theorem not_mem_drop (sva : DflSvaHandle) :
    .disableFeature ∉ sva.drop ∧ .freeDev ∉ sva.drop := by
  unfold DflSvaHandle.drop
  constructor
  · intro member
    obtain ⟨bond, -, isEvent⟩ := List.mem_map.mp member
    cases isEvent
  · intro member
    obtain ⟨bond, -, isEvent⟩ := List.mem_map.mp member
    cases isEvent

theorem not_mem_dropAll (handles : List DflSvaHandle) :
    .disableFeature ∉ handles.flatMap DflSvaHandle.drop ∧
      .freeDev ∉ handles.flatMap DflSvaHandle.drop := by
  constructor
  · intro member
    obtain ⟨sva, -, isEvent⟩ := List.mem_flatMap.mp member
    exact (not_mem_drop sva).1 isEvent
  · intro member
    obtain ⟨sva, -, isEvent⟩ := List.mem_flatMap.mp member
    exact (not_mem_drop sva).2 isEvent

/-- Nothing has ended yet. -/
theorem bondsEnd_of_enabled {events : List SvaEvent}
    (enabled : .disableFeature ∉ events) : BondsEnd events := by
  intro before after split
  rw [split] at enabled
  exact absurd (List.mem_append_right _ List.mem_cons_self) enabled

/-- What comes after the feature leaves bonds alone. -/
theorem BondsEnd.append {events tail : List SvaEvent}
    (ends : BondsEnd events) (still : .disableFeature ∉ tail)
    (silent : bondUses id tail = []) : BondsEnd (events ++ tail) := by
  intro before after split
  rcases List.append_eq_append_iff.mp split with
    ⟨middle, -, inTail⟩ | ⟨middle, isBefore, rest⟩
  · rw [inTail] at still
    exact absurd (List.mem_append_right _ List.mem_cons_self) still
  · cases middle with
    | nil =>
        rw [List.nil_append] at rest
        rw [← rest] at still
        exact absurd List.mem_cons_self still
    | cons event middle =>
        rw [List.cons_append, List.cons.injEq] at rest
        obtain ⟨isDisable, isAfter⟩ := rest
        rw [← isDisable] at isBefore
        obtain ⟨settled, none⟩ := ends before middle isBefore
        refine ⟨settled, ?_⟩
        rw [isAfter, bondUses_append, none, silent, List.append_nil]

/-- The feature is disabled when nothing is held. -/
theorem bondsEnd_of_disable {events tail : List SvaEvent}
    (enabled : .disableFeature ∉ events)
    (holds : Holds [] (bondUses id events))
    (still : .disableFeature ∉ tail) (silent : bondUses id tail = []) :
    BondsEnd (events ++ .disableFeature :: tail) := by
  intro before after split
  rcases List.append_eq_append_iff.mp split with
    ⟨middle, isBefore, rest⟩ | ⟨middle, isEvents, rest⟩
  · cases middle with
    | nil =>
        rw [List.nil_append, List.cons.injEq] at rest
        rw [List.append_nil] at isBefore
        rw [isBefore, ← rest.2]
        exact ⟨holds.settled, silent⟩
    | cons event middle =>
        rw [List.cons_append, List.cons.injEq] at rest
        rw [rest.2] at still
        exact absurd (List.mem_append_right _ List.mem_cons_self) still
  · cases middle with
    | nil =>
        rw [List.nil_append, List.cons.injEq] at rest
        rw [List.append_nil] at isEvents
        rw [← isEvents, rest.2]
        exact ⟨holds.settled, silent⟩
    | cons event middle =>
        rw [List.cons_append, List.cons.injEq] at rest
        rw [isEvents, ← rest.1] at enabled
        exact absurd (List.mem_append_right _ List.mem_cons_self) enabled

/-! ## The invariant -/

/-- The handles which the device has. -/
def SvaSystem.handles (system : SvaSystem) : List DflSvaHandle :=
  (system.dev.map DflSvaDev.svaNext).getD []

/-- The memory of a device is there as long as the device or a file needs it. -/
inductive Memory (system : SvaSystem) : Prop where
  | used {dev : DflSvaDev} (memory : system.dev = some dev)
      (needed : system.listed = true ∨ system.files ≠ [])
      (pdev : dev.pdev.isSome = system.listed)
  | freed (memory : system.dev = none) (gone : system.listed = false)
      (closed : system.files = [])

/-- What each operation keeps. -/
structure Tended (system : SvaSystem) : Prop where
  memory : Memory system
  files : system.handles.map DflSvaHandle.file = system.files
  distinct : system.files.Nodup
  fresh : ∀ file ∈ system.files, file < system.nextFile
  held : ∀ {Resource : Type} [DecidableEq Resource]
    (view : SvaBond → Resource),
    Holds ((bondsOf system.handles).map view)
      (bondUses view system.events)
  dropped : system.listed = false → bondsOf system.handles = []
  disabled : system.events.count .disableFeature =
    if system.listed then 0 else 1
  unbound : BondsEnd system.events
  freed : system.events.count .freeDev =
    if system.listed = false ∧ system.files = [] then 1 else 0

theorem Tended.lifeCycle {system : SvaSystem} (tended : Tended system) :
    LifeCycle system where
  bonds bond := by
    have counted := tended.held id bond
    rw [List.map_id] at counted
    have files := tended.distinct
    rw [← tended.files] at files
    have apart := (bondsOf_files system.handles).nodup files
    refine ⟨_, counted, List.nodup_iff_count_le_one.mp apart.of_map bond,
      ?_⟩
    intro gone
    apply List.count_eq_zero_of_not_mem
    intro member
    rcases gone with deleted | closed
    · rw [tended.dropped deleted] at member
      exact absurd member List.not_mem_nil
    · have isFile := (bondsOf_files system.handles).subset
        (List.mem_map_of_mem member)
      rw [tended.files] at isFile
      exact absurd isFile closed
  single file := by
    have files := tended.distinct
    rw [← tended.files] at files
    have apart := (bondsOf_files system.handles).nodup files
    exact ⟨_, tended.held SvaBond.file file,
      List.nodup_iff_count_le_one.mp apart file⟩
  disabled := tended.disabled
  unbound := tended.unbound
  freed := tended.freed

/-! ## Operations -/

/-- The feature of a device which is there has not been disabled. -/
theorem Tended.enabled {system : SvaSystem} (tended : Tended system)
    (listed : system.listed = true) :
    .disableFeature ∉ system.events := by
  have none := tended.disabled
  rw [listed] at none
  exact List.count_eq_zero.mp none

/-- What a file does to its own handle. -/
structure Exchanges (sva new : DflSvaHandle) (events : List SvaEvent) :
    Prop where
  file : new.file = sva.file
  held : ∀ {Resource : Type} [DecidableEq Resource]
    (view : SvaBond → Resource) (rest : List Resource)
    (before : List SvaEvent),
    Holds (sva.bond.toList.map view ++ rest) (bondUses view before) →
      Holds (new.bond.toList.map view ++ rest)
        (bondUses view (before ++ events))
  still : .disableFeature ∉ events ∧ .freeDev ∉ events

/-- Nothing is exchanged. -/
theorem exchanges_refl (sva : DflSvaHandle) : Exchanges sva sva [] where
  file := rfl
  held view rest before holds := by
    rw [List.append_nil]
    exact holds
  still := ⟨List.not_mem_nil, List.not_mem_nil⟩

/-- A bond is obtained. -/
theorem exchanges_bind {sva : DflSvaHandle} (free : sva.svaHandle = none)
    (svaHandle : Nat) :
    Exchanges sva { sva with svaHandle := some svaHandle }
      [.bind ⟨sva.file, svaHandle⟩] where
  file := rfl
  held view rest before holds := by
    have none : sva.bond = none := by
      unfold DflSvaHandle.bond
      rw [free]
      rfl
    rw [none] at holds
    rw [bondUses_append]
    exact holds.take (view ⟨sva.file, svaHandle⟩)
  still := by
    constructor
    · intro member
      cases List.mem_singleton.mp member
    · intro member
      cases List.mem_singleton.mp member

/-- A bond is dropped. -/
theorem exchanges_drop (sva : DflSvaHandle) :
    Exchanges sva { sva with svaHandle := none } sva.drop where
  file := rfl
  held view rest before holds := by
    rw [bondUses_append, bondUses_drop]
    show Holds rest _
    cases bond : sva.bond with
    | none =>
        rw [bond] at holds
        simp only [Option.toList_none, List.map_nil, List.append_nil]
        exact holds
    | some held =>
        rw [bond] at holds
        exact holds.give
  still := not_mem_drop sva

theorem ioctlSvaBindDev_exchanges (currentMm : Bool)
    (bindDevice : Except Errno (Option Nat)) (dev : DflSvaDev)
    (sva : DflSvaHandle) :
    Exchanges sva (ioctlSvaBindDev currentMm bindDevice dev sva).2.1
      (ioctlSvaBindDev currentMm bindDevice dev sva).2.2 ∧
      (dev.pdev = none →
        (ioctlSvaBindDev currentMm bindDevice dev sva).2 = (sva, [])) := by
  unfold ioctlSvaBindDev
  cases present : dev.pdev with
  | none => exact ⟨exchanges_refl sva, fun _ => rfl⟩
  | some pdev =>
      refine ⟨?_, fun gone => by cases gone⟩
      dsimp only
      by_cases noMm : (!currentMm) = true
      · rw [if_pos noMm]
        exact exchanges_refl sva
      rw [if_neg noMm]
      cases held : sva.svaHandle with
      | some svaHandle => exact exchanges_refl sva
      | none =>
          rcases bindDevice with ret | - | svaHandle
          · exact exchanges_refl sva
          · exact exchanges_refl sva
          · exact exchanges_bind held svaHandle

theorem ioctlSvaUnbindDev_exchanges (dev : DflSvaDev)
    (sva : DflSvaHandle) :
    Exchanges sva (ioctlSvaUnbindDev dev sva).2.1
      (ioctlSvaUnbindDev dev sva).2.2 ∧
      (dev.pdev = none → (ioctlSvaUnbindDev dev sva).2 = (sva, [])) := by
  unfold ioctlSvaUnbindDev
  cases dev.pdev with
  | none => exact ⟨exchanges_refl sva, fun _ => rfl⟩
  | some pdev => exact ⟨exchanges_drop sva, fun gone => by cases gone⟩

/-! ## Steps -/

/-- The device is there as long as its PCI device is. -/
theorem Tended.pdev {system : SvaSystem} (tended : Tended system)
    {dev : DflSvaDev} (memory : system.dev = some dev) :
    dev.pdev.isSome = system.listed := by
  cases tended.memory with
  | used other needed pdev =>
      rw [memory] at other
      cases other
      exact pdev
  | freed none gone closed =>
      rw [memory] at none
      cases none

theorem bondsOf_middle (sva : DflSvaHandle)
    (before after : List DflSvaHandle) (view : SvaBond → Resource) :
    ((bondsOf (before ++ sva :: after)).map view).Perm
      (sva.bond.toList.map view ++ (bondsOf (before ++ after)).map view) := by
  rw [bondsOf_append, bondsOf_append, bondsOf_cons, ← List.map_append]
  apply List.Perm.map
  rw [← List.append_assoc, ← List.append_assoc]
  exact List.perm_append_comm.append_right _

theorem count_still {event : SvaEvent} {events tail : List SvaEvent}
    (still : event ∉ tail) :
    (events ++ tail).count event = events.count event := by
  rw [List.count_append, List.count_eq_zero.mpr still, Nat.add_zero]

theorem SvaSystem.handles_of_memory {system : SvaSystem} {dev : DflSvaDev}
    (memory : system.dev = some dev) : system.handles = dev.svaNext := by
  unfold SvaSystem.handles
  rw [memory]
  rfl

/-- The handle of a file has its place in the list of the device. -/
theorem Tended.place {system : SvaSystem} (tended : Tended system)
    {dev : DflSvaDev} {file : Nat} {sva : DflSvaHandle}
    (memory : system.dev = some dev)
    (finds : dev.privateData file = some sva) :
    sva.file = file ∧ ∃ before after,
      dev.svaNext = before ++ sva :: after ∧
        ∀ other ∈ before ++ after, other.file ≠ sva.file := by
  have distinct := tended.distinct
  rw [← tended.files, SvaSystem.handles_of_memory memory] at distinct
  exact privateData_split finds distinct

/-- A file may exchange its own handle. -/
theorem Tended.exchange {system : SvaSystem} (tended : Tended system)
    {dev : DflSvaDev} {file : Nat} {sva new : DflSvaHandle}
    {events : List SvaEvent} (memory : system.dev = some dev)
    (finds : dev.privateData file = some sva)
    (exchanges : Exchanges sva new events)
    (gone : dev.pdev = none → (new, events) = (sva, [])) :
    Tended
      { system with
        dev := some (dev.setHandle new)
        events := system.events ++ events } := by
  have pdev := tended.pdev memory
  have handles := SvaSystem.handles_of_memory memory
  obtain ⟨-, before, after, split, others⟩ := tended.place memory finds
  have placed := setHandle_split split others exchanges.file
  have files := tended.files
  rw [handles, split, List.map_append, List.map_cons] at files
  have needed : system.listed = true ∨ system.files ≠ [] := by
    right
    rw [← files]
    exact List.append_ne_nil_of_right_ne_nil _ (List.cons_ne_nil _ _)
  have idle : system.listed = false → new = sva ∧ events = [] := by
    intro deleted
    rw [deleted, Option.isSome_eq_false_iff, Option.isNone_iff_eq_none]
      at pdev
    exact Prod.mk.inj (gone pdev)
  constructor
  case memory => exact .used rfl needed pdev
  case files =>
    show (dev.setHandle new).svaNext.map DflSvaHandle.file = _
    rw [placed, List.map_append, List.map_cons, exchanges.file]
    exact files
  case distinct => exact tended.distinct
  case fresh => exact tended.fresh
  case held =>
    intro Resource _ view
    show Holds ((bondsOf (dev.setHandle new).svaNext).map view) _
    rw [placed]
    have holds := tended.held view
    rw [handles, split] at holds
    have exchanged := exchanges.held view _ _
      (holds.perm (bondsOf_middle sva before after view))
    exact exchanged.perm (bondsOf_middle new before after view).symm
  case dropped =>
    intro deleted
    show bondsOf (dev.setHandle new).svaNext = []
    have nothing := tended.dropped deleted
    rw [placed, (idle deleted).1, ← split, ← handles]
    exact nothing
  case disabled =>
    show (system.events ++ events).count _ = _
    rw [count_still exchanges.still.1]
    exact tended.disabled
  case unbound =>
    show BondsEnd (system.events ++ events)
    cases listed : system.listed with
    | true =>
        apply bondsEnd_of_enabled
        intro member
        rcases List.mem_append.mp member with earlier | now
        · exact tended.enabled listed earlier
        · exact exchanges.still.1 now
    | false =>
        rw [(idle listed).2, List.append_nil]
        exact tended.unbound
  case freed =>
    show (system.events ++ events).count _ = _
    rw [count_still exchanges.still.2]
    exact tended.freed

/-- A file may be opened. -/
theorem Tended.openFile {system : SvaSystem} (tended : Tended system)
    {dev : DflSvaDev} (memory : system.dev = some dev)
    (listed : system.listed = true) :
    Tended
      { system with
        dev := some
          { dev with svaNext := ⟨system.nextFile, none⟩ :: dev.svaNext }
        files := system.nextFile :: system.files
        nextFile := system.nextFile + 1 } := by
  have handles := SvaSystem.handles_of_memory memory
  constructor
  case memory =>
    have pdev := tended.pdev memory
    exact .used rfl (Or.inl listed) pdev
  case files =>
    show system.nextFile :: dev.svaNext.map DflSvaHandle.file = _
    rw [← handles, tended.files]
  case distinct =>
    refine List.nodup_cons.mpr ⟨?_, tended.distinct⟩
    intro member
    exact Nat.lt_irrefl _ (tended.fresh _ member)
  case fresh =>
    intro file member
    rcases List.mem_cons.mp member with rfl | earlier
    · exact Nat.lt_succ_self _
    · exact Nat.lt_succ_of_lt (tended.fresh file earlier)
  case held =>
    intro Resource _ view
    have holds := tended.held view
    rw [handles] at holds
    exact holds
  case dropped =>
    intro deleted
    exact absurd (listed.symm.trans deleted) (by decide)
  case disabled => exact tended.disabled
  case unbound => exact tended.unbound
  case freed =>
    have none := tended.freed
    rw [if_neg (fun both => absurd (listed.symm.trans both.1) (by decide))]
      at none ⊢
    exact none

/-- A release drops the bond of the file, and frees the memory if it is last. -/
theorem dflPciSvaRelease_cases {dev : DflSvaDev} {sva : DflSvaHandle}
    {before after : List DflSvaHandle}
    (split : dev.svaNext = before ++ sva :: after)
    (others : ∀ other ∈ before ++ after, other.file ≠ sva.file) :
    (dev.pdev = none ∧ before ++ after = [] ∧
        dflPciSvaRelease sva dev = (none, sva.drop ++ [.freeDev])) ∨
      ((dev.pdev ≠ none ∨ before ++ after ≠ []) ∧
        dflPciSvaRelease sva dev =
          (some { dev with svaNext := before ++ after }, sva.drop)) := by
  unfold dflPciSvaRelease
  rw [filter_split split others]
  by_cases last : (dev.pdev.isNone && (before ++ after).isEmpty) = true
  · left
    obtain ⟨gone, empty⟩ := Bool.and_eq_true_iff.mp last
    refine ⟨Option.isNone_iff_eq_none.mp gone, List.isEmpty_iff.mp empty,
      ?_⟩
    rw [if_pos last]
  · right
    rw [if_neg last]
    refine ⟨?_, rfl⟩
    by_contra neither
    push Not at neither
    rw [neither.1, neither.2] at last
    exact last rfl

/-- Once the device is deleted, a file has nothing to drop. -/
theorem Tended.nothing_held {system : SvaSystem} (tended : Tended system)
    {sva : DflSvaHandle} {before after : List DflSvaHandle}
    (split : system.handles = before ++ sva :: after)
    (deleted : system.listed = false) :
    sva.drop = [] ∧ bondsOf (before ++ after) = [] := by
  have none := tended.dropped deleted
  rw [split, bondsOf_append, bondsOf_cons] at none
  obtain ⟨first, later⟩ := List.append_eq_nil_iff.mp none
  obtain ⟨own, last⟩ := List.append_eq_nil_iff.mp later
  constructor
  · unfold DflSvaHandle.drop
    rw [own]
    rfl
  · rw [bondsOf_append, first, last]
    rfl

/-- The others keep what they hold when a file drops its bond. -/
theorem Tended.held_drop {system : SvaSystem} (tended : Tended system)
    {sva : DflSvaHandle} {before after : List DflSvaHandle}
    (split : system.handles = before ++ sva :: after)
    [DecidableEq Resource] (view : SvaBond → Resource) :
    Holds ((bondsOf (before ++ after)).map view)
      (bondUses view (system.events ++ sva.drop)) := by
  have holds := tended.held view
  rw [split] at holds
  exact (exchanges_drop sva).held view _ _
    (holds.perm (bondsOf_middle sva before after view))

/-- Bonds end with the feature when a file drops its bond. -/
theorem Tended.ends_drop {system : SvaSystem} (tended : Tended system)
    {sva : DflSvaHandle} {before after : List DflSvaHandle}
    (split : system.handles = before ++ sva :: after) :
    BondsEnd (system.events ++ sva.drop) := by
  cases listed : system.listed with
  | true =>
      apply bondsEnd_of_enabled
      intro member
      rcases List.mem_append.mp member with earlier | now
      · exact tended.enabled listed earlier
      · exact (not_mem_drop sva).1 now
  | false =>
      rw [(tended.nothing_held split listed).1, List.append_nil]
      exact tended.unbound

/-- The files which stay open when one is closed. -/
theorem Tended.files_filter {system : SvaSystem} (tended : Tended system)
    {sva : DflSvaHandle} {before after : List DflSvaHandle}
    (split : system.handles = before ++ sva :: after)
    (others : ∀ other ∈ before ++ after, other.file ≠ sva.file) :
    (system.files.filter fun other => other ≠ sva.file) =
      (before ++ after).map DflSvaHandle.file := by
  rw [← tended.files, split, List.filter_map, ← filter_split rfl others]
  rfl

/-- While a file is open, the memory is not freed. -/
theorem Tended.not_freed {system : SvaSystem} (tended : Tended system)
    {sva : DflSvaHandle} {before after : List DflSvaHandle}
    (split : system.handles = before ++ sva :: after) :
    system.events.count .freeDev = 0 := by
  rw [tended.freed, if_neg]
  rintro ⟨-, none⟩
  have files := tended.files
  rw [split, none] at files
  exact List.append_ne_nil_of_right_ne_nil _ (List.cons_ne_nil _ _)
    (List.map_eq_nil_iff.mp files)

/-- The last file of a deleted device may be closed. -/
theorem Tended.releaseLast {system : SvaSystem} (tended : Tended system)
    {sva : DflSvaHandle} {before after : List DflSvaHandle}
    (split : system.handles = before ++ sva :: after)
    (last : before ++ after = []) (deleted : system.listed = false) :
    Tended
      { system with
        dev := none
        files := []
        events := system.events ++ (sva.drop ++ [.freeDev]) } := by
  rw [← List.append_assoc]
  constructor
  case memory => exact .freed rfl deleted rfl
  case files => rfl
  case distinct => exact List.nodup_nil
  case fresh =>
    intro other member
    exact absurd member List.not_mem_nil
  case held =>
    intro Resource _ view
    have holds := tended.held_drop split view
    rw [last] at holds
    rw [bondUses_append]
    show Holds [] (_ ++ [])
    rw [List.append_nil]
    exact holds
  case dropped =>
    intro _
    rfl
  case disabled =>
    show (system.events ++ sva.drop ++ [SvaEvent.freeDev]).count _ = _
    rw [count_still (by decide), count_still (not_mem_drop sva).1]
    exact tended.disabled
  case unbound => exact (tended.ends_drop split).append (by decide) rfl
  case freed =>
    show (system.events ++ sva.drop ++ [SvaEvent.freeDev]).count _ = _
    rw [List.count_append, count_still (not_mem_drop sva).2,
      tended.not_freed split, if_pos ⟨deleted, rfl⟩]
    rfl

/-- A file may be closed while something else needs the memory. -/
theorem Tended.releaseOther {system : SvaSystem} (tended : Tended system)
    {dev : DflSvaDev} {sva : DflSvaHandle}
    {before after : List DflSvaHandle} (memory : system.dev = some dev)
    (split : system.handles = before ++ sva :: after)
    (files :
      (system.files.filter fun other => other ≠ sva.file) =
        (before ++ after).map DflSvaHandle.file)
    (more : dev.pdev ≠ none ∨ before ++ after ≠ []) :
    Tended
      { system with
        dev := some { dev with svaNext := before ++ after }
        files := (before ++ after).map DflSvaHandle.file
        events := system.events ++ sva.drop } := by
  have pdev := tended.pdev memory
  have subset : (before ++ after).map DflSvaHandle.file ⊆ system.files := by
    rw [← files]
    exact List.filter_sublist.subset
  constructor
  case memory =>
    refine .used rfl ?_ pdev
    rcases more with present | others
    · left
      rw [← pdev]
      exact Option.isSome_iff_ne_none.mpr present
    · right
      exact mt List.map_eq_nil_iff.mp others
  case files => rfl
  case distinct =>
    show ((before ++ after).map DflSvaHandle.file).Nodup
    rw [← files]
    exact tended.distinct.filter _
  case fresh =>
    intro other member
    exact tended.fresh other (subset member)
  case held =>
    intro Resource _ view
    exact tended.held_drop split view
  case dropped =>
    intro deleted
    exact (tended.nothing_held split deleted).2
  case disabled =>
    show (system.events ++ sva.drop).count _ = _
    rw [count_still (not_mem_drop sva).1]
    exact tended.disabled
  case unbound => exact tended.ends_drop split
  case freed =>
    show (system.events ++ sva.drop).count _ = _
    rw [count_still (not_mem_drop sva).2, tended.not_freed split]
    symm
    rw [if_neg]
    rintro ⟨deleted, none⟩
    rcases more with present | others
    · rw [← Option.isSome_iff_ne_none, pdev, deleted] at present
      cases present
    · exact others (List.map_eq_nil_iff.mp none)

/-- A file may be closed. -/
theorem Tended.release {system : SvaSystem} (tended : Tended system)
    {dev : DflSvaDev} {file : Nat} {sva : DflSvaHandle}
    (memory : system.dev = some dev)
    (finds : dev.privateData file = some sva) :
    Tended
      { system with
        dev := (dflPciSvaRelease sva dev).1
        files := system.files.filter fun other => other ≠ file
        events := system.events ++ (dflPciSvaRelease sva dev).2 } := by
  obtain ⟨isFile, before, after, split, others⟩ :=
    tended.place memory finds
  have handles : system.handles = before ++ sva :: after :=
    (SvaSystem.handles_of_memory memory).trans split
  have files := tended.files_filter handles others
  rw [← isFile, files]
  rcases dflPciSvaRelease_cases split others with
    ⟨gone, last, releases⟩ | ⟨more, releases⟩
  · have deleted : system.listed = false := by
      rw [← tended.pdev memory, gone]
      rfl
    rw [releases, last]
    exact tended.releaseLast handles last deleted
  · rw [releases]
    exact tended.releaseOther memory handles files more

/-- When the device is deleted, all bonds are dropped. -/
theorem Tended.held_dropAll {system : SvaSystem} (tended : Tended system)
    [DecidableEq Resource] (view : SvaBond → Resource) :
    Holds []
      (bondUses view
        (system.events ++
          system.handles.flatMap DflSvaHandle.drop)) := by
  rw [bondUses_append, bondUses_dropAll]
  exact (tended.held view).giveAll

theorem bondsOf_cleared (handles : List DflSvaHandle) :
    bondsOf (handles.map fun sva => { sva with svaHandle := none }) =
      [] := by
  induction handles with
  | nil => rfl
  | cons sva rest ih =>
      rw [List.map_cons, bondsOf_cons, ih]
      rfl

/-- The feature is still enabled when the bonds are dropped. -/
theorem Tended.enabled_dropAll {system : SvaSystem} (tended : Tended system)
    (listed : system.listed = true) :
    .disableFeature ∉ system.events ++
      system.handles.flatMap DflSvaHandle.drop := by
  intro member
  rcases List.mem_append.mp member with earlier | now
  · exact tended.enabled listed earlier
  · exact (not_mem_dropAll system.handles).1 now

theorem Tended.not_freed_dropAll {system : SvaSystem}
    (tended : Tended system) (listed : system.listed = true) :
    (system.events ++ system.handles.flatMap DflSvaHandle.drop).count
      .freeDev = 0 := by
  rw [count_still (not_mem_dropAll system.handles).2, tended.freed, if_neg]
  rintro ⟨deleted, -⟩
  exact absurd (listed.symm.trans deleted) (by decide)

/-- The PCI device may be deleted while no file is open. -/
theorem Tended.delUnused {system : SvaSystem} (tended : Tended system)
    (listed : system.listed = true) (unused : system.files = []) :
    Tended
      { system with
        dev := none
        listed := false
        events :=
          system.events ++ system.handles.flatMap DflSvaHandle.drop ++
            [.disableFeature, .freeDev] } := by
  have enabled := tended.enabled_dropAll listed
  constructor
  case memory => exact .freed rfl rfl unused
  case files => exact unused.symm
  case distinct => exact tended.distinct
  case fresh => exact tended.fresh
  case held =>
    intro Resource _ view
    rw [bondUses_append]
    show Holds [] (_ ++ [])
    rw [List.append_nil]
    exact tended.held_dropAll view
  case dropped =>
    intro _
    rfl
  case disabled =>
    show (_ ++ [SvaEvent.disableFeature, .freeDev]).count _ = _
    rw [List.count_append, List.count_eq_zero.mpr enabled]
    rfl
  case unbound =>
    exact bondsEnd_of_disable enabled (tended.held_dropAll id) (by decide) rfl
  case freed =>
    show (_ ++ [SvaEvent.disableFeature, .freeDev]).count _ = _
    rw [List.count_append, tended.not_freed_dropAll listed,
      if_pos ⟨rfl, unused⟩]
    rfl

/-- The PCI device may be deleted while files are open. -/
theorem Tended.delUsed {system : SvaSystem} (tended : Tended system)
    (listed : system.listed = true) (used : system.files ≠ []) :
    Tended
      { system with
        dev := some
          { pdev := none
            svaNext := system.handles.map fun sva =>
              { sva with svaHandle := none } }
        listed := false
        events :=
          system.events ++ system.handles.flatMap DflSvaHandle.drop ++
            [.disableFeature] } := by
  have enabled := tended.enabled_dropAll listed
  constructor
  case memory => exact .used rfl (Or.inr used) rfl
  case files =>
    show (system.handles.map _).map DflSvaHandle.file = _
    rw [List.map_map, ← tended.files]
    rfl
  case distinct => exact tended.distinct
  case fresh => exact tended.fresh
  case held =>
    intro Resource _ view
    show Holds ((bondsOf (system.handles.map _)).map view) _
    rw [bondsOf_cleared, bondUses_append]
    show Holds [] (_ ++ [])
    rw [List.append_nil]
    exact tended.held_dropAll view
  case dropped =>
    intro _
    exact bondsOf_cleared system.handles
  case disabled =>
    show (_ ++ [SvaEvent.disableFeature]).count _ = _
    rw [List.count_append, List.count_eq_zero.mpr enabled]
    rfl
  case unbound =>
    exact bondsEnd_of_disable enabled (tended.held_dropAll id)
      List.not_mem_nil rfl
  case freed =>
    show (_ ++ [SvaEvent.disableFeature]).count _ = _
    rw [List.count_append, tended.not_freed_dropAll listed,
      if_neg fun both => used both.2]
    rfl

/-- The PCI device may be deleted. -/
theorem Tended.delDev {system : SvaSystem} (tended : Tended system)
    {dev : DflSvaDev} (memory : system.dev = some dev)
    (listed : system.listed = true) :
    Tended
      { system with
        dev := (delDflMdev dev).1
        listed := false
        events := system.events ++ (delDflMdev dev).2 } := by
  have handles := SvaSystem.handles_of_memory memory
  have files := tended.files
  rw [handles] at files
  unfold delDflMdev
  by_cases empty : dev.svaNext.isEmpty = true
  · have none : system.files = [] := by
      rw [← files, List.isEmpty_iff.mp empty]
      rfl
    rw [if_pos empty]
    dsimp only
    rw [List.append_assoc, ← List.append_assoc, ← handles]
    exact tended.delUnused listed none
  · have used : system.files ≠ [] := by
      rw [← files]
      intro none
      exact empty (List.isEmpty_iff.mpr (List.map_eq_nil_iff.mp none))
    rw [if_neg empty]
    dsimp only
    rw [← List.append_assoc, ← handles]
    exact tended.delUsed listed used

theorem Tended.step {system next : SvaSystem} {op : SvaOp}
    (tended : Tended system) (step : system.Step op next) :
    Tended next := by
  obtain ⟨dev, memory, moves⟩ := Option.bind_eq_some_iff.mp step
  have pdev := tended.pdev memory
  cases op with
  | openFile kzalloc =>
      unfold dflPciSvaOpen at moves
      have same : { system with dev := some dev } = system := by
        rw [← memory]
      cases present : dev.pdev with
      | none =>
          simp only [present, Option.some.injEq] at moves
          rw [← moves, same]
          exact tended
      | some pci =>
          simp only [present] at moves pdev
          by_cases noMemory : (!kzalloc) = true
          · rw [if_pos noMemory] at moves
            simp only [Option.some.injEq] at moves
            rw [← moves, same]
            exact tended
          · rw [if_neg noMemory] at moves
            simp only [Option.some.injEq] at moves
            rw [← moves, ← present]
            exact tended.openFile memory pdev.symm
  | ioctl file cmd =>
      simp only [Option.ite_none_right_eq_some] at moves
      obtain ⟨-, calls⟩ := moves
      obtain ⟨sva, finds, calls⟩ := Option.bind_eq_some_iff.mp calls
      obtain ⟨⟨ret, new, events⟩, returns, effect⟩ :=
        Option.bind_eq_some_iff.mp calls
      cases effect
      have untouched : Tended
          { system with
            dev := some dev
            events := system.events ++ [] } := by
        rw [List.append_nil, ← memory]
        exact tended
      cases cmd with
      | getApiVersion =>
          cases returns
          exact untouched
      | bindDev currentMm bindDevice =>
          obtain ⟨exchanges, gone⟩ :=
            ioctlSvaBindDev_exchanges currentMm bindDevice dev sva
          cases returns
          exact tended.exchange memory finds exchanges gone
      | unbindDev =>
          obtain ⟨exchanges, gone⟩ := ioctlSvaUnbindDev_exchanges dev sva
          cases returns
          exact tended.exchange memory finds exchanges gone
      | other number =>
          unfold dflPciSvaIoctl at returns
          cases present : dev.pdev with
          | none =>
              simp only [present] at returns
              cases returns
          | some pci =>
              simp only [present] at returns
              cases returns
              exact untouched
  | release file =>
      simp only [Option.ite_none_right_eq_some] at moves
      obtain ⟨-, calls⟩ := moves
      obtain ⟨sva, finds, effect⟩ := Option.bind_eq_some_iff.mp calls
      cases effect
      exact tended.release memory finds
  | delDev =>
      simp only [Option.ite_none_right_eq_some] at moves
      obtain ⟨listed, effect⟩ := moves
      cases effect
      exact tended.delDev memory listed

theorem tended_added (pdev : Nat) : Tended (svaAdded pdev) where
  memory := .used rfl (Or.inl rfl) rfl
  files := rfl
  distinct := List.nodup_nil
  fresh _ member := absurd member List.not_mem_nil
  held _ := holds_nil
  dropped deleted := absurd deleted.symm Bool.false_ne_true
  disabled := rfl
  unbound := bondsEnd_of_enabled List.not_mem_nil
  freed := rfl

/--
Along every sequence of opens, requests, closes and a deletion of the device:
each bond which a file obtains is unbound once, by the file or with the
device, before the SVA feature is disabled; no file holds two bonds; and the
memory is freed once, when the device is gone and no file is open.
-/
theorem handles_looked_after (pdev : Nat)
    (path : List (SvaOp × SvaSystem))
    (isPath : IsPath SvaSystem.Step (svaAdded pdev) path) :
    Throughout LifeCycle (svaAdded pdev) path := by
  have tended : Throughout Tended (svaAdded pdev) path :=
    throughout_of_invariant (fun _ _ _ tended step => tended.step step)
      isPath (tended_added pdev)
  exact tended.mono fun _ => Tended.lifeCycle

/-- A process is bound, the device deleted under it, and the file closed. -/
def boundUntilDeleted : List SvaOp :=
  [.openFile true, .ioctl 0 (.bindDev true (.ok (some 5))), .delDev,
    .release 0]

/-- The bond is dropped with the device, and the memory with the file. -/
theorem bound_until_deleted :
    LifeCycle (boundUntilDeleted.foldl SvaSystem.apply (svaAdded 3)) := by
  refine Throughout.final (handles_looked_after 3
    (pathOf SvaSystem.apply (svaAdded 3) boundUntilDeleted) ?_)
  apply isPath_of_enabledAlong fun _ _ => SvaSystem.step_apply
  decide

end LinuxDfl.Sva
