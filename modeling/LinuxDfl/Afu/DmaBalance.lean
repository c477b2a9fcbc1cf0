import LinuxDfl.Afu.DmaRegion
import LinuxDfl.Lib.Balance
import LinuxDfl.Lib.Transition

/-!
# The mappings of DMA regions

Each mapping is held by a region of the tree until it is unmapped.  Requests
unmap what they have mapped; destroying all regions forgets the direction of
a mapping, and passes over a region at DMA address zero.
-/

namespace LinuxDfl.Afu

open LinuxDfl.Kernel
open LinuxDfl.Port
open LinuxDfl.Lib.SearchTree
open LinuxDfl.Lib.Balance
open LinuxDfl.Lib.Transition

/-! ## What a request to map does -/

section Outcomes

variable (ops : Balancing DflAfuDmaRegion)

/-- The ways in which `afu_dma_map_region` returns. -/
inductive MapOutcome (userAddr length : BitVec 64) (flags : BitVec 32)
    (answers : MapAnswers) (dma : AfuDma) :
    Except Errno (BitVec 64) → AfuDma → Prop where
  | refused (ret : Errno) :
      MapOutcome userAddr length flags answers dma (.error ret) dma
  | unpinned {ret : Errno} {events : List DmaEvent}
      (pins : afuDmaPinPages answers length = (.error ret, events)) :
      MapOutcome userAddr length flags answers dma (.error ret)
        (dma.emit events)
  | unmapped {pages : List Nat} {events : List DmaEvent} (ret : Errno)
      (pins : afuDmaPinPages answers length = (.ok pages, events))
      (nonempty : pages ≠ []) :
      MapOutcome userAddr length flags answers dma (.error ret)
        (dma.emit (events ++ afuDmaUnpinPages length))
  | rejected {pages : List Nat} {events : List DmaEvent}
      (mapping : DmaMapping)
      (pins : afuDmaPinPages answers length = (.ok pages, events))
      (nonempty : pages ≠ []) :
      MapOutcome userAddr length flags answers dma (.error .eexist)
        (dma.emit (events ++ [.map mapping] ++
          .unmap mapping :: afuDmaUnpinPages length))
  | mapped {pages : List Nat} {events : List DmaEvent}
      {region : DflAfuDmaRegion} {regions : RbTree DflAfuDmaRegion}
      (pins : afuDmaPinPages answers length = (.ok pages, events))
      (nonempty : pages ≠ [])
      (continuous : afuDmaCheckContinuousPages pages = true)
      (isRegion : region =
        ⟨userAddr, length, region.iova, some pages, false,
          dmaFlagToDir flags⟩)
      (adds : afuDmaRegionAdd ops region dma.dmaRegions = some regions) :
      MapOutcome userAddr length flags answers dma (.ok region.iova)
        { dma.emit (events ++ [.map region.mapping]) with
          dmaRegions := regions }

theorem AfuDma.emit_emit (dma : AfuDma) (first rest : List DmaEvent) :
    (dma.emit first).emit rest = dma.emit (first ++ rest) := by
  unfold AfuDma.emit
  rw [List.append_assoc]

theorem afuDmaMapRegion_outcome {userAddr length : BitVec 64}
    {flags : BitVec 32} {answers : MapAnswers} {dma next : AfuDma}
    {result : Except Errno (BitVec 64)}
    (returns : afuDmaMapRegion ops userAddr length flags answers dma =
      some (result, next)) :
    MapOutcome ops userAddr length flags answers dma result next := by
  unfold afuDmaMapRegion at returns
  by_cases args : (!mapArgsOk userAddr length) = true
  · rw [if_pos args] at returns
    cases returns
    exact .refused _
  rw [if_neg args] at returns
  by_cases alloc : (!answers.kzalloc) = true
  · rw [if_pos alloc] at returns
    cases returns
    exact .refused _
  rw [if_neg alloc] at returns
  rcases pins : afuDmaPinPages answers length with ⟨ret | pages, events⟩
  · simp only [pins, Option.some.injEq, Prod.mk.injEq] at returns
    obtain ⟨rfl, rfl⟩ := returns
    exact .unpinned pins
  simp only [pins] at returns
  by_cases gaps : (!afuDmaCheckContinuousPages pages) = true
  · rw [if_pos gaps] at returns
    cases returns
    refine .unmapped _ pins ?_
    rintro rfl
    exact absurd gaps (by decide)
  rw [if_neg gaps] at returns
  have continuous : afuDmaCheckContinuousPages pages = true := by
    simpa using gaps
  by_cases none : pages.isEmpty = true
  · rw [if_pos none] at returns
    cases returns
  rw [if_neg none] at returns
  have nonempty : pages ≠ [] := mt List.isEmpty_iff.mpr none
  cases mapping : answers.dmaMap with
  | none =>
      simp only [mapping, Option.some.injEq, Prod.mk.injEq] at returns
      obtain ⟨rfl, rfl⟩ := returns
      exact .unmapped _ pins nonempty
  | some iova =>
      simp only [mapping] at returns
      split at returns
      · cases returns
        rw [AfuDma.emit_emit]
        exact .rejected _ pins nonempty
      · rename_i regions adds
        cases returns
        exact .mapped pins nonempty continuous rfl adds

end Outcomes

/-! ## Mappings which are held -/

/-- The calls of `dma_map_page` which succeed, and of `dma_unmap_page`. -/
def mappingUses (events : List DmaEvent) : List (DmaMapping × Use) :=
  events.filterMap fun
    | .map mapping => some (mapping, .take)
    | .unmap mapping => some (mapping, .give)
    | _ => none

/-- The mappings of the regions in the tree. -/
def AfuDma.mappings (dma : AfuDma) : List DmaMapping :=
  dma.dmaRegions.inorder.map DflAfuDmaRegion.mapping

/--
Every mapping which is not matched by its unmapping belongs to a region, and
none is left when the last file has been closed or the driver is gone.
-/
structure MappingsMatched (dma : AfuDma) : Prop where
  matched : Holds dma.mappings (mappingUses dma.events)
  closed :
    dma.files = 0 ∨ dma.bound = false → ∀ mapping,
      Settled (usesOf mapping (mappingUses dma.events))

/-- Destroying the regions calls for the mappings which they have. -/
def PlainMappings (dma : AfuDma) : Prop :=
  ∀ region ∈ dma.dmaRegions.inorder,
    region.iova ≠ 0 ∧ region.direction = .bidirectional

/--
When a close leaves no user or the device is removed, each region is at a
nonzero DMA address and bidirectional.  A user is left behind the last file only
if more files have been open than an `int` counts; then there is no region.
-/
def DestroysPlain (dma : AfuDma) : AfuOp → Prop
  | .release =>
      (dma.fdata.openCount ≤ 1 → PlainMappings dma) ∧
        (1 < dma.fdata.openCount → dma.files = 1 → dma.mappings = [])
  | .remove => PlainMappings dma
  | _ => True

instance (dma : AfuDma) : Decidable (PlainMappings dma) :=
  inferInstanceAs (Decidable (∀ region ∈ _, _ ∧ _))

instance (dma : AfuDma) :
    (op : AfuOp) → Decidable (DestroysPlain dma op)
  | .release =>
      inferInstanceAs
        (Decidable ((_ → PlainMappings dma) ∧ (_ → _ → dma.mappings = [])))
  | .remove => inferInstanceAs (Decidable (PlainMappings dma))
  | .openFile _ => isTrue trivial
  | .dmaMap _ => isTrue trivial
  | .dmaUnmap _ => isTrue trivial

theorem mappingUses_append (first rest : List DmaEvent) :
    mappingUses (first ++ rest) = mappingUses first ++ mappingUses rest :=
  List.filterMap_append

theorem mappingUses_pin (answers : MapAnswers) (length : BitVec 64) :
    mappingUses (afuDmaPinPages answers length).2 = [] := by
  unfold afuDmaPinPages
  cases answers.account with
  | some ret => rfl
  | none =>
      dsimp only
      split_ifs
      · rfl
      · cases answers.pin with
        | error ret => rfl
        | ok frames =>
            dsimp only
            split_ifs <;> rfl

theorem mappingUses_unpin (length : BitVec 64) :
    mappingUses (afuDmaUnpinPages length) = [] := rfl

/-- The invariant: regions hold their mappings, and files the regions. -/
structure MappingsHeld (dma : AfuDma) : Prop where
  held : Holds dma.mappings (mappingUses dma.events)
  closed : dma.files = 0 ∨ dma.bound = false → dma.mappings = []

theorem MappingsHeld.matched {dma : AfuDma} (held : MappingsHeld dma) :
    MappingsMatched dma where
  matched := held.held
  closed := by
    intro closed mapping
    have holds := held.held
    rw [held.closed closed] at holds
    exact holds.settled mapping

/-! ## Requests -/

section Requests

variable {ops : Balancing DflAfuDmaRegion}

/-- What a request leaves alone. -/
structure SameFiles (dma next : AfuDma) : Prop where
  fdata : next.fdata = dma.fdata
  files : next.files = dma.files
  bound : next.bound = dma.bound

/-- A request keeps the mappings of the regions which it leaves. -/
structure KeepsMappings (dma next : AfuDma) : Prop where
  files : SameFiles dma next
  held :
    Holds dma.mappings (mappingUses dma.events) →
      Holds next.mappings (mappingUses next.events)

theorem KeepsMappings.refl (dma : AfuDma) : KeepsMappings dma dma :=
  ⟨⟨rfl, rfl, rfl⟩, id⟩

theorem KeepsMappings.trans {dma next last : AfuDma}
    (first : KeepsMappings dma next) (second : KeepsMappings next last) :
    KeepsMappings dma last where
  files :=
    ⟨second.files.fdata.trans first.files.fdata,
      second.files.files.trans first.files.files,
      second.files.bound.trans first.files.bound⟩
  held holds := second.held (first.held holds)

/-- Events which have nothing to do with mappings. -/
theorem keepsMappings_emit (dma : AfuDma) {events : List DmaEvent}
    (none : mappingUses events = []) : KeepsMappings dma (dma.emit events) where
  files := ⟨rfl, rfl, rfl⟩
  held := by
    intro holds
    show Holds dma.mappings (mappingUses (dma.events ++ events))
    rw [mappingUses_append, none, List.append_nil]
    exact holds

/-- However mapping a region ends, mappings are held by regions. -/
theorem MapOutcome.keepsMappings {userAddr length : BitVec 64}
    {flags : BitVec 32} {answers : MapAnswers} {dma next : AfuDma}
    {result : Except Errno (BitVec 64)}
    (outcome :
      MapOutcome ops userAddr length flags answers dma result next) :
    KeepsMappings dma next := by
  have silent := mappingUses_pin answers length
  cases outcome with
  | refused ret => exact KeepsMappings.refl dma
  | unpinned pins =>
      rw [pins] at silent
      exact keepsMappings_emit dma silent
  | unmapped ret pins nonempty =>
      rw [pins] at silent
      apply keepsMappings_emit dma
      rw [mappingUses_append, silent, mappingUses_unpin, List.append_nil]
  | @rejected pages events mapping pins nonempty =>
      rw [pins] at silent
      refine ⟨⟨rfl, rfl, rfl⟩, fun holds => ?_⟩
      have uses :
          mappingUses (dma.events ++ (events ++ [.map mapping] ++
            .unmap mapping :: afuDmaUnpinPages length)) =
          mappingUses dma.events ++ [(mapping, .take)] ++
            [(mapping, .give)] := by
        simp only [mappingUses_append, silent, List.nil_append,
          List.append_assoc]
        rfl
      show Holds dma.mappings (mappingUses (dma.events ++ _))
      rw [uses]
      exact (holds.take mapping).give
  | @mapped pages events region regions pins nonempty continuous isRegion
      adds =>
      rw [pins] at silent
      refine ⟨⟨rfl, rfl, rfl⟩, fun holds => ?_⟩
      have uses :
          mappingUses (dma.events ++ (events ++ [.map region.mapping])) =
            mappingUses dma.events ++ [(region.mapping, .take)] := by
        simp only [mappingUses_append, silent, List.nil_append]
        rfl
      show Holds (regions.inorder.map _) (mappingUses (dma.events ++ _))
      rw [uses]
      have added := (afuDmaRegionAdd_perm adds).map DflAfuDmaRegion.mapping
      exact (holds.take region.mapping).perm added.symm

theorem afuDmaUnmapRegion_keepsMappings (iova : BitVec 64) (dma : AfuDma) :
    KeepsMappings dma (afuDmaUnmapRegion ops iova dma).2 := by
  unfold afuDmaUnmapRegion
  cases finds : afuDmaRegionFindIova iova dma.dmaRegions with
  | none => exact KeepsMappings.refl dma
  | some found =>
      obtain ⟨place, region⟩ := found
      dsimp only
      by_cases busy : region.inUse = true
      · rw [if_pos busy]
        exact KeepsMappings.refl dma
      · rw [if_neg busy]
        refine ⟨⟨rfl, rfl, rfl⟩, fun holds => ?_⟩
        have removed := ops.erase_perm (RbTree.find_place finds)
        have uses :
            mappingUses (dma.events ++ .unmap region.mapping ::
              afuDmaUnpinPages region.length) =
            mappingUses dma.events ++ [(region.mapping, .give)] := by
          rw [mappingUses_append]
          rfl
        show Holds ((ops.erase dma.dmaRegions place).inorder.map _)
          (mappingUses (dma.events ++ _))
        rw [uses]
        exact (holds.perm (removed.map DflAfuDmaRegion.mapping)).give

theorem afuIoctlDmaMap_keepsMappings {request : DmaMapRequest}
    {dma next : AfuDma}
    (returns :
      (afuIoctlDmaMap ops request dma).map Prod.snd = some next) :
    KeepsMappings dma next := by
  unfold afuIoctlDmaMap at returns
  dsimp only at returns
  by_cases unread : (!request.copyFromUser) = true
  · rw [if_pos unread] at returns
    cases returns
    exact KeepsMappings.refl dma
  rw [if_neg unread] at returns
  split at returns
  · cases returns
    exact KeepsMappings.refl dma
  rw [Option.map_map] at returns
  obtain ⟨⟨result, mapped⟩, maps, effect⟩ :=
    Option.map_eq_some_iff.mp returns
  have kept := (afuDmaMapRegion_outcome ops maps).keepsMappings
  cases result with
  | error ret =>
      have same : mapped = next := effect
      rw [← same]
      exact kept
  | ok iova =>
      have result :
          (if (!request.copyToUser) = true then
            (some Errno.efault, (afuDmaUnmapRegion ops iova mapped).2)
          else (none, mapped)).2 = next := effect
      by_cases failed : (!request.copyToUser) = true
      · rw [if_pos failed] at result
        rw [← result]
        exact kept.trans (afuDmaUnmapRegion_keepsMappings iova mapped)
      · rw [if_neg failed] at result
        rw [← result]
        exact kept

theorem afuIoctlDmaUnmap_keepsMappings (request : DmaUnmapRequest)
    (dma : AfuDma) :
    KeepsMappings dma (afuIoctlDmaUnmap ops request dma).2 := by
  unfold afuIoctlDmaUnmap
  dsimp only
  split_ifs
  · exact KeepsMappings.refl dma
  · exact KeepsMappings.refl dma
  · exact afuDmaUnmapRegion_keepsMappings request.iova dma

/-- A request which needs an open file keeps the invariant. -/
theorem MappingsHeld.request {dma next : AfuDma} (held : MappingsHeld dma)
    (bound : dma.bound = true) (isOpen : 0 < dma.files)
    (keeps : KeepsMappings dma next) : MappingsHeld next where
  held := keeps.held held.held
  closed := by
    rw [keeps.files.files, keeps.files.bound, bound]
    rintro (closed | gone)
    · exact absurd closed isOpen.ne'
    · cases gone

end Requests

/-! ## Destroying all regions -/

section Destroy

variable (ops : Balancing DflAfuDmaRegion)

/-- All regions are taken out of the tree, in order. -/
theorem afuDmaRegionDestroy_eq (dma : AfuDma) :
    afuDmaRegionDestroy ops dma =
      { dma with
        dmaRegions := .nil
        events :=
          dma.events ++ dma.dmaRegions.inorder.flatMap destroyEvents } := by
  unfold afuDmaRegionDestroy
  rw [ops.drain_all]
  rfl

/-- What destroying a region unmaps. -/
def destroyUses (region : DflAfuDmaRegion) : List (DmaMapping × Use) :=
  if region.iova ≠ 0 then
    [(⟨region.iova, region.length, .bidirectional⟩, .give)]
  else []

theorem mappingUses_destroy (region : DflAfuDmaRegion) :
    mappingUses (destroyEvents region) = destroyUses region := by
  unfold destroyEvents destroyUses
  rw [mappingUses_append]
  by_cases zero : region.iova ≠ 0
  · rw [if_pos zero, if_pos zero]
    cases region.pages <;> rfl
  · rw [if_neg zero, if_neg zero]
    cases region.pages <;> rfl

theorem mappingUses_destroyAll (regions : List DflAfuDmaRegion) :
    mappingUses (regions.flatMap destroyEvents) =
      regions.flatMap destroyUses := by
  induction regions with
  | nil => rfl
  | cons region rest ih =>
      rw [List.flatMap_cons, List.flatMap_cons, mappingUses_append,
        mappingUses_destroy, ih]

/-- Plain mappings are unmapped as they have been mapped. -/
theorem destroyUses_plain {regions : List DflAfuDmaRegion}
    (plain : ∀ region ∈ regions,
      region.iova ≠ 0 ∧ region.direction = .bidirectional) :
    regions.flatMap destroyUses =
      (regions.map DflAfuDmaRegion.mapping).map fun mapping =>
        (mapping, .give) := by
  induction regions with
  | nil => rfl
  | cons region rest ih =>
      obtain ⟨nonzero, direction⟩ := plain region List.mem_cons_self
      have later := ih fun other member =>
        plain other (List.mem_cons_of_mem _ member)
      rw [List.flatMap_cons, later, destroyUses, if_pos nonzero,
        ← direction]
      rfl

/-- A mapping which is not plain is not among those which are unmapped. -/
theorem destroyUses_other {regions : List DflAfuDmaRegion}
    {mapping : DmaMapping}
    (other : mapping.iova = 0 ∨ mapping.direction ≠ .bidirectional) :
    usesOf mapping (regions.flatMap destroyUses) = [] := by
  apply usesOf_eq_nil
  intro event member same
  obtain ⟨region, -, inEvents⟩ := List.mem_flatMap.mp member
  unfold destroyUses at inEvents
  by_cases nonzero : region.iova ≠ 0
  · rw [if_pos nonzero, List.mem_singleton] at inEvents
    rw [inEvents] at same
    rcases other with zero | direction
    · rw [← same] at zero
      exact nonzero zero
    · rw [← same] at direction
      exact direction rfl
  · rw [if_neg nonzero] at inEvents
    exact absurd inEvents List.not_mem_nil

theorem MappingsHeld.destroy {dma : AfuDma} (held : MappingsHeld dma)
    (plain : PlainMappings dma) :
    MappingsHeld (afuDmaRegionDestroy ops dma) := by
  rw [afuDmaRegionDestroy_eq]
  refine ⟨?_, fun _ => rfl⟩
  show Holds [] (mappingUses (dma.events ++ _))
  rw [mappingUses_append, mappingUses_destroyAll, destroyUses_plain plain]
  exact held.held.giveAll

/-- A mapping which is not plain is lost with its region. -/
theorem not_matched_of_destroy {dma next : AfuDma}
    (held : MappingsHeld dma) (other : ¬ PlainMappings dma)
    (regions : next.dmaRegions = .nil)
    (events : next.events =
      dma.events ++ dma.dmaRegions.inorder.flatMap destroyEvents) :
    ¬ MappingsMatched next := by
  intro matched
  unfold PlainMappings at other
  push Not at other
  obtain ⟨region, member, notPlain⟩ := other
  have unusual : region.mapping.iova = 0 ∨
      region.mapping.direction ≠ .bidirectional := by
    by_cases zero : region.iova = 0
    · exact Or.inl zero
    · exact Or.inr (notPlain zero)
  have after := matched.matched region.mapping
  rw [events, mappingUses_append, mappingUses_destroyAll, usesOf_append,
    destroyUses_other unusual, List.append_nil,
    held.held region.mapping, Option.some.injEq] at after
  have none : next.mappings = [] := by
    rw [AfuDma.mappings, regions]
    rfl
  have count : dma.mappings.count region.mapping = 0 := by
    rw [none] at after
    exact after
  have positive : 0 < dma.mappings.count region.mapping :=
    List.count_pos_iff.mpr (List.mem_map_of_mem member)
  omega

end Destroy

/-! ## Runs -/

section Runs

variable (ops : Balancing DflAfuDmaRegion)

/-- A close leaves no user if there is one, or none is counted. -/
theorem useEnd_openCount_eq_zero_iff (fdata : FeatureDevData) :
    (dflFeatureDevUseEnd fdata).openCount = 0 ↔ fdata.openCount ≤ 1 := by
  have signed := BitVec.toInt_eq_toNat_cond fdata.openCount
  unfold dflFeatureDevUseEnd
  split_ifs with unused
  · show fdata.openCount = 0 ↔ fdata.openCount ≤ 1
    bv_omega
  · show fdata.openCount - 1 = 0 ↔ fdata.openCount ≤ 1
    bv_omega

theorem MappingsHeld.step {dma next : AfuDma} {op : AfuOp}
    (held : MappingsHeld dma) (plain : DestroysPlain dma op)
    (step : dma.Step ops op next) : MappingsHeld next := by
  cases op with
  | openFile excl =>
      obtain ⟨bound, rfl⟩ := step
      refine ⟨held.held, ?_⟩
      rintro (closed | gone)
      · refine held.closed (Or.inl ?_)
        have opened :
            (if (dflFeatureDevUseBegin dma.fdata excl).1.isNone then
              dma.files + 1 else dma.files) = 0 := closed
        split at opened
        · cases opened
        · exact opened
      · exact held.closed (Or.inr gone)
  | release =>
      obtain ⟨bound, isOpen, rfl⟩ := step
      unfold afuRelease
      dsimp only
      by_cases unused : (dflFeatureDevUseEnd dma.fdata).openCount = 0
      · rw [if_pos unused]
        have destroyed :=
          held.destroy ops
            (plain.1 ((useEnd_openCount_eq_zero_iff _).mp unused))
        rw [afuDmaRegionDestroy_eq] at destroyed ⊢
        exact ⟨destroyed.held, fun _ => rfl⟩
      · rw [if_neg unused]
        have used :=
          BitVec.not_le.mp (mt (useEnd_openCount_eq_zero_iff _).mpr unused)
        refine ⟨held.held, ?_⟩
        rintro (closed | gone)
        · have last : dma.files - 1 = 0 := closed
          exact plain.2 used (by omega)
        · exact absurd (bound.symm.trans gone) (by decide)
  | dmaMap request =>
      obtain ⟨bound, isOpen, returns⟩ := step
      exact held.request bound isOpen (afuIoctlDmaMap_keepsMappings returns)
  | dmaUnmap request =>
      obtain ⟨bound, isOpen, rfl⟩ := step
      exact held.request bound isOpen
        (afuIoctlDmaUnmap_keepsMappings request dma)
  | remove =>
      obtain ⟨bound, rfl⟩ := step
      have destroyed := held.destroy ops plain
      unfold afuDevDestroy
      rw [afuDmaRegionDestroy_eq] at destroyed ⊢
      exact ⟨destroyed.held, fun _ => rfl⟩

theorem MappingsHeld.lost {dma next : AfuDma} {op : AfuOp}
    (held : MappingsHeld dma) (other : ¬ DestroysPlain dma op)
    (step : dma.Step ops op next) : ¬ MappingsMatched next := by
  cases op with
  | openFile | dmaMap | dmaUnmap => exact absurd trivial other
  | release =>
      obtain ⟨-, -, rfl⟩ := step
      by_cases unused : (dflFeatureDevUseEnd dma.fdata).openCount = 0
      · have last := (useEnd_openCount_eq_zero_iff _).mp unused
        have notPlain : ¬ PlainMappings dma := fun plain =>
          other ⟨fun _ => plain, fun more => absurd last (BitVec.not_le.mpr more)⟩
        refine not_matched_of_destroy held notPlain ?_ ?_
        · rw [afuRelease, if_pos unused, afuDmaRegionDestroy_eq]
        · rw [afuRelease, if_pos unused, afuDmaRegionDestroy_eq]
      · have more := mt (useEnd_openCount_eq_zero_iff _).mpr unused
        rw [afuRelease, if_neg unused]
        intro matched
        refine other ⟨fun last => absurd last more, fun _ last => ?_⟩
        have closed : dma.files - 1 = 0 := by omega
        exact held.held.eq_nil (matched.closed (Or.inl closed))
  | remove =>
      obtain ⟨-, rfl⟩ := step
      refine not_matched_of_destroy held other ?_ ?_
      · rw [afuDevDestroy, afuDmaRegionDestroy_eq]
      · rw [afuDevDestroy, afuDmaRegionDestroy_eq]

end Runs

/-- A port which is not open. -/
def closedPort : FeatureDevData := ⟨0, some 0, 0, false, 0, []⟩

/-- Answers to a request for one page, which is mapped at the address. -/
def onePageAnswers (iova : BitVec 64) : MapAnswers :=
  ⟨true, none, true, .ok [7], some iova⟩

/-- A file is opened, maps a page with the flags, and is closed. -/
def mapAndClose (flags : BitVec 32) : List AfuOp :=
  [.openFile false,
    .dmaMap ⟨true, 32, flags, 0x1000, 0x1000, onePageAnswers 0x2000, true⟩,
    .release]

end LinuxDfl.Afu
