import Mathlib.Data.List.Induction
import LinuxDfl.Kernel.Errno
import LinuxDfl.Kernel.Page
import LinuxDfl.Lib.Extents

/-!
# MMIO regions of an accelerated function unit

The regions which a user may map, in the order of the device file: each one
begins at the page behind the one which was added before it.
-/

namespace LinuxDfl.Afu

open LinuxDfl.Kernel
open LinuxDfl.Lib.Extents

/-! ## The table -/

/-- `struct dfl_afu_mmio_region` -/
structure DflAfuMmioRegion where
  index : BitVec 32
  flags : BitVec 32
  size : BitVec 64
  offset : BitVec 64
  phys : BitVec 64
  deriving DecidableEq, Repr

/-- The fields of `struct dfl_afu` which are about MMIO regions. -/
structure AfuMmio where
  regionCurOffset : BitVec 64
  /-- An `int`. -/
  numRegions : BitVec 32
  /-- The last region which was added comes first. -/
  regions : List DflAfuMmioRegion
  deriving DecidableEq, Repr

/-- `get_region_by_index` -/
def getRegionByIndex (afu : AfuMmio) (regionIndex : BitVec 32) :
    Option DflAfuMmioRegion :=
  afu.regions.find? fun region => region.index = regionIndex

/-- The arguments of `afu_mmio_region_add`, and what its allocation answers. -/
structure MmioRegionRequest where
  regionIndex : BitVec 32
  regionSize : BitVec 64
  phys : BitVec 64
  flags : BitVec 32
  kzalloc : Bool

/-- The state in which the region has been added. -/
def AfuMmio.append (afu : AfuMmio) (request : MmioRegionRequest) : AfuMmio where
  regionCurOffset := afu.regionCurOffset + pageAlign request.regionSize
  numRegions := afu.numRegions + 1
  regions :=
    { index := request.regionIndex
      flags := request.flags
      size := request.regionSize
      offset := afu.regionCurOffset
      phys := request.phys } :: afu.regions

/-- `afu_mmio_region_add` -/
def afuMmioRegionAdd (request : MmioRegionRequest) (afu : AfuMmio) :
    Option Errno × AfuMmio :=
  if !request.kzalloc then
    (some .enomem, afu)
  else
    match getRegionByIndex afu request.regionIndex with
    | some _ => (some .eexist, afu)
    | none => (none, afu.append request)

/-- `afu_mmio_region_get_by_offset` -/
def afuMmioRegionGetByOffset (afu : AfuMmio) (offset size : BitVec 64) :
    Except Errno DflAfuMmioRegion :=
  let contains (region : DflAfuMmioRegion) : Bool :=
    region.offset ≤ offset && offset + size ≤ region.offset + region.size
  match afu.regions.find? contains with
  | some region => .ok region
  | none => .error .einval

/-- The private data of an AFU after `kzalloc` and `afu_mmio_region_init`. -/
def afuMmioRegionInit : AfuMmio := ⟨0, 0, []⟩

/-- The table after these calls of `afu_mmio_region_add`. -/
def mmioRegionsOf (requests : List MmioRegionRequest) : AfuMmio :=
  requests.foldl (fun afu request => (afuMmioRegionAdd request afu).2)
    afuMmioRegionInit

theorem mmioRegionsOf_append (requests : List MmioRegionRequest)
    (last : MmioRegionRequest) :
    mmioRegionsOf (requests ++ [last]) =
      (afuMmioRegionAdd last (mmioRegionsOf requests)).2 := by
  rw [mmioRegionsOf, List.foldl_append]
  rfl

/-! ## Adding regions -/

theorem getRegionByIndex_eq_none_iff {afu : AfuMmio}
    {regionIndex : BitVec 32} :
    getRegionByIndex afu regionIndex = none ↔
      ∀ region ∈ afu.regions, region.index ≠ regionIndex := by
  simp [getRegionByIndex]

/-- A region is added, or nothing is changed. -/
theorem afuMmioRegionAdd_cases (request : MmioRegionRequest)
    (afu : AfuMmio) :
    (∃ ret, afuMmioRegionAdd request afu = (some ret, afu)) ∨
      (∀ region ∈ afu.regions, region.index ≠ request.regionIndex) ∧
        request.kzalloc = true ∧
          afuMmioRegionAdd request afu = (none, afu.append request) := by
  unfold afuMmioRegionAdd
  split_ifs with noMemory
  · exact .inl ⟨_, rfl⟩
  · cases known : getRegionByIndex afu request.regionIndex with
    | some region => exact .inl ⟨_, rfl⟩
    | none =>
        refine .inr ⟨getRegionByIndex_eq_none_iff.mp known, ?_, rfl⟩
        simpa using noMemory

/-- What is refused changes nothing. -/
theorem afuMmioRegionAdd_refused {request : MmioRegionRequest}
    {afu : AfuMmio} (refused : (afuMmioRegionAdd request afu).1 ≠ none) :
    (afuMmioRegionAdd request afu).2 = afu := by
  rcases afuMmioRegionAdd_cases request afu with ⟨ret, adds⟩ | ⟨-, -, adds⟩
  · rw [adds]
  · rw [adds] at refused
    exact absurd rfl refused

/-- An index which is in use is refused. -/
theorem afuMmioRegionAdd_duplicate {request : MmioRegionRequest}
    {afu : AfuMmio} {region : DflAfuMmioRegion}
    (member : region ∈ afu.regions)
    (duplicate : region.index = request.regionIndex) :
    (afuMmioRegionAdd request afu).1 ≠ none := by
  rcases afuMmioRegionAdd_cases request afu with ⟨ret, adds⟩ | ⟨fresh, -, -⟩
  · rw [adds]
    exact Option.some_ne_none ret
  · exact absurd duplicate (fresh region member)

/-! ## The layout -/

/-- The offsets which a region takes. -/
def DflAfuMmioRegion.extent (region : DflAfuMmioRegion) : Extent :=
  ⟨region.offset.toNat, region.size.toNat⟩

/-- The sizes of the regions, each rounded up to whole pages. -/
def AfuMmio.total (afu : AfuMmio) : Nat :=
  (afu.regions.map fun region => wholePages region.size.toNat).sum

/-- Offsets are aligned, whatever the sizes. -/
structure AfuMmio.Aligned (afu : AfuMmio) : Prop where
  next : afu.regionCurOffset.toNat % pageSize = 0
  regions :
    ∀ region ∈ afu.regions, region.offset.toNat % pageSize = 0

/-- The indexes and the counter do not depend on the sizes either. -/
structure AfuMmio.Indexed (afu : AfuMmio) : Prop where
  numRegions : afu.numRegions = BitVec.ofNat 32 afu.regions.length
  indexes :
    afu.regions.Pairwise fun first second => first.index ≠ second.index

/-- Regions lie below the next offset, which their sizes add up to. -/
structure AfuMmio.LaidOut (afu : AfuMmio) : Prop where
  next : afu.regionCurOffset.toNat = afu.total
  below :
    ∀ region ∈ afu.regions,
      region.extent.limit ≤ afu.regionCurOffset.toNat
  apart : PairwiseApart DflAfuMmioRegion.extent afu.regions

theorem AfuMmio.Aligned.append {afu : AfuMmio} (aligned : afu.Aligned)
    (request : MmioRegionRequest) : (afu.append request).Aligned where
  next := by
    have current := aligned.next
    have added := pageAlign_mod request.regionSize
    show (afu.regionCurOffset + pageAlign request.regionSize).toNat % _ = 0
    unfold pageSize pageShift at *
    rw [BitVec.toNat_add]
    omega
  regions region member := by
    rcases List.mem_cons.mp member with rfl | isOld
    · exact aligned.next
    · exact aligned.regions region isOld

theorem AfuMmio.Indexed.append {afu : AfuMmio} (indexed : afu.Indexed)
    {request : MmioRegionRequest}
    (fresh :
      ∀ region ∈ afu.regions, region.index ≠ request.regionIndex) :
    (afu.append request).Indexed where
  numRegions := by
    show afu.numRegions + 1 = BitVec.ofNat 32 (afu.regions.length + 1)
    rw [indexed.numRegions, BitVec.ofNat_add]
    rfl
  indexes :=
    List.pairwise_cons.mpr
      ⟨fun region member => (fresh region member).symm, indexed.indexes⟩

theorem AfuMmio.LaidOut.append {afu : AfuMmio} (laidOut : afu.LaidOut)
    {request : MmioRegionRequest}
    (fits : (afu.append request).total < 2 ^ 64) :
    (afu.append request).LaidOut := by
  have total :
      (afu.append request).total =
        wholePages request.regionSize.toNat + afu.total :=
    List.sum_cons
  rw [total] at fits
  have rounded : (pageAlign request.regionSize).toNat =
      wholePages request.regionSize.toNat := pageAlign_toNat (by omega)
  have current := laidOut.next
  have next :
      (afu.regionCurOffset + pageAlign request.regionSize).toNat =
        afu.regionCurOffset.toNat +
          wholePages request.regionSize.toNat := by
    rw [BitVec.toNat_add, rounded, Nat.mod_eq_of_lt (by omega)]
  have room := le_wholePages request.regionSize.toNat
  refine ⟨?_, fun region member => ?_, ?_⟩
  · show (afu.regionCurOffset + pageAlign request.regionSize).toNat = _
    rw [next, total, current, Nat.add_comm]
  · show region.extent.limit ≤
      (afu.regionCurOffset + pageAlign request.regionSize).toNat
    rw [next]
    rcases List.mem_cons.mp member with rfl | isOld
    · exact Nat.add_le_add_left room _
    · exact Nat.le_add_right_of_le (laidOut.below region isOld)
  · refine List.pairwise_cons.mpr ⟨fun region isOld => ?_, laidOut.apart⟩
    exact (Extent.apart_of_limit_le (laidOut.below region isOld)).symm

/-! ## Sequences of calls -/

/-- What adding a region keeps is kept by every sequence of calls. -/
theorem mmioRegionsOf_induction (holds : AfuMmio → Prop)
    (initial : holds afuMmioRegionInit)
    (append : ∀ afu request, holds afu →
      (∀ region ∈ afu.regions, region.index ≠ request.regionIndex) →
        holds (afu.append request))
    (requests : List MmioRegionRequest) : holds (mmioRegionsOf requests) := by
  induction requests using List.reverseRecOn with
  | nil => exact initial
  | append_singleton requests last ih =>
      rw [mmioRegionsOf_append]
      rcases afuMmioRegionAdd_cases last (mmioRegionsOf requests) with
        ⟨ret, adds⟩ | ⟨fresh, -, adds⟩
      · rw [adds]
        exact ih
      · rw [adds]
        exact append _ last ih fresh

theorem mmioRegionsOf_aligned (requests : List MmioRegionRequest) :
    (mmioRegionsOf requests).Aligned :=
  mmioRegionsOf_induction AfuMmio.Aligned
    ⟨rfl, fun _ member => absurd member List.not_mem_nil⟩
    (fun _ request aligned _ => aligned.append request) requests

theorem mmioRegionsOf_indexed (requests : List MmioRegionRequest) :
    (mmioRegionsOf requests).Indexed :=
  mmioRegionsOf_induction AfuMmio.Indexed ⟨rfl, List.Pairwise.nil⟩
    (fun _ _ indexed fresh => indexed.append fresh) requests

theorem mmioRegionsOf_laidOut (requests : List MmioRegionRequest)
    (fits : (mmioRegionsOf requests).total < 2 ^ 64) :
    (mmioRegionsOf requests).LaidOut := by
  refine mmioRegionsOf_induction
    (fun afu => afu.total < 2 ^ 64 → afu.LaidOut) ?_ ?_ requests fits
  · exact fun _ =>
      ⟨rfl, fun _ member => absurd member List.not_mem_nil,
        List.Pairwise.nil⟩
  · intro afu request laidOut _ fits
    refine (laidOut ?_).append fits
    have total :
        (afu.append request).total =
          wholePages request.regionSize.toNat + afu.total :=
      List.sum_cons
    omega

/-! ## Looking up regions -/

/-- What is looked up is a region of the table which passes the check. -/
theorem afuMmioRegionGetByOffset_ok {afu : AfuMmio} {offset size : BitVec 64}
    {region : DflAfuMmioRegion}
    (found : afuMmioRegionGetByOffset afu offset size = .ok region) :
    region ∈ afu.regions ∧ region.offset ≤ offset ∧
      offset + size ≤ region.offset + region.size := by
  unfold afuMmioRegionGetByOffset at found
  dsimp only at found
  split at found
  · rename_i other finds
    obtain rfl := Except.ok.inj found
    have checks := List.find?_some finds
    rw [Bool.and_eq_true, decide_eq_true_iff, decide_eq_true_iff] at checks
    exact ⟨List.mem_of_find?_eq_some finds, checks⟩
  · cases found

/-- There is a region whenever one passes the check. -/
theorem afuMmioRegionGetByOffset_of_check {afu : AfuMmio}
    {offset size : BitVec 64} {region : DflAfuMmioRegion}
    (member : region ∈ afu.regions) (first : region.offset ≤ offset)
    (last : offset + size ≤ region.offset + region.size) :
    ∃ found, afuMmioRegionGetByOffset afu offset size = .ok found := by
  unfold afuMmioRegionGetByOffset
  dsimp only
  split
  · exact ⟨_, rfl⟩
  · rename_i none
    have fails := List.find?_eq_none.mp none region member
    simp [first, last] at fails

/-- The check of a region without a carry. -/
theorem AfuMmio.LaidOut.check_iff {afu : AfuMmio} (laidOut : afu.LaidOut)
    {region : DflAfuMmioRegion} (member : region ∈ afu.regions)
    {offset size : BitVec 64} (fits : offset.toNat + size.toNat < 2 ^ 64) :
    (region.offset ≤ offset ∧
        offset + size ≤ region.offset + region.size) ↔
      Extent.Within ⟨offset.toNat, size.toNat⟩ region.extent := by
  have below := laidOut.below region member
  have bound := afu.regionCurOffset.isLt
  have limit :
      (region.offset + region.size).toNat = region.extent.limit := by
    rw [BitVec.toNat_add, Nat.mod_eq_of_lt]
    · rfl
    · exact Nat.lt_of_le_of_lt below bound
  rw [BitVec.le_def, BitVec.le_def, limit, BitVec.toNat_add,
    Nat.mod_eq_of_lt fits]
  rfl

/-- A lookup finds the one region in which the range lies. -/
theorem AfuMmio.LaidOut.getByOffset_iff {afu : AfuMmio}
    (laidOut : afu.LaidOut) {offset size : BitVec 64} (nonempty : size ≠ 0)
    (fits : offset.toNat + size.toNat < 2 ^ 64) (region : DflAfuMmioRegion) :
    afuMmioRegionGetByOffset afu offset size = .ok region ↔
      region ∈ afu.regions ∧
        Extent.Within ⟨offset.toNat, size.toNat⟩ region.extent := by
  have finds {found : DflAfuMmioRegion}
      (isFound : afuMmioRegionGetByOffset afu offset size = .ok found) :
      found ∈ afu.regions ∧
        Extent.Within ⟨offset.toNat, size.toNat⟩ found.extent := by
    obtain ⟨member, checks⟩ := afuMmioRegionGetByOffset_ok isFound
    exact ⟨member, (laidOut.check_iff member fits).mp checks⟩
  refine ⟨finds, fun ⟨member, within⟩ => ?_⟩
  obtain ⟨first, last⟩ := (laidOut.check_iff member fits).mpr within
  obtain ⟨found, isFound⟩ :=
    afuMmioRegionGetByOffset_of_check member first last
  have notEmpty : size.toNat ≠ 0 := fun zero =>
    nonempty (BitVec.eq_of_toNat_eq zero)
  rw [isFound]
  exact congrArg Except.ok
    (laidOut.apart.unique notEmpty (finds isFound).1 member
      (finds isFound).2 within)

/-! ## The table as a whole -/

/-- What holds of the regions after a sequence of calls. -/
structure AfuMmio.Sound (afu : AfuMmio) : Prop where
  indexes :
    afu.regions.Pairwise fun first second => first.index ≠ second.index
  aligned : ∀ region ∈ afu.regions, pageAligned region.offset = true
  apart : PairwiseApart DflAfuMmioRegion.extent afu.regions
  duplicate : ∀ request, ∀ region ∈ afu.regions,
    region.index = request.regionIndex → (afuMmioRegionAdd request afu).1 ≠ none
  refused : ∀ request, (afuMmioRegionAdd request afu).1 ≠ none →
    (afuMmioRegionAdd request afu).2 = afu
  lookup : ∀ offset size : BitVec 64, size ≠ 0 →
    offset.toNat + size.toNat < 2 ^ 64 → ∀ region,
      afuMmioRegionGetByOffset afu offset size = .ok region ↔
        region ∈ afu.regions ∧
          Extent.Within ⟨offset.toNat, size.toNat⟩ region.extent

/-- The counter is that of an `int`. -/
theorem AfuMmio.Indexed.numRegions_iff {afu : AfuMmio}
    (indexed : afu.Indexed) :
    afu.numRegions.toInt = afu.regions.length ↔
      afu.regions.length < 2 ^ 31 := by
  rw [indexed.numRegions, BitVec.toInt_ofNat']
  constructor
  · intro counts
    have below :
        (afu.regions.length : Int).bmod (2 ^ 32) < (2 ^ 32 + 1) / 2 :=
      Int.bmod_lt (by decide)
    omega
  · intro small
    exact Int.bmod_eq_of_le (by omega) (by omega)

/--
While the rounded sizes add up to an offset, regions are kept apart and found,
and their number is counted as long as an `int` can hold it.
-/
theorem mmio_regions_sound (requests : List MmioRegionRequest)
    (fits : (mmioRegionsOf requests).total < 2 ^ 64) :
    (mmioRegionsOf requests).Sound ∧
      ((mmioRegionsOf requests).numRegions.toInt =
          (mmioRegionsOf requests).regions.length ↔
        (mmioRegionsOf requests).regions.length < 2 ^ 31) := by
  have laidOut := mmioRegionsOf_laidOut requests fits
  have indexed := mmioRegionsOf_indexed requests
  refine ⟨?_, indexed.numRegions_iff⟩
  exact
    { indexes := indexed.indexes
      aligned := fun region member =>
        decide_eq_true ((mmioRegionsOf_aligned requests).regions region member)
      apart := laidOut.apart
      duplicate := fun _ _ member => afuMmioRegionAdd_duplicate member
      refused := fun _ => afuMmioRegionAdd_refused
      lookup := fun _ _ nonempty fits =>
        laidOut.getByOffset_iff nonempty fits }

/-- A region of this size, with nothing in the way of its being added. -/
def mmioRequest (regionIndex : BitVec 32) (regionSize : BitVec 64) :
    MmioRegionRequest :=
  ⟨regionIndex, regionSize, 0x10000000, 7, true⟩

theorem two_mmio_regions_sound :
    (mmioRegionsOf [mmioRequest 0 0x1800, mmioRequest 1 0x1000]).Sound ∧
      ((mmioRegionsOf
            [mmioRequest 0 0x1800, mmioRequest 1 0x1000]).numRegions.toInt =
          2 ↔ 2 < 2 ^ 31) :=
  mmio_regions_sound [mmioRequest 0 0x1800, mmioRequest 1 0x1000] (by decide)

/-- Regions without any bytes, one for each index below the number. -/
def emptyRegions (count : Nat) : List MmioRegionRequest :=
  (List.range count).map fun index => mmioRequest (BitVec.ofNat 32 index) 0

theorem emptyRegions_succ (count : Nat) :
    emptyRegions (count + 1) =
      emptyRegions count ++ [mmioRequest (BitVec.ofNat 32 count) 0] := by
  rw [emptyRegions, List.range_succ, List.map_append]
  rfl

/-- All of them are added. -/
theorem mmioRegionsOf_emptyRegions {count : Nat} (bound : count ≤ 2 ^ 32) :
    (mmioRegionsOf (emptyRegions count)).regions.length = count ∧
      (mmioRegionsOf (emptyRegions count)).total = 0 ∧
        ∀ region ∈ (mmioRegionsOf (emptyRegions count)).regions,
          region.index.toNat < count := by
  induction count with
  | zero => exact ⟨rfl, rfl, fun _ member => absurd member List.not_mem_nil⟩
  | succ count ih =>
      obtain ⟨length, total, indexes⟩ := ih (by omega)
      have index : (BitVec.ofNat 32 count).toNat = count := by
        rw [BitVec.toNat_ofNat, Nat.mod_eq_of_lt (by omega)]
      rw [emptyRegions_succ, mmioRegionsOf_append]
      have fresh : getRegionByIndex (mmioRegionsOf (emptyRegions count))
          (BitVec.ofNat 32 count) = none := by
        refine getRegionByIndex_eq_none_iff.mpr fun region member same => ?_
        have below := indexes region member
        rw [same, index] at below
        exact absurd below (Nat.lt_irrefl _)
      have adds : (afuMmioRegionAdd (mmioRequest (BitVec.ofNat 32 count) 0)
          (mmioRegionsOf (emptyRegions count))).2 =
            (mmioRegionsOf (emptyRegions count)).append
              (mmioRequest (BitVec.ofNat 32 count) 0) := by
        unfold afuMmioRegionAdd mmioRequest
        dsimp only
        rw [fresh]
        rfl
      rw [adds]
      refine ⟨congrArg Nat.succ length, ?_, fun region member => ?_⟩
      · show (List.map _ (_ :: _)).sum = 0
        rw [List.map_cons, List.sum_cons]
        show wholePages 0 + _ = 0
        rw [show wholePages 0 = 0 from rfl, Nat.zero_add]
        exact total
      · rcases List.mem_cons.mp member with rfl | isOld
        · show (BitVec.ofNat 32 count).toNat < count + 1
          omega
        · exact Nat.lt_succ_of_lt (indexes region isOld)

/-- The counter turns negative with as many regions as an `int` cannot hold. -/
theorem uncounted_mmio_regions :
    let afu := mmioRegionsOf (emptyRegions (2 ^ 31))
    afu.total < 2 ^ 64 ∧ afu.numRegions.toInt ≠ afu.regions.length := by
  intro afu
  obtain ⟨length, total, -⟩ :=
    mmioRegionsOf_emptyRegions (show 2 ^ 31 ≤ 2 ^ 32 by decide)
  refine ⟨?_, fun counts => ?_⟩
  · show (mmioRegionsOf (emptyRegions (2 ^ 31))).total < 2 ^ 64
    rw [total]
    decide
  · have below := (mmioRegionsOf_indexed _).numRegions_iff.mp counts
    rw [length] at below
    exact absurd below (by decide)

end LinuxDfl.Afu
