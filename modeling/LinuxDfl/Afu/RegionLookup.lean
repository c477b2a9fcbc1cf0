import Mathlib.Data.Multiset.AddSub
import LinuxDfl.Afu.DmaRegion
import LinuxDfl.Lib.Extents
import LinuxDfl.Lib.Transition

/-!
# Finding DMA regions

The tree of regions while regions which share no address are added and
removed: it holds what has been added and not been removed, and a search by
address finds the one region which contains the area.
-/

namespace LinuxDfl.Afu

open LinuxDfl.Kernel
open LinuxDfl.Lib.SearchTree
open LinuxDfl.Lib.Extents
open LinuxDfl.Lib.Transition

/-! ## Regions -/

/-- The DMA addresses of a region. -/
def DflAfuDmaRegion.extent (region : DflAfuDmaRegion) : Extent :=
  ⟨region.iova.toNat, region.length.toNat⟩

/-- The region is not empty, and does not wrap around. -/
structure DflAfuDmaRegion.Proper (region : DflAfuDmaRegion) : Prop where
  nonempty : region.length ≠ 0
  bounded : region.extent.limit < 2 ^ 64

theorem DflAfuDmaRegion.Proper.size_ne_zero {region : DflAfuDmaRegion}
    (proper : region.Proper) : region.extent.size ≠ 0 := by
  intro zero
  exact proper.nonempty (BitVec.eq_of_toNat_eq zero)

/-- The area fits into the addresses. -/
def AreaFits (iova size : BitVec 64) : Prop :=
  iova.toNat + size.toNat < 2 ^ 64

/-- The check of a region without a carry. -/
theorem dmaRegionCheckIova_iff {region : DflAfuDmaRegion}
    (proper : region.Proper) {iova size : BitVec 64}
    (fits : AreaFits iova size) :
    dmaRegionCheckIova region iova size = true ↔
      (size = 0 → region.iova = iova) ∧
        Extent.Within ⟨iova.toNat, size.toNat⟩ region.extent := by
  have limit : (iova + size).toNat = iova.toNat + size.toNat := by
    rw [BitVec.toNat_add, Nat.mod_eq_of_lt fits]
  have regionLimit :
      (region.length + region.iova).toNat = region.extent.limit := by
    have bounded := proper.bounded
    unfold DflAfuDmaRegion.extent Extent.limit at bounded ⊢
    rw [BitVec.toNat_add, Nat.add_comm, Nat.mod_eq_of_lt bounded]
  have within :
      (region.iova ≤ iova && iova + size ≤ region.length + region.iova) =
          true ↔
        Extent.Within ⟨iova.toNat, size.toNat⟩ region.extent := by
    rw [Bool.and_eq_true, decide_eq_true_iff, decide_eq_true_iff,
      BitVec.le_def, BitVec.le_def, limit, regionLimit]
    rfl
  unfold dmaRegionCheckIova
  split_ifs with elsewhere
  · refine iff_of_false (by decide) fun holds => ?_
    exact elsewhere.2 (holds.1 elsewhere.1)
  · rw [within]
    refine ⟨fun holds => ⟨fun zero => ?_, holds⟩, And.right⟩
    by_contra different
    exact elsewhere ⟨zero, different⟩

/-- A region which the check finds has the first address of the area. -/
theorem covers_of_check {region : DflAfuDmaRegion} (proper : region.Proper)
    {iova size : BitVec 64} (fits : AreaFits iova size)
    (checks : dmaRegionCheckIova region iova size = true) :
    region.extent.Covers iova.toNat := by
  obtain ⟨starts, first, last⟩ := (dmaRegionCheckIova_iff proper fits).mp checks
  refine ⟨first, ?_⟩
  by_cases zero : size = 0
  · have nonempty := proper.size_ne_zero
    rw [← starts zero]
    show region.extent.start < region.extent.start + region.extent.size
    omega
  · have positive : size.toNat ≠ 0 := fun isZero =>
      zero (BitVec.eq_of_toNat_eq isZero)
    unfold Extent.limit at last ⊢
    dsimp only at last
    omega

/-- The way to an address turns towards the region which has it. -/
theorem turnsTowards_of_covers {sought other : DflAfuDmaRegion}
    (otherProper : other.Proper) (apart : sought.extent.Apart other.extent)
    {iova : BitVec 64} (covers : sought.extent.Covers iova.toNat) :
    TurnsTowards DflAfuDmaRegion.key
      (turnTo DflAfuDmaRegion.key iova.toNat) sought other := by
  have otherNonempty := otherProper.size_ne_zero
  have above : sought.key ≤ iova.toNat := covers.1
  have notOther := apart iova.toNat covers
  have outside : iova.toNat < other.key ∨ other.extent.limit ≤ iova.toNat := by
    by_contra inside
    rw [not_or, Nat.not_lt, Nat.not_le] at inside
    exact notOther inside
  unfold TurnsTowards
  cases turns : turnTo DflAfuDmaRegion.key iova.toNat other with
  | left =>
      have below := turnTo_left.mp turns
      show sought.key < other.key
      omega
  | right =>
      have beyond := turnTo_right.mp turns
      have ends : other.extent.limit ≤ iova.toNat := by omega
      show other.key < sought.key
      by_contra before
      -- otherwise the sought region would have the start of the other one
      refine apart other.key ⟨Nat.le_of_not_lt before, ?_⟩ ⟨?_, ?_⟩
      · exact Nat.lt_trans beyond covers.2
      · exact Nat.le_refl _
      · show other.extent.start < other.extent.start + other.extent.size
        omega
  | stop =>
      have here : iova.toNat = other.key := by
        unfold turnTo at turns
        split_ifs at turns with below beyond
        omega
      refine notOther ⟨Nat.le_of_eq here.symm, ?_⟩
      rw [here]
      show other.extent.start < other.extent.start + other.extent.size
      omega

/-! ## Searching -/

/-- Regions which are ordered by address, and share none. -/
structure RegionTree (regions : RbTree DflAfuDmaRegion) : Prop where
  sorted : Sorted DflAfuDmaRegion.key regions
  proper : ∀ region ∈ regions.inorder, region.Proper
  apart : PairwiseApart DflAfuDmaRegion.extent regions.inorder

theorem RegionTree.empty : RegionTree .nil :=
  ⟨sorted_nil, fun _ member => absurd member List.not_mem_nil,
    List.Pairwise.nil⟩

/-- A search finds the region which passes the check. -/
theorem RegionTree.find_check_iff {regions : RbTree DflAfuDmaRegion}
    (tree : RegionTree regions) {iova size : BitVec 64}
    (fits : AreaFits iova size) (region : DflAfuDmaRegion) :
    (afuDmaRegionFind iova size regions).map Prod.snd = some region ↔
      region ∈ regions.inorder ∧
        dmaRegionCheckIova region iova size = true := by
  refine tree.sorted.find_iff (fun sought isSought checks other isOther
    different => ?_) region
  have covers := covers_of_check (tree.proper sought isSought) fits checks
  have apart := tree.apart.of_ne isSought isOther (Ne.symm different)
  have otherProper := tree.proper other isOther
  refine ⟨?_, turnsTowards_of_covers otherProper apart covers⟩
  by_contra otherChecks
  rw [Bool.not_eq_false] at otherChecks
  exact apart iova.toNat covers (covers_of_check otherProper fits otherChecks)

/-- An area which is not empty is found in the region which contains it. -/
theorem RegionTree.find_area_iff {regions : RbTree DflAfuDmaRegion}
    (tree : RegionTree regions) {iova size : BitVec 64} (nonempty : size ≠ 0)
    (fits : AreaFits iova size) (region : DflAfuDmaRegion) :
    (afuDmaRegionFind iova size regions).map Prod.snd = some region ↔
      region ∈ regions.inorder ∧
        Extent.Within ⟨iova.toNat, size.toNat⟩ region.extent := by
  rw [tree.find_check_iff fits]
  refine and_congr_right fun member => ?_
  rw [dmaRegionCheckIova_iff (tree.proper region member) fits]
  exact and_iff_right fun zero => absurd zero nonempty

/-- An address is found in the region which starts there. -/
theorem RegionTree.find_start_iff {regions : RbTree DflAfuDmaRegion}
    (tree : RegionTree regions) (iova : BitVec 64)
    (region : DflAfuDmaRegion) :
    (afuDmaRegionFindIova iova regions).map Prod.snd = some region ↔
      region ∈ regions.inorder ∧ region.iova = iova := by
  have fits : AreaFits iova 0 := iova.isLt
  rw [afuDmaRegionFindIova, tree.find_check_iff fits]
  refine and_congr_right fun member => ?_
  rw [dmaRegionCheckIova_iff (tree.proper region member) fits]
  constructor
  · exact fun holds => holds.1 rfl
  · intro starts
    refine ⟨fun _ => starts, ?_⟩
    unfold Extent.Within Extent.limit DflAfuDmaRegion.extent
    rw [starts]
    exact ⟨Nat.le_refl _, Nat.add_le_add_left (Nat.zero_le _) _⟩

/-! ## Adding and removing -/

/-- The region shares no address with those of the tree. -/
structure Addable (region : DflAfuDmaRegion)
    (regions : List DflAfuDmaRegion) : Prop where
  proper : region.Proper
  apart : ∀ other ∈ regions, region.extent.Apart other.extent

section Tree

variable {ops : Balancing DflAfuDmaRegion}
  {regions : RbTree DflAfuDmaRegion} {region : DflAfuDmaRegion}

/-- Such a region is never refused. -/
theorem RegionTree.add_succeeds (tree : RegionTree regions)
    (ops : Balancing DflAfuDmaRegion)
    (addable : Addable region regions.inorder) :
    ∃ added, afuDmaRegionAdd ops region regions = some added := by
  have passes : ∀ other ∈ regions.inorder,
      dmaRegionCheckIova other region.iova region.length = false ∧
        turnTo DflAfuDmaRegion.key region.key other ≠ .stop := by
    intro other isOther
    have otherProper := tree.proper other isOther
    have apart := addable.apart other isOther
    have nonempty := addable.proper.size_ne_zero
    have covers : region.extent.Covers region.iova.toNat := by
      refine ⟨Nat.le_refl _, ?_⟩
      show region.extent.start < region.extent.start + region.extent.size
      omega
    constructor
    · by_contra checks
      rw [Bool.not_eq_false] at checks
      exact apart _ covers
        (covers_of_check otherProper addable.proper.bounded checks)
    · intro stops
      have turns := turnsTowards_of_covers otherProper apart covers
      unfold TurnsTowards at turns
      rw [show region.iova.toNat = region.key from rfl, stops] at turns
      exact turns
  obtain ⟨linked, links⟩ := RbTree.link_isSome region passes
  exact ⟨ops.insertColor linked, by rw [afuDmaRegionAdd, links]; rfl⟩

theorem RegionTree.add (tree : RegionTree regions)
    (addable : Addable region regions.inorder)
    {added : RbTree DflAfuDmaRegion}
    (adds : afuDmaRegionAdd ops region regions = some added) :
    RegionTree added := by
  have perm := afuDmaRegionAdd_perm adds
  refine ⟨?_, fun other isOther => ?_, ?_⟩
  · unfold afuDmaRegionAdd at adds
    obtain ⟨linked, links, rfl⟩ := Option.map_eq_some_iff.mp adds
    exact ops.sorted_insertColor (tree.sorted.link links)
  · rcases List.mem_cons.mp (perm.mem_iff.mp isOther) with rfl | isOld
    · exact addable.proper
    · exact tree.proper other isOld
  · refine PairwiseApart.perm ?_ perm.symm
    exact List.pairwise_cons.mpr ⟨addable.apart, tree.apart⟩

theorem RegionTree.remove (tree : RegionTree regions) (place : Nat) :
    RegionTree (afuDmaRegionRemove ops place regions) := by
  have fewer :
      (afuDmaRegionRemove ops place regions).inorder.Sublist
        regions.inorder := by
    rw [afuDmaRegionRemove, ops.inorder_erase]
    exact List.eraseIdx_sublist _ _
  exact
    ⟨ops.sorted_erase tree.sorted place,
      fun other isOther => tree.proper other (fewer.subset isOther),
      tree.apart.sublist fewer⟩

end Tree

/-! ## Sequences -/

/-- The tree, with the regions which have been added and not been removed. -/
structure RegionTable where
  regions : RbTree DflAfuDmaRegion
  live : Multiset DflAfuDmaRegion

inductive RegionOp where
  | add (region : DflAfuDmaRegion)
  | remove (region : DflAfuDmaRegion)

/-- One operation; a region is removed by its node in the tree. -/
def RegionTable.Step (ops : Balancing DflAfuDmaRegion) (table : RegionTable) :
    RegionOp → RegionTable → Prop
  | .add region, next =>
      next =
        ⟨(afuDmaRegionAdd ops region table.regions).getD table.regions,
          region ::ₘ table.live⟩
  | .remove region, next =>
      ∃ place, table.regions.inorder[place]? = some region ∧
        next =
          ⟨afuDmaRegionRemove ops place table.regions,
            table.live.erase region⟩

/-- A region which is added is proper, and apart from all which are live. -/
def RegionTable.KeepsApart (table : RegionTable) : RegionOp → Prop
  | .add region =>
      region.Proper ∧
        ∀ other ∈ table.live, region.extent.Apart other.extent
  | .remove _ => True

/-- The tree holds what is live, and searches find it. -/
structure RegionTable.Sound (table : RegionTable) : Prop where
  sorted : Sorted DflAfuDmaRegion.key table.regions
  live : (table.regions.inorder : Multiset DflAfuDmaRegion) = table.live
  nodup : table.live.Nodup
  area : ∀ iova size : BitVec 64, size ≠ 0 → AreaFits iova size →
    ∀ region,
      (afuDmaRegionFind iova size table.regions).map Prod.snd = some region ↔
        region ∈ table.live ∧
          Extent.Within ⟨iova.toNat, size.toNat⟩ region.extent
  start : ∀ iova region,
    (afuDmaRegionFind iova 0 table.regions).map Prod.snd = some region ↔
      region ∈ table.live ∧ region.iova = iova

/-- What holds of the table between operations. -/
structure RegionTable.Holds (table : RegionTable) : Prop where
  tree : RegionTree table.regions
  live : (table.regions.inorder : Multiset DflAfuDmaRegion) = table.live

theorem RegionTable.Holds.mem_live {table : RegionTable}
    (holds : table.Holds) {region : DflAfuDmaRegion} :
    region ∈ table.live ↔ region ∈ table.regions.inorder := by
  rw [← holds.live, Multiset.mem_coe]

theorem RegionTable.Holds.sound {table : RegionTable}
    (holds : table.Holds) : table.Sound where
  sorted := holds.tree.sorted
  live := holds.live
  nodup := by
    rw [← holds.live, Multiset.coe_nodup]
    refine List.Pairwise.imp (fun {first second} smaller same => ?_)
      holds.tree.sorted
    exact absurd (congrArg DflAfuDmaRegion.key same) (ne_of_lt smaller)
  area iova size nonempty fits region := by
    rw [holds.mem_live]
    exact holds.tree.find_area_iff nonempty fits region
  start iova region := by
    rw [holds.mem_live]
    exact holds.tree.find_start_iff iova region

theorem RegionTable.Holds.step {ops : Balancing DflAfuDmaRegion}
    {table next : RegionTable} {op : RegionOp} (holds : table.Holds)
    (keepsApart : table.KeepsApart op) (step : table.Step ops op next) :
    next.Holds := by
  cases op with
  | add region =>
      obtain rfl : next = _ := step
      have addable : Addable region table.regions.inorder :=
        ⟨keepsApart.1, fun other isOther =>
          keepsApart.2 other (holds.mem_live.mpr isOther)⟩
      obtain ⟨added, adds⟩ := holds.tree.add_succeeds ops addable
      rw [adds, Option.getD_some]
      refine ⟨holds.tree.add addable adds, ?_⟩
      rw [← holds.live, Multiset.cons_coe, Multiset.coe_eq_coe]
      exact afuDmaRegionAdd_perm adds
  | remove region =>
      obtain ⟨place, placed, rfl⟩ := step
      refine ⟨holds.tree.remove place, ?_⟩
      have perm := ops.erase_perm placed
      rw [← holds.live, Multiset.coe_eq_coe.mpr perm, ← Multiset.cons_coe,
        Multiset.erase_cons_head]
      rfl

/-- The table before anything is added. -/
def RegionTable.initial : RegionTable := ⟨.nil, 0⟩

theorem RegionTable.Holds.initial : RegionTable.initial.Holds :=
  ⟨.empty, rfl⟩

/--
While the regions which are added share no address with those in the tree, the
tree holds them all, and each search finds the region it is for.
-/
theorem regions_found (ops : Balancing DflAfuDmaRegion)
    (path : List (RegionOp × RegionTable))
    (isPath : IsPath (RegionTable.Step ops) .initial path)
    (keepsApart : StepsMeet RegionTable.KeepsApart .initial path) :
    Throughout RegionTable.Sound .initial path :=
  (throughout_of_stepsMeet
      (fun _ _ _ holds guarded step => holds.step guarded step) isPath
      .initial keepsApart).mono
    fun _ => RegionTable.Holds.sound

/-- A page which is mapped at this DMA address. -/
def pageRegion (iova : BitVec 64) : DflAfuDmaRegion :=
  ⟨0, 0x1000, iova, none, false, .bidirectional⟩

/-- Two pages are mapped, and the first is unmapped again. -/
def twoPages : List (RegionOp × RegionTable) :=
  let first := pageRegion 0x2000
  let second := pageRegion 0x1000
  let ops := unbalanced DflAfuDmaRegion
  let one : RegionTable := ⟨(afuDmaRegionAdd ops first .nil).getD .nil, {first}⟩
  let two : RegionTable :=
    ⟨(afuDmaRegionAdd ops second one.regions).getD one.regions,
      second ::ₘ one.live⟩
  [(.add first, one), (.add second, two),
    (.remove first,
      ⟨afuDmaRegionRemove ops 1 two.regions, two.live.erase first⟩)]

theorem pageRegion_proper {iova : BitVec 64}
    (bounded : iova.toNat + 0x1000 < 2 ^ 64) : (pageRegion iova).Proper where
  nonempty := show (0x1000 : BitVec 64) ≠ 0 by decide
  bounded := bounded

theorem regions_found_twoPages :
    Throughout RegionTable.Sound .initial twoPages := by
  refine regions_found (unbalanced DflAfuDmaRegion) twoPages
    ⟨rfl, rfl, ⟨1, rfl, rfl⟩, trivial⟩ ⟨⟨?_, ?_⟩, ⟨?_, ?_⟩, trivial, trivial⟩
  · exact pageRegion_proper (by decide)
  · intro other isOther
    exact absurd isOther (Multiset.notMem_zero other)
  · exact pageRegion_proper (by decide)
  · intro other isOther
    rw [Multiset.mem_singleton.mp isOther]
    exact Extent.apart_of_limit_le (by decide)

end LinuxDfl.Afu
