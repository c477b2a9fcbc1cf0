import LinuxDfl.Cxl.Cache
import LinuxDfl.Lib.Transition

/-!
# Unmapping buffers of the CXL cache

A request to unmap walks down the tree to its user address, and takes the
first region on the way which contains its range.  It unmaps precisely the
region it names as long as no other region on the way contains the range.
-/

namespace LinuxDfl.Cxl

open LinuxDfl.Kernel
open LinuxDfl.Lib.SearchTree
open LinuxDfl.Lib.Transition

/-! ## Live buffers -/

/-- A range of user memory. -/
abbrev Buffer := BitVec 64 × BitVec 64

def DflCxlCacheBufferRegion.buffer (region : DflCxlCacheBufferRegion) :
    Buffer :=
  (region.userAddr, region.length)

def BufferRequest.buffer (request : BufferRequest) : Buffer :=
  (request.userAddr, request.length)

/-- What an operation which has returned does to the live buffers. -/
def liveAfter (live : List Buffer) : CacheOp × Option Errno → List Buffer
  | (.numaBufferMap request _, none) => request.buffer :: live
  | (.numaBufferUnmap request, none) => live.erase request.buffer
  | (.release, none) => []
  | _ => live

/-- The buffers which have been mapped and not been unmapped. -/
def liveBuffers (returned : List (CacheOp × Option Errno)) : List Buffer :=
  returned.foldl liveAfter []

/-- The regions of the tree are the live buffers. -/
def LiveTracked (session : CacheSession) : Prop :=
  (session.cache.dmaRegions.inorder.map
    DflCxlCacheBufferRegion.buffer).Perm (liveBuffers session.returned)

/-- The request can be read as a whole. -/
def BufferRequest.Readable (request : BufferRequest) : Prop :=
  request.copyFromUser = true ∧ BufferRequest.minsz ≤ request.argsz

section Exact

variable (ops : Balancing DflCxlCacheBufferRegion)

/--
A request to unmap succeeds if and only if it names a live buffer; it then
removes and unpins the region of this buffer and no other.
-/
structure UnmapExact (request : BufferRequest) (cache : DflCxlCache) :
    Prop where
  succeeds :
    (cxlCacheIoctlNumaBufferUnmap ops request cache).1 = none ↔
      request.Readable ∧
        ∃ region ∈ cache.dmaRegions.inorder,
          region.buffer = request.buffer
  removes :
    (cxlCacheIoctlNumaBufferUnmap ops request cache).1 = none →
      ∃ region, region.buffer = request.buffer ∧
        cache.dmaRegions.inorder.Perm
          (region ::
            (cxlCacheIoctlNumaBufferUnmap ops request
              cache).2.dmaRegions.inorder) ∧
        (cxlCacheIoctlNumaBufferUnmap ops request cache).2.events =
          cache.events ++
            (cxlCacheUnpinPages region.pages region.length ++
              writeCsrs cache 0 request.csrArray)

/-- A step which unmaps does so exactly. -/
def UnmapsExactly (session : CacheSession) : CacheOp → Prop
  | .numaBufferUnmap request => UnmapExact ops request session.cache
  | _ => True

/--
The regions on the way to the user address which contain the range of the
request are the one which it names.
-/
def WayExact (request : BufferRequest)
    (regions : RbTree DflCxlCacheBufferRegion) : Prop :=
  ∀ region ∈ regions.visited
      (turnTo DflCxlCacheBufferRegion.key request.userAddr.toNat),
    dmaRegionCheckUserAddr region request.userAddr request.length = true →
      region.buffer = request.buffer

/-- A step which unmaps finds no region but the one which it names. -/
def UnmapsOnWay (session : CacheSession) : CacheOp → Prop
  | .numaBufferUnmap request =>
      request.Readable → WayExact request session.cache.dmaRegions
  | _ => True

/-! ## One request -/

/-- A region contains its own range. -/
theorem dmaRegionCheckUserAddr_self (region : DflCxlCacheBufferRegion) :
    dmaRegionCheckUserAddr region region.userAddr region.length = true := by
  unfold dmaRegionCheckUserAddr
  rw [if_neg (fun empty => empty.2 rfl), Bool.and_eq_true,
    decide_eq_true_eq, decide_eq_true_eq, BitVec.add_comm]
  exact ⟨BitVec.le_refl _, BitVec.le_refl _⟩

/-- What is found is the first region on the way which contains the range. -/
theorem cxlCacheDmaRegionFind_eq (userAddr size : BitVec 64)
    (regions : RbTree DflCxlCacheBufferRegion) :
    (cxlCacheDmaRegionFind userAddr size regions).map Prod.snd =
      (regions.visited
        (turnTo DflCxlCacheBufferRegion.key userAddr.toNat)).find?
        fun region => dmaRegionCheckUserAddr region userAddr size :=
  RbTree.find_value _ _ _

/-- A request which cannot be read as a whole fails. -/
theorem unmap_of_unreadable {request : BufferRequest} {cache : DflCxlCache}
    (unreadable : ¬ request.Readable) :
    (cxlCacheIoctlNumaBufferUnmap ops request cache).1 ≠ none ∧
      (cxlCacheIoctlNumaBufferUnmap ops request cache).2 = cache := by
  unfold cxlCacheIoctlNumaBufferUnmap
  by_cases copied : (!request.copyFromUser) = true
  · rw [if_pos copied]
    exact ⟨Option.some_ne_none _, rfl⟩
  · rw [if_neg copied]
    by_cases short : request.argsz < BufferRequest.minsz
    · rw [if_pos short]
      exact ⟨Option.some_ne_none _, rfl⟩
    · have readable : request.Readable :=
        ⟨by simpa using copied, Nat.le_of_not_lt short⟩
      exact absurd readable unreadable

/-- A request whose range is not found fails. -/
theorem unmap_of_missing {request : BufferRequest} {cache : DflCxlCache}
    (readable : request.Readable)
    (finds : cxlCacheDmaRegionFind request.userAddr request.length
      cache.dmaRegions = none) :
    cxlCacheIoctlNumaBufferUnmap ops request cache =
      (some .einval, cache) := by
  unfold cxlCacheIoctlNumaBufferUnmap
  rw [readable.1, if_neg (by decide), if_neg (Nat.not_lt.mpr readable.2),
    finds]

/-- A request unmaps what is found. -/
theorem unmap_of_found {request : BufferRequest} {cache : DflCxlCache}
    {place : Nat} {region : DflCxlCacheBufferRegion}
    (readable : request.Readable)
    (finds : cxlCacheDmaRegionFind request.userAddr request.length
      cache.dmaRegions = some (place, region)) :
    cxlCacheIoctlNumaBufferUnmap ops request cache =
      (none,
        { cache with dmaRegions := ops.erase cache.dmaRegions place }.emit
          (cxlCacheUnpinPages region.pages region.length ++
            writeCsrs cache 0 request.csrArray)) := by
  unfold cxlCacheIoctlNumaBufferUnmap
  rw [readable.1, if_neg (by decide), if_neg (Nat.not_lt.mpr readable.2),
    finds]

/-- A live buffer is on the way to its address. -/
theorem mem_way_of_buffer {cache : DflCxlCache} {request : BufferRequest}
    {region : DflCxlCacheBufferRegion}
    (sorted : Sorted DflCxlCacheBufferRegion.key cache.dmaRegions)
    (member : region ∈ cache.dmaRegions.inorder)
    (named : region.buffer = request.buffer) :
    region ∈ cache.dmaRegions.visited
        (turnTo DflCxlCacheBufferRegion.key request.userAddr.toNat) ∧
      dmaRegionCheckUserAddr region request.userAddr request.length =
        true := by
  have addr : region.userAddr = request.userAddr :=
    congrArg Prod.fst named
  have length : region.length = request.length := congrArg Prod.snd named
  rw [← addr, ← length]
  exact ⟨sorted.mem_visited member, dmaRegionCheckUserAddr_self region⟩

/-- Without another region on the way, a request is exact. -/
theorem unmapExact_of_wayExact {request : BufferRequest}
    {cache : DflCxlCache}
    (sorted : Sorted DflCxlCacheBufferRegion.key cache.dmaRegions)
    (way : request.Readable → WayExact request cache.dmaRegions) :
    UnmapExact ops request cache := by
  by_cases readable : request.Readable
  case neg =>
    have fails : (cxlCacheIoctlNumaBufferUnmap ops request cache).1 ≠ none :=
      (unmap_of_unreadable ops readable).1
    constructor
    · constructor
      · intro succeeds
        exact absurd succeeds fails
      · rintro ⟨isReadable, -⟩
        exact absurd isReadable readable
    · intro succeeds
      exact absurd succeeds fails
  have first := cxlCacheDmaRegionFind_eq request.userAddr request.length
    cache.dmaRegions
  rcases finds : cxlCacheDmaRegionFind request.userAddr request.length
      cache.dmaRegions with - | ⟨place, region⟩
  · have eq := unmap_of_missing ops readable finds
    rw [finds] at first
    have misses := List.find?_eq_none.mp first.symm
    constructor
    · rw [eq]
      constructor
      · intro succeeds
        cases succeeds
      · rintro ⟨-, region, member, named⟩
        obtain ⟨onWay, hits⟩ := mem_way_of_buffer sorted member named
        exact absurd hits (misses region onWay)
    · rw [eq]
      intro succeeds
      cases succeeds
  · have eq := unmap_of_found ops readable finds
    rw [finds] at first
    have hit := List.find?_some first.symm
    have named : region.buffer = request.buffer :=
      way readable region (List.mem_of_find?_eq_some first.symm) hit
    have placed := RbTree.find_place finds
    constructor
    · rw [eq]
      constructor
      · intro _
        exact ⟨readable, region, List.mem_of_getElem? placed, named⟩
      · intro _
        rfl
    · rw [eq]
      intro _
      exact ⟨region, named, ops.erase_perm placed, rfl⟩

/-- An exact request meets no other region on its way. -/
theorem wayExact_of_unmapExact {request : BufferRequest}
    {cache : DflCxlCache} (exactly : UnmapExact ops request cache)
    (readable : request.Readable) :
    WayExact request cache.dmaRegions := by
  intro region onWay hits
  have first := cxlCacheDmaRegionFind_eq request.userAddr request.length
    cache.dmaRegions
  rcases finds : cxlCacheDmaRegionFind request.userAddr request.length
      cache.dmaRegions with - | ⟨place, found⟩
  · rw [finds] at first
    exact absurd hits (List.find?_eq_none.mp first.symm region onWay)
  have eq := unmap_of_found ops readable finds
  rw [finds] at first
  -- What is erased is what the request names.
  have placed := RbTree.find_place finds
  have succeeds : (cxlCacheIoctlNumaBufferUnmap ops request cache).1 =
      none := by
    rw [eq]
  obtain ⟨removed, named, splits, -⟩ := exactly.removes succeeds
  have erased := ops.erase_perm placed
  rw [eq] at splits
  have same : removed = found := by
    have cancel : (removed :: (ops.erase cache.dmaRegions place).inorder).Perm
        (found :: (ops.erase cache.dmaRegions place).inorder) :=
      splits.symm.trans erased
    have counts := cancel.count_eq removed
    rw [List.count_cons_self, List.count_cons] at counts
    by_contra other
    rw [if_neg (by simpa using Ne.symm other)] at counts
    omega
  subst same
  -- It is the last region on the way, so that no other comes before it.
  obtain ⟨-, before, after, way, misses⟩ :=
    List.find?_eq_some_iff_append.mp first.symm
  have distinct :
      (cache.dmaRegions.visited
        (turnTo DflCxlCacheBufferRegion.key request.userAddr.toNat)).Pairwise
          fun first _ => first.key ≠ request.userAddr.toNat :=
    visited_pairwise request.userAddr.toNat cache.dmaRegions
  rw [way] at onWay distinct
  rcases List.mem_append.mp onWay with isBefore | onwards
  · have missed := misses region isBefore
    rw [hits] at missed
    cases missed
  rcases List.mem_cons.mp onwards with rfl | isAfter
  · exact named
  · have address : removed.key = request.userAddr.toNat :=
      congrArg BitVec.toNat (congrArg Prod.fst named)
    have others := (List.pairwise_append.mp distinct).2.1
    exact absurd address ((List.pairwise_cons.mp others).1 region isAfter)

/-! ## Steps -/

/-- Requests which are not accepted and files leave the tree alone. -/
theorem dflCxlCacheOpen_regions (cache : DflCxlCache) :
    (dflCxlCacheOpen cache).2.dmaRegions = cache.dmaRegions := by
  unfold dflCxlCacheOpen
  split
  · rfl
  · rfl

theorem dflCxlCacheMmap_regions (vma : VmAreaStruct) (remap : Option Errno)
    (cache : DflCxlCache) :
    (dflCxlCacheMmap vma remap cache).2.dmaRegions = cache.dmaRegions := by
  unfold dflCxlCacheMmap
  dsimp only
  split_ifs <;> cases remap <;> rfl

theorem dflCxlCacheRelease_regions (cache : DflCxlCache) :
    (dflCxlCacheRelease ops cache).dmaRegions = .nil := by
  unfold dflCxlCacheRelease cxlCacheDmaRegionDestroy
  rw [ops.drain_all]
  rfl

/-- What an operation does to the tree. -/
inductive Moves (cache : DflCxlCache) (op : CacheOp) (ret : Option Errno)
    (next : DflCxlCache) : Prop where
  | idle (kept : next.dmaRegions = cache.dmaRegions)
      (silent : ∀ live, liveAfter live (op, ret) = live)
  | closed (isRelease : op = .release) (succeeds : ret = none)
      (emptied : next.dmaRegions = .nil)
  | mapped {request : BufferRequest} {answers : BufferMapAnswers}
      {region : DflCxlCacheBufferRegion}
      (isMap : op = .numaBufferMap request answers) (succeeds : ret = none)
      (named : region.buffer = request.buffer)
      (adds : cxlCacheDmaRegionAdd ops region cache.dmaRegions =
        some next.dmaRegions)
  | unmapped {request : BufferRequest} {place : Nat}
      (isUnmap : op = .numaBufferUnmap request) (succeeds : ret = none)
      (erased : next.dmaRegions = ops.erase cache.dmaRegions place)

theorem moves_of_unmap {request : BufferRequest}
    {cache next : DflCxlCache} {ret : Option Errno}
    (returns : cxlCacheIoctlNumaBufferUnmap ops request cache =
      (ret, next)) :
    Moves ops cache (.numaBufferUnmap request) ret next := by
  unfold cxlCacheIoctlNumaBufferUnmap at returns
  by_cases copied : (!request.copyFromUser) = true
  · rw [if_pos copied] at returns
    cases returns
    exact .idle rfl fun _ => rfl
  rw [if_neg copied] at returns
  by_cases short : request.argsz < BufferRequest.minsz
  · rw [if_pos short] at returns
    cases returns
    exact .idle rfl fun _ => rfl
  rw [if_neg short] at returns
  rcases finds : cxlCacheDmaRegionFind request.userAddr request.length
      cache.dmaRegions with - | ⟨place, region⟩
  · simp only [finds] at returns
    cases returns
    exact .idle rfl fun _ => rfl
  · simp only [finds] at returns
    cases returns
    exact .unmapped rfl rfl rfl

theorem moves_of_perform {cache next : DflCxlCache} {op : CacheOp}
    {ret : Option Errno}
    (performs : cache.perform ops op = some (ret, next)) :
    Moves ops cache op ret next := by
  cases op with
  | openFile =>
      have moves := congrArg Prod.snd (Option.some.inj performs)
      refine .idle ?_ fun _ => rfl
      rw [← show _ = next from moves]
      exact dflCxlCacheOpen_regions cache
  | release =>
      simp only [DflCxlCache.perform, Option.ite_none_right_eq_some,
        Option.some.injEq, Prod.mk.injEq] at performs
      obtain ⟨-, rfl, rfl⟩ := performs
      exact .closed rfl rfl (dflCxlCacheRelease_regions ops cache)
  | mmap vma remap =>
      simp only [DflCxlCache.perform, Option.ite_none_right_eq_some,
        Option.some.injEq] at performs
      have moves := congrArg Prod.snd performs.2
      refine .idle ?_ fun _ => rfl
      rw [← show _ = next from moves]
      exact dflCxlCacheMmap_regions vma remap cache
  | numaBufferMap request answers =>
      simp only [DflCxlCache.perform, Option.ite_none_right_eq_some]
        at performs
      cases cxlCacheIoctlNumaBufferMap_outcome ops performs.2 with
      | refused code quiet => exact .idle rfl fun _ => rfl
      | accepted isAccepted =>
          exact .mapped rfl rfl rfl isAccepted.adds
  | numaBufferUnmap request =>
      simp only [DflCxlCache.perform, Option.ite_none_right_eq_some,
        Option.some.injEq] at performs
      exact moves_of_unmap ops performs.2

/-- The tree is ordered by the user addresses. -/
def RegionsSorted (session : CacheSession) : Prop :=
  Sorted DflCxlCacheBufferRegion.key session.cache.dmaRegions

theorem RegionsSorted.step {session next : CacheSession} {op : CacheOp}
    (sorted : RegionsSorted session) (step : session.Step ops op next) :
    RegionsSorted next := by
  obtain ⟨ret, performs, -⟩ := step
  unfold RegionsSorted at sorted ⊢
  cases moves_of_perform ops performs with
  | idle kept silent =>
      rw [kept]
      exact sorted
  | closed isRelease succeeds emptied =>
      rw [emptied]
      exact sorted_nil
  | mapped isMap succeeds named adds =>
      obtain ⟨linked, links, balanced⟩ := Option.map_eq_some_iff.mp adds
      rw [← balanced]
      exact ops.sorted_insertColor (sorted.link links)
  | unmapped isUnmap succeeds erased =>
      rw [erased]
      exact ops.sorted_erase sorted _

theorem cxlCacheDmaRegionAdd_perm {region : DflCxlCacheBufferRegion}
    {regions linked : RbTree DflCxlCacheBufferRegion}
    (adds : cxlCacheDmaRegionAdd ops region regions = some linked) :
    linked.inorder.Perm (region :: regions.inorder) := by
  obtain ⟨between, links, rfl⟩ := Option.map_eq_some_iff.mp adds
  rw [ops.inorder_insertColor]
  exact RbTree.link_perm links

/-- Steps which unmap exactly keep the regions and the live buffers equal. -/
theorem LiveTracked.step {session next : CacheSession} {op : CacheOp}
    (tracked : LiveTracked session) (exactly : UnmapsExactly ops session op)
    (step : session.Step ops op next) : LiveTracked next := by
  obtain ⟨ret, performs, returned⟩ := step
  unfold LiveTracked liveBuffers at tracked ⊢
  rw [returned, List.foldl_append, List.foldl_cons, List.foldl_nil]
  cases moves_of_perform ops performs with
  | idle kept silent =>
      rw [kept, silent]
      exact tracked
  | closed isRelease succeeds emptied =>
      rw [emptied, isRelease, succeeds]
      exact List.Perm.refl _
  | mapped isMap succeeds named adds =>
      rw [isMap, succeeds, liveAfter, ← named]
      have added := (cxlCacheDmaRegionAdd_perm ops adds).map
        DflCxlCacheBufferRegion.buffer
      exact added.trans (tracked.cons _)
  | @unmapped request place isUnmap succeeds erased =>
      subst isUnmap succeeds
      simp only [DflCxlCache.perform, Option.ite_none_right_eq_some,
        Option.some.injEq] at performs
      have succeeds : (cxlCacheIoctlNumaBufferUnmap ops request
          session.cache).1 = none := congrArg Prod.fst performs.2
      have unmapped : (cxlCacheIoctlNumaBufferUnmap ops request
          session.cache).2 = next.cache := congrArg Prod.snd performs.2
      obtain ⟨region, named, splits, -⟩ := exactly.removes succeeds
      rw [unmapped] at splits
      have before := (splits.map DflCxlCacheBufferRegion.buffer).symm.trans
        tracked
      have after := before.erase region.buffer
      rw [List.map_cons, List.erase_cons_head, named] at after
      exact after

end Exact

/-! ## Buffers of one and of two pages -/

/-- Sixteen pages of registers. -/
def sixteenPages : MmioRes where
  start := 0x10000
  last := 0x1ffff
  ordered := by decide
  bounded := by decide

/-- A request about a range of user memory, with no registers. -/
def bufferRequest (userAddr length : BitVec 64) : BufferRequest :=
  ⟨true, 152, dflCxlBufferMapWritable, userAddr, length,
    List.replicate 16 0, rfl⟩

/-- Nothing fails, and the pages are contiguous. -/
def willingAnswers (count : Nat) : BufferMapAnswers :=
  ⟨true, none, true, .ok (List.range' 7 count), none⟩

/-- A buffer is mapped, and another range is unmapped. -/
def mapAndUnmap (length other : BitVec 64) : List CacheOp :=
  [.openFile,
    .numaBufferMap (bufferRequest 0x1000 length)
      (willingAnswers (longPages length)),
    .numaBufferUnmap (bufferRequest 0x1000 other)]

end LinuxDfl.Cxl
