import LinuxDfl.Cxl.UnmapExact

/-!
# What user space reaches through the CXL cache device

A file of the device maps physical pages, and requests write to registers.
Both stay inside the memory of the device as long as a mapping ends where it
ends, and no register begins in its last seven bytes.
-/

namespace LinuxDfl.Cxl

open LinuxDfl.Kernel
open LinuxDfl.Lib.SearchTree
open LinuxDfl.Lib.Transition

/-! ## What is reached -/

/-- The event gives access to the byte at a physical address, or writes it. -/
def CacheEvent.Reaches (mmioRes : MmioRes) (byte : Nat) :
    CacheEvent → Prop
  | .writeq _ csr =>
      mmioRes.start + csr.toNat ≤ byte ∧
        byte < mmioRes.start + csr.toNat + 8
  | .remapPfnRange pfn size =>
      pfn.toNat * pageSize ≤ byte ∧
        byte < pfn.toNat * pageSize + size.toNat
  | _ => False

/-- The event reaches only bytes of the device. -/
def CacheEvent.Confined (mmioRes : MmioRes) (event : CacheEvent) : Prop :=
  ∀ byte, event.Reaches mmioRes byte →
    mmioRes.start ≤ byte ∧ byte ≤ mmioRes.last

/-- Whatever has been reached belongs to the device. -/
def Confined (mmioRes : MmioRes) (session : CacheSession) : Prop :=
  ∀ event ∈ session.cache.events, event.Confined mmioRes

/-- The registers of a request which are written end inside the device. -/
def CsrsInside (mmioRes : MmioRes) (csrArray : List (BitVec 64)) : Prop :=
  ∀ csr ∈ csrArray, csr ≠ 0 → csr < mmioRes.resourceSize →
    csr.toNat + 8 ≤ mmioRes.last - mmioRes.start + 1

/--
A mapping ends inside the device; if the device does not begin with a page,
the mapping leaves out the page in which it begins.
-/
def MmapInside (mmioRes : MmioRes) (vma : VmAreaStruct) : Prop :=
  (mmioRes.start % pageSize = 0 ∨ pfnPhys vma.vmPgoff ≠ 0) ∧
    (pfnPhys vma.vmPgoff).toNat + (vma.vmEnd - vma.vmStart).toNat ≤
      mmioRes.last - mmioRes.start + 1 + mmioRes.start % pageSize

section Guard

variable (ops : Balancing DflCxlCacheBufferRegion)

/-- The operation is refused, or what it asks for is inside the device. -/
def AsksInside (mmioRes : MmioRes) (session : CacheSession) :
    CacheOp → Prop
  | .numaBufferMap request answers =>
      (∃ pages events regions,
        MapAccepted ops request answers session.cache pages events
          regions) →
        CsrsInside mmioRes request.csrArray
  | .numaBufferUnmap request =>
      request.Readable →
        (cxlCacheDmaRegionFind request.userAddr request.length
          session.cache.dmaRegions).isSome = true →
        CsrsInside mmioRes request.csrArray
  | .mmap vma remap =>
      vma.vmFlags &&& vmShared ≠ 0 → remap = none →
        MmapInside mmioRes vma
  | _ => True

end Guard

/-! ## Ranges of bytes -/

/-- A range which is not empty is inside if its ends are. -/
theorem range_inside_iff {first count start last : Nat}
    (nonempty : 0 < count) :
    (∀ byte, first ≤ byte ∧ byte < first + count →
      start ≤ byte ∧ byte ≤ last) ↔
      start ≤ first ∧ first + count ≤ last + 1 := by
  constructor
  · intro inside
    have head := inside first ⟨Nat.le_refl _, by omega⟩
    have tail := inside (first + count - 1) ⟨by omega, by omega⟩
    omega
  · rintro ⟨head, tail⟩ byte ⟨from_first, below⟩
    omega

/-- A register which is written. -/
theorem writeq_confined_iff {mmioRes : MmioRes} {value csr : BitVec 64} :
    (CacheEvent.writeq value csr).Confined mmioRes ↔
      csr.toNat + 8 ≤ mmioRes.last - mmioRes.start + 1 := by
  have ordered := mmioRes.ordered
  unfold CacheEvent.Confined CacheEvent.Reaches
  dsimp only
  rw [range_inside_iff (by omega)]
  omega

/-- A page frame number stands for the address of its page. -/
theorem pfnDown_page (addr : BitVec 64) :
    (pfnDown addr).toNat * pageSize = addr.toNat / pageSize * pageSize := by
  unfold pfnDown
  rw [BitVec.toNat_ushiftRight, Nat.shiftRight_eq_div_pow]
  rfl

/-- An address made from a number of pages is that of a page. -/
theorem pfnPhys_aligned (pfn : BitVec 64) :
    (pfnPhys pfn).toNat % pageSize = 0 := by
  unfold pfnPhys pageSize pageShift
  rw [BitVec.toNat_shiftLeft, Nat.shiftLeft_eq]
  omega

/-- The size of a memory area is a positive number of pages. -/
theorem VmAreaStruct.size_pages (vma : VmAreaStruct) :
    (vma.vmEnd - vma.vmStart).toNat % pageSize = 0 ∧
      0 < (vma.vmEnd - vma.vmStart).toNat := by
  have startAligned := of_decide_eq_true vma.startAligned
  have endAligned := of_decide_eq_true vma.endAligned
  have nonempty : vma.vmStart.toNat < vma.vmEnd.toNat := vma.nonempty
  have size : (vma.vmEnd - vma.vmStart).toNat =
      vma.vmEnd.toNat - vma.vmStart.toNat :=
    BitVec.toNat_sub_of_le (Nat.le_of_lt nonempty)
  rw [size]
  unfold pageSize pageShift at *
  constructor
  · omega
  · omega

/-- The pages of a mapping. -/
theorem remap_confined_iff (mmioRes : MmioRes) (vma : VmAreaStruct) :
    (CacheEvent.remapPfnRange
      (pfnDown (BitVec.ofNat 64 mmioRes.start +
        (pfnPhys vma.vmPgoff - 0#64)))
      (vma.vmEnd - vma.vmStart)).Confined mmioRes ↔
      MmapInside mmioRes vma := by
  have ordered := mmioRes.ordered
  have bounded := mmioRes.bounded
  have aligned := pfnPhys_aligned vma.vmPgoff
  obtain ⟨pages, positive⟩ := vma.size_pages
  have zero : pfnPhys vma.vmPgoff = 0 ↔
      (pfnPhys vma.vmPgoff).toNat = 0 :=
    ⟨fun same => by rw [same]; rfl, fun same => BitVec.eq_of_toNat_eq same⟩
  have small := (pfnPhys vma.vmPgoff).isLt
  unfold CacheEvent.Confined CacheEvent.Reaches MmapInside
  dsimp only
  rw [range_inside_iff positive, pfnDown_page, BitVec.sub_zero, ne_eq,
    zero, BitVec.toNat_add, BitVec.toNat_ofNat]
  generalize (pfnPhys vma.vmPgoff).toNat = offset at *
  generalize (vma.vmEnd - vma.vmStart).toNat = size at *
  unfold pageSize pageShift at *
  omega

/-! ## Steps -/

/-- The device is the one which has been added. -/
structure OnDevice (mmioRes : MmioRes) (cache : DflCxlCache) : Prop where
  resource : cache.mmioRes = mmioRes
  info : cache.rinfo = (cxlCacheChardevInit mmioRes).rinfo

/--
An operation adds events, which reach only the device under the given
condition.
-/
structure Adds (mmioRes : MmioRes) (cache next : DflCxlCache)
    (condition : Prop) : Prop where
  device : next.mmioRes = cache.mmioRes ∧ next.rinfo = cache.rinfo
  events : ∃ events, next.events = cache.events ++ events ∧
    ((∀ event ∈ events, event.Confined mmioRes) ↔ condition)

theorem Quiet.confined {events : List CacheEvent} (quiet : Quiet events)
    (mmioRes : MmioRes) :
    ∀ event ∈ events, event.Confined mmioRes := by
  intro event member byte reaches
  have isQuiet := quiet event member
  cases event with
  | writeq value csr => cases isQuiet
  | remapPfnRange pfn size => cases isQuiet
  | charge pages => exact reaches.elim
  | uncharge pages => exact reaches.elim
  | pin pages => exact reaches.elim
  | unpin pages count => exact reaches.elim

/-- What only adds quiet events reaches nothing. -/
theorem adds_quiet (mmioRes : MmioRes) (cache : DflCxlCache)
    {regions : RbTree DflCxlCacheBufferRegion} {opened : Bool}
    {events : List CacheEvent} {condition : Prop} (holds : condition)
    (quiet : Quiet events) :
    Adds mmioRes cache
      { cache with
        opened := opened
        dmaRegions := regions
        events := cache.events ++ events } condition where
  device := ⟨rfl, rfl⟩
  events := ⟨events, rfl, iff_of_true (quiet.confined mmioRes) holds⟩

/-- What adds nothing reaches nothing. -/
theorem adds_nothing (mmioRes : MmioRes) (cache : DflCxlCache)
    {condition : Prop} (holds : condition) :
    Adds mmioRes cache cache condition where
  device := ⟨rfl, rfl⟩
  events := by
    refine ⟨[], (List.append_nil _).symm, iff_of_true ?_ holds⟩
    intro event member
    exact absurd member List.not_mem_nil

theorem writeCsrs_confined_iff {mmioRes : MmioRes} {cache : DflCxlCache}
    (device : OnDevice mmioRes cache) (value : BitVec 64)
    (csrArray : List (BitVec 64)) :
    (∀ event ∈ writeCsrs cache value csrArray, event.Confined mmioRes) ↔
      CsrsInside mmioRes csrArray := by
  have size : cache.rinfo.size = mmioRes.resourceSize := by
    rw [device.info]
    rfl
  unfold writeCsrs CsrsInside
  rw [size]
  constructor
  · intro confined csr member nonzero below
    have written : csr ∈ csrArray.filter fun csr =>
        decide (csr ≠ 0) && decide (csr < mmioRes.resourceSize) :=
      List.mem_filter.mpr ⟨member, Bool.and_eq_true_iff.mpr
        ⟨decide_eq_true nonzero, decide_eq_true below⟩⟩
    exact writeq_confined_iff.mp
      (confined _ (List.mem_map_of_mem written))
  · intro inside event member
    obtain ⟨csr, written, rfl⟩ := List.mem_map.mp member
    obtain ⟨isCsr, passes⟩ := List.mem_filter.mp written
    obtain ⟨nonzero, below⟩ := Bool.and_eq_true_iff.mp passes
    exact writeq_confined_iff.mpr (inside csr isCsr
      (of_decide_eq_true nonzero) (of_decide_eq_true below))

/-- Quiet events before others do not matter. -/
theorem confined_append_iff {mmioRes : MmioRes}
    {first rest : List CacheEvent} (quiet : Quiet first) :
    (∀ event ∈ first ++ rest, event.Confined mmioRes) ↔
      ∀ event ∈ rest, event.Confined mmioRes := by
  rw [List.forall_mem_append]
  exact and_iff_right (quiet.confined mmioRes)

section Steps

variable (ops : Balancing DflCxlCacheBufferRegion)

theorem adds_open (mmioRes : MmioRes) (cache : DflCxlCache) :
    Adds mmioRes cache (dflCxlCacheOpen cache).2 True := by
  unfold dflCxlCacheOpen
  split
  · exact adds_nothing mmioRes cache trivial
  · refine ⟨⟨rfl, rfl⟩, [], (List.append_nil _).symm, ?_⟩
    refine iff_of_true ?_ trivial
    intro event member
    exact absurd member List.not_mem_nil

theorem adds_release (mmioRes : MmioRes) (cache : DflCxlCache) :
    Adds mmioRes cache (dflCxlCacheRelease ops cache) True := by
  refine adds_quiet mmioRes cache trivial ?quiet
  intro event member
  obtain ⟨region, -, isEvent⟩ := List.mem_flatMap.mp member
  exact quiet_unpin _ _ event isEvent

theorem adds_map {mmioRes : MmioRes} {request : BufferRequest}
    {answers : BufferMapAnswers} {cache next : DflCxlCache}
    {ret : Option Errno} (device : OnDevice mmioRes cache)
    (returns : cxlCacheIoctlNumaBufferMap ops request answers cache =
      some (ret, next)) :
    Adds mmioRes cache next
      ((∃ pages events regions,
        MapAccepted ops request answers cache pages events regions) →
          CsrsInside mmioRes request.csrArray) := by
  cases cxlCacheIoctlNumaBufferMap_outcome ops returns with
  | refused code quiet =>
      refine adds_quiet mmioRes cache ?_ quiet
      rintro ⟨pages, events, regions, accepted⟩
      rw [accepted.returns] at returns
      cases returns
  | @accepted pages events regions accepted =>
      refine ⟨⟨rfl, rfl⟩, _, rfl, ?_⟩
      have pinned := quiet_pin answers request.length
      rw [accepted.pins] at pinned
      rw [confined_append_iff pinned, writeCsrs_confined_iff device]
      constructor
      · intro inside _
        exact inside
      · intro inside
        exact inside ⟨pages, events, regions, accepted⟩

theorem adds_unmap {mmioRes : MmioRes} {cache : DflCxlCache}
    (device : OnDevice mmioRes cache) (request : BufferRequest) :
    Adds mmioRes cache (cxlCacheIoctlNumaBufferUnmap ops request cache).2
      (request.Readable →
        (cxlCacheDmaRegionFind request.userAddr request.length
          cache.dmaRegions).isSome = true →
        CsrsInside mmioRes request.csrArray) := by
  by_cases readable : request.Readable
  case neg =>
    rw [(unmap_of_unreadable ops readable).2]
    refine adds_nothing mmioRes cache ?_
    intro isReadable
    exact absurd isReadable readable
  rcases finds : cxlCacheDmaRegionFind request.userAddr request.length
      cache.dmaRegions with - | ⟨place, region⟩
  · rw [unmap_of_missing ops readable finds]
    refine adds_nothing mmioRes cache ?_
    intro _ isSome
    cases isSome
  · rw [unmap_of_found ops readable finds]
    refine ⟨⟨rfl, rfl⟩, _, rfl, ?_⟩
    rw [confined_append_iff (quiet_unpin _ _),
      writeCsrs_confined_iff device]
    constructor
    · intro inside _ _
      exact inside
    · intro inside
      exact inside readable rfl

theorem adds_mmap {mmioRes : MmioRes} {cache : DflCxlCache}
    (device : OnDevice mmioRes cache) (vma : VmAreaStruct)
    (remap : Option Errno) :
    Adds mmioRes cache (dflCxlCacheMmap vma remap cache).2
      (vma.vmFlags &&& vmShared ≠ 0 → remap = none →
        MmapInside mmioRes vma) := by
  have flags : cache.rinfo.flags = 7#32 := by
    rw [device.info]
    rfl
  have offset : cache.rinfo.offset = 0#64 := by
    rw [device.info]
    rfl
  unfold dflCxlCacheMmap
  by_cases isPrivate : vma.vmFlags &&& vmShared = 0
  · rw [if_pos isPrivate]
    refine adds_nothing mmioRes cache ?_
    intro isShared
    exact absurd isPrivate isShared
  rw [if_neg isPrivate, flags, if_neg (by decide),
    if_neg (fun reads => absurd reads.2 (by decide)),
    if_neg (fun writes => absurd writes.2 (by decide)), offset,
    device.resource]
  cases remap with
  | some ret =>
      refine adds_nothing mmioRes cache ?_
      intro _ accepts
      cases accepts
  | none =>
      refine ⟨⟨rfl, rfl⟩, _, rfl, ?_⟩
      rw [List.forall_mem_singleton, remap_confined_iff]
      constructor
      · intro inside _ _
        exact inside
      · intro inside
        exact inside isPrivate rfl

theorem adds_of_step {mmioRes : MmioRes} {session next : CacheSession}
    {op : CacheOp} (device : OnDevice mmioRes session.cache)
    (step : session.Step ops op next) :
    Adds mmioRes session.cache next.cache
      (AsksInside ops mmioRes session op) := by
  obtain ⟨ret, performs, -⟩ := step
  cases op with
  | openFile =>
      have moves := congrArg Prod.snd (Option.some.inj performs)
      rw [← show _ = next.cache from moves]
      exact adds_open mmioRes session.cache
  | release =>
      simp only [DflCxlCache.perform, Option.ite_none_right_eq_some,
        Option.some.injEq, Prod.mk.injEq] at performs
      rw [← performs.2.2]
      exact adds_release ops mmioRes session.cache
  | numaBufferMap request answers =>
      simp only [DflCxlCache.perform, Option.ite_none_right_eq_some]
        at performs
      exact adds_map ops device performs.2
  | numaBufferUnmap request =>
      simp only [DflCxlCache.perform, Option.ite_none_right_eq_some,
        Option.some.injEq] at performs
      have moves := congrArg Prod.snd performs.2
      rw [← show _ = next.cache from moves]
      exact adds_unmap ops device request
  | mmap vma remap =>
      simp only [DflCxlCache.perform, Option.ite_none_right_eq_some,
        Option.some.injEq] at performs
      have moves := congrArg Prod.snd performs.2
      rw [← show _ = next.cache from moves]
      exact adds_mmap device vma remap

/--
Along every sequence of operations: all pages which are mapped into user
space and all bytes of the registers which are written belong to the device,
if and only if each accepted mapping ends inside the device, and no register
which an accepted request names begins in the last seven bytes of the device.
-/
theorem confined_iff (mmioRes : MmioRes)
    (path : List (CacheOp × CacheSession))
    (isPath : IsPath (CacheSession.Step ops) (cacheSession mmioRes) path) :
    Throughout (Confined mmioRes) (cacheSession mmioRes) path ↔
      StepsMeet (AsksInside ops mmioRes) (cacheSession mmioRes) path := by
  refine throughout_iff_stepsMeet
    (fun session => OnDevice mmioRes session.cache) ?kept ?exact isPath
    ⟨rfl, rfl⟩ ?initial
  case kept =>
    intro session op next device step
    obtain ⟨resource, info⟩ := (adds_of_step ops device step).device
    exact ⟨resource.trans device.resource, info.trans device.info⟩
  case exact =>
    intro session op next device confined step
    obtain ⟨events, appended, inside⟩ :=
      (adds_of_step ops device step).events
    unfold Confined at confined ⊢
    rw [appended, List.forall_mem_append, ← inside]
    exact and_iff_right confined
  case initial =>
    intro event member
    exact absurd member List.not_mem_nil

end Steps

/-! ## The end of the device -/

/-- A shared mapping of one page. -/
def onePage (vmPgoff : BitVec 64) : VmAreaStruct where
  vmStart := 0x7000
  vmEnd := 0x8000
  vmFlags := vmShared
  vmPgoff := vmPgoff
  startAligned := by decide
  endAligned := by decide
  nonempty := by decide

/-- A buffer of one page, whose address is written to a register. -/
def bufferAtCsr (csr : BitVec 64) : BufferRequest :=
  ⟨true, 152, dflCxlBufferMapWritable, 0x1000, 0x1000,
    csr :: List.replicate 15 0, rfl⟩

/-- A page is mapped, and the address of a buffer is written. -/
def mapPageAndCsr (vmPgoff csr : BitVec 64) : List CacheOp :=
  [.openFile, .mmap (onePage vmPgoff) none,
    .numaBufferMap (bufferAtCsr csr) (willingAnswers 1)]

/-- The page after the device is mapped. -/
theorem page_after_device_mapped :
    ∃ path,
      IsPath (CacheSession.Step (unbalanced DflCxlCacheBufferRegion))
        (cacheSession sixteenPages) path ∧
      ¬ Throughout (Confined sixteenPages) (cacheSession sixteenPages)
        path := by
  refine ⟨pathOf (CacheSession.apply (unbalanced DflCxlCacheBufferRegion))
    (cacheSession sixteenPages) (mapPageAndCsr 16 0), ?_, ?_⟩
  · apply isPath_of_enabledAlong fun _ _ => CacheSession.step_apply _
    decide
  · intro throughout
    have mapped := throughout.final (.remapPfnRange 0x20#64 0x1000#64)
      (by decide)
    have reached := mapped 0x20000 (by
      unfold CacheEvent.Reaches
      decide)
    exact absurd reached (by decide)

/-- The last page and the last register of the device. -/
theorem last_page_confined :
    Confined sixteenPages
      ((mapPageAndCsr 15 0xfff8).foldl
        (CacheSession.apply (unbalanced DflCxlCacheBufferRegion))
        (cacheSession sixteenPages)) := by
  refine Throughout.final ((confined_iff
    (unbalanced DflCxlCacheBufferRegion) sixteenPages
    (pathOf (CacheSession.apply (unbalanced DflCxlCacheBufferRegion))
      (cacheSession sixteenPages) (mapPageAndCsr 15 0xfff8)) ?_).mpr ?_)
  · apply isPath_of_enabledAlong fun _ _ => CacheSession.step_apply _
    decide
  · refine ⟨trivial, ?_, ?_, trivial⟩
    · intro _ _
      unfold MmapInside
      decide
    · intro _ csr member nonzero _
      rcases List.mem_cons.mp member with rfl | others
      · show 0xfff8 + 8 ≤ 0x1ffff - 0x10000 + 1
        omega
      · exact absurd (List.eq_of_mem_replicate others) nonzero

end LinuxDfl.Cxl
