import LinuxDfl.Lib.SearchTree
import LinuxDfl.Dfl.Enumerate
import LinuxDfl.Kernel.Page

/-!
# The CXL cache device

User buffers are pinned and their physical address is written to registers of
the device, which a file of the device may also map.  The buffers are kept in
a tree by their user address.  What memory management answers is a parameter
of an operation.
-/

namespace LinuxDfl.Cxl

open LinuxDfl.Kernel
open LinuxDfl.Dfl
open LinuxDfl.Lib.SearchTree

/-! ## Data -/

/-- The memory of the device, as enumeration has found it. -/
structure MmioRes extends Resource where
  ordered : start ≤ last
  bounded : last < 2 ^ 64

/-- `resource_size` -/
def MmioRes.resourceSize (mmioRes : MmioRes) : BitVec 64 :=
  BitVec.ofNat 64 (mmioRes.last - mmioRes.start + 1)

/-- `struct dfl_cxl_cache_buffer_region`; the pages are known by their frames. -/
structure DflCxlCacheBufferRegion where
  flags : BitVec 32
  userAddr : BitVec 64
  length : BitVec 64
  pages : Option (List Nat)
  phys : BitVec 64
  deriving DecidableEq, Repr

/-- `struct dfl_cxl_cache_region_info` -/
structure DflCxlCacheRegionInfo where
  argsz : Nat
  flags : BitVec 32
  size : BitVec 64
  offset : BitVec 64
  deriving DecidableEq, Repr

/-- What happens to the user's limit and pages, and to the device's memory. -/
inductive CacheEvent where
  | charge (pages : Nat)
  | uncharge (pages : Nat)
  | pin (pages : List Nat)
  /-- `unpin_user_pages`, of an array and a number of pages in it -/
  | unpin (pages : List Nat) (count : Nat)
  | writeq (value csr : BitVec 64)
  | remapPfnRange (pfn size : BitVec 64)
  deriving DecidableEq, Repr

/-- `struct dfl_cxl_cache`, with what has happened so far. -/
structure DflCxlCache where
  mmioRes : MmioRes
  opened : Bool
  rinfo : DflCxlCacheRegionInfo
  dmaRegions : RbTree DflCxlCacheBufferRegion
  events : List CacheEvent

def DflCxlCache.emit (cache : DflCxlCache) (events : List CacheEvent) :
    DflCxlCache :=
  { cache with events := cache.events ++ events }

/-- `DFL_CXL_CACHE_REGION_READ` -/
def dflCxlCacheRegionRead : BitVec 32 := 1#32

/-- `DFL_CXL_CACHE_REGION_WRITE` -/
def dflCxlCacheRegionWrite : BitVec 32 := 2#32

/-- `DFL_CXL_CACHE_REGION_MMAP` -/
def dflCxlCacheRegionMmap : BitVec 32 := 4#32

/-- `cxl_cache_chardev_init` -/
def cxlCacheChardevInit (mmioRes : MmioRes) : DflCxlCache where
  mmioRes := mmioRes
  opened := false
  rinfo :=
    { argsz := 24
      flags := dflCxlCacheRegionRead ||| dflCxlCacheRegionWrite |||
        dflCxlCacheRegionMmap
      size := mmioRes.resourceSize
      offset := 0 }
  dmaRegions := .nil
  events := []

/-! ## Pages -/

/-- What a request to map a buffer meets. -/
structure BufferMapAnswers where
  kzalloc : Bool
  /-- `account_locked_vm` -/
  account : Option Errno
  kcalloc : Bool
  /-- `pin_user_pages_fast`: frames, of which it pins at most the number asked. -/
  pin : Except Errno (List Nat)
  /-- `cxl_cache_set_region_read_only` -/
  setReadOnly : Option Errno

/-- `cxl_cache_dma_pin_pages` -/
def cxlCacheDmaPinPages (answers : BufferMapAnswers) (length : BitVec 64) :
    Except Errno (List Nat) × List CacheEvent :=
  let npages := intPages length
  let charged := unsignedLong npages
  match answers.account with
  | some ret => (.error ret, [])
  | none =>
      if !kcallocPointers answers.kcalloc (unsignedLong npages) then
        (.error .enomem, [.charge charged, .uncharge charged])
      else
        match answers.pin with
        | .error _ => (.error .efault, [.charge charged, .uncharge charged])
        | .ok frames =>
            let pinned := frames.take npages.toNat
            if (pinned.length : Int) = npages.toInt then
              (.ok pinned, [.charge charged, .pin pinned])
            else
              (.error .efault,
                [.charge charged, .pin pinned,
                  .unpin pinned pinned.length, .uncharge charged])

/-- `cxl_cache_unpin_pages` -/
def cxlCacheUnpinPages (pages : Option (List Nat)) (length : BitVec 64) :
    List CacheEvent :=
  match pages with
  | none => []
  | some frames =>
      [.unpin frames (longPages length), .uncharge (longPages length)]

/-- `cxl_cache_check_continuous_pages`, of as many pages as were pinned -/
def cxlCacheCheckContinuousPages (pages : List Nat) : Bool :=
  continuousFrames pages

/-! ## The tree of regions -/

section Tree

variable (ops : Balancing DflCxlCacheBufferRegion)

/-- `dma_region_check_user_addr` -/
def dmaRegionCheckUserAddr (region : DflCxlCacheBufferRegion)
    (userAddr size : BitVec 64) : Bool :=
  if size = 0 ∧ region.userAddr ≠ userAddr then false
  else
    region.userAddr ≤ userAddr &&
      userAddr + size ≤ region.length + region.userAddr

/-- The place of a region in the tree. -/
def DflCxlCacheBufferRegion.key (region : DflCxlCacheBufferRegion) : Nat :=
  region.userAddr.toNat

/-- `cxl_cache_dma_region_find` -/
def cxlCacheDmaRegionFind (userAddr size : BitVec 64)
    (regions : RbTree DflCxlCacheBufferRegion) :
    Option (Nat × DflCxlCacheBufferRegion) :=
  regions.find (fun region => dmaRegionCheckUserAddr region userAddr size)
    (turnTo DflCxlCacheBufferRegion.key userAddr.toNat)

/-- `cxl_cache_dma_region_add`, which refuses with `-EEXIST` -/
def cxlCacheDmaRegionAdd (region : DflCxlCacheBufferRegion)
    (regions : RbTree DflCxlCacheBufferRegion) :
    Option (RbTree DflCxlCacheBufferRegion) :=
  (regions.link
    (fun this =>
      dmaRegionCheckUserAddr this region.userAddr region.length)
    (turnTo DflCxlCacheBufferRegion.key region.key) region).map
    ops.insertColor

/-- What `cxl_cache_dma_region_destroy` does to a region. -/
def destroyEvents (region : DflCxlCacheBufferRegion) : List CacheEvent :=
  cxlCacheUnpinPages region.pages region.length

/--
`cxl_cache_dma_region_destroy`.  The successor of a node which was erased
from the front is the new front.
-/
def cxlCacheDmaRegionDestroy (cache : DflCxlCache) : DflCxlCache :=
  let (regions, rest) :=
    ops.drain cache.dmaRegions.inorder.length cache.dmaRegions
  { cache with dmaRegions := rest }.emit
    (regions.flatMap destroyEvents)

/-! ## Requests -/

/-- `DFL_ARRAY_MAX_SIZE` -/
def dflArrayMaxSize : Nat := 16

/-- `DFL_CXL_BUFFER_MAP_WRITABLE` -/
def dflCxlBufferMapWritable : BitVec 32 := 1#32

/-- `struct dfl_cxl_cache_buffer_map`, or `unmap`, in user space -/
structure BufferRequest where
  copyFromUser : Bool
  argsz : Nat
  flags : BitVec 32
  userAddr : BitVec 64
  length : BitVec 64
  csrArray : List (BitVec 64)
  csrs : csrArray.length = dflArrayMaxSize

/-- The size of the structure up to the end of `csr_array`. -/
def BufferRequest.minsz : Nat := 24 + 8 * dflArrayMaxSize

/-- The writes to the registers of a request. -/
def writeCsrs (cache : DflCxlCache) (value : BitVec 64)
    (csrArray : List (BitVec 64)) : List CacheEvent :=
  (csrArray.filter fun csr =>
    decide (csr ≠ 0) && decide (csr < cache.rinfo.size)).map (.writeq value)

/-- The checks of a request to map on its arguments. -/
def mapArgsOk (userAddr length : BitVec 64) : Bool :=
  pageAligned userAddr && pageAligned length && decide (length ≠ 0) &&
    !decide (userAddr + length < userAddr)

/-- The pages are write-protected unless the request asks for writable ones. -/
def protectPages (flags : BitVec 32) (answers : BufferMapAnswers) :
    Option Errno :=
  if flags &&& dflCxlBufferMapWritable = 0 then answers.setReadOnly else none

/--
The region of a request.  Its physical address, that of the first page, is set
once the region is linked, and does not matter to linking.
-/
def BufferRequest.region (request : BufferRequest) (pages : List Nat) :
    DflCxlCacheBufferRegion where
  flags := request.flags
  userAddr := request.userAddr
  length := request.length
  pages := some pages
  phys := pfnPhys (BitVec.ofNat 64 (pages.headD 0))

/--
`cxl_cache_ioctl_numa_buffer_map`.  There is no answer when it reads the first
of no pages.
-/
def cxlCacheIoctlNumaBufferMap (request : BufferRequest)
    (answers : BufferMapAnswers) (cache : DflCxlCache) :
    Option (Option Errno × DflCxlCache) :=
  if !request.copyFromUser then
    some (some .efault, cache)
  else if request.argsz < BufferRequest.minsz then
    some (some .einval, cache)
  else if !mapArgsOk request.userAddr request.length then
    some (some .einval, cache)
  else if !answers.kzalloc then
    some (some .enomem, cache)
  else
    match cxlCacheDmaPinPages answers request.length with
    | (.error ret, events) => some (some ret, cache.emit events)
    | (.ok pages, events) =>
        let region := request.region pages
        let unpin := cxlCacheUnpinPages region.pages region.length
        if !cxlCacheCheckContinuousPages pages then
          some (some .einval, cache.emit (events ++ unpin))
        else if pages.isEmpty then
          none
        else
          match protectPages request.flags answers with
          | some ret => some (some ret, cache.emit (events ++ unpin))
          | none =>
              match cxlCacheDmaRegionAdd ops region cache.dmaRegions with
              | none => some (some .eexist, cache.emit (events ++ unpin))
              | some regions =>
                  some (none,
                    { cache with dmaRegions := regions }.emit
                      (events ++
                        writeCsrs cache region.phys request.csrArray))

/-- `cxl_cache_ioctl_numa_buffer_unmap` -/
def cxlCacheIoctlNumaBufferUnmap (request : BufferRequest)
    (cache : DflCxlCache) : Option Errno × DflCxlCache :=
  if !request.copyFromUser then
    (some .efault, cache)
  else if request.argsz < BufferRequest.minsz then
    (some .einval, cache)
  else
    match cxlCacheDmaRegionFind request.userAddr request.length
        cache.dmaRegions with
    | none => (some .einval, cache)
    | some (place, region) =>
        (none,
          { cache with
            dmaRegions := ops.erase cache.dmaRegions place }.emit
            (cxlCacheUnpinPages region.pages region.length ++
              writeCsrs cache 0 request.csrArray))

/-! ## The file operations -/

/-- `VM_READ` -/
def vmRead : BitVec 64 := 1#64

/-- `VM_WRITE` -/
def vmWrite : BitVec 64 := 2#64

/-- `VM_SHARED` -/
def vmShared : BitVec 64 := 8#64

/-- `struct vm_area_struct`, as it is handed to a driver -/
structure VmAreaStruct where
  vmStart : BitVec 64
  vmEnd : BitVec 64
  vmFlags : BitVec 64
  vmPgoff : BitVec 64
  startAligned : pageAligned vmStart = true
  endAligned : pageAligned vmEnd = true
  nonempty : vmStart < vmEnd

/-- `dfl_cxl_cache_mmap`, with what `remap_pfn_range` returns -/
def dflCxlCacheMmap (vma : VmAreaStruct) (remap : Option Errno)
    (cache : DflCxlCache) : Option Errno × DflCxlCache :=
  let size := vma.vmEnd - vma.vmStart
  if vma.vmFlags &&& vmShared = 0 then
    (some .einval, cache)
  else if cache.rinfo.flags &&& dflCxlCacheRegionMmap = 0 then
    (some .einval, cache)
  else if vma.vmFlags &&& vmRead ≠ 0 ∧
      cache.rinfo.flags &&& dflCxlCacheRegionRead = 0 then
    (some .eperm, cache)
  else if vma.vmFlags &&& vmWrite ≠ 0 ∧
      cache.rinfo.flags &&& dflCxlCacheRegionWrite = 0 then
    (some .eperm, cache)
  else
    let offset := pfnPhys vma.vmPgoff
    let pfn := pfnDown
      (BitVec.ofNat 64 cache.mmioRes.start + (offset - cache.rinfo.offset))
    match remap with
    | some ret => (some ret, cache)
    | none => (none, cache.emit [.remapPfnRange pfn size])

/-- `dfl_cxl_cache_open` -/
def dflCxlCacheOpen (cache : DflCxlCache) : Option Errno × DflCxlCache :=
  if cache.opened then (some .ebusy, cache)
  else (none, { cache with opened := true })

/-- `dfl_cxl_cache_release` -/
def dflCxlCacheRelease (cache : DflCxlCache) : DflCxlCache :=
  { cxlCacheDmaRegionDestroy ops cache with opened := false }

/-! ## Sequences of operations -/

inductive CacheOp where
  | openFile
  | release
  | numaBufferMap (request : BufferRequest) (answers : BufferMapAnswers)
  | numaBufferUnmap (request : BufferRequest)
  | mmap (vma : VmAreaStruct) (remap : Option Errno)

/-- An operation, with what it returns; all but the first need an open file. -/
def DflCxlCache.perform (cache : DflCxlCache) (op : CacheOp) :
    Option (Option Errno × DflCxlCache) :=
  match op with
  | .openFile => some (dflCxlCacheOpen cache)
  | .release =>
      if cache.opened then some (none, dflCxlCacheRelease ops cache) else none
  | .numaBufferMap request answers =>
      if cache.opened then
        cxlCacheIoctlNumaBufferMap ops request answers cache
      else none
  | .numaBufferUnmap request =>
      if cache.opened then
        some (cxlCacheIoctlNumaBufferUnmap ops request cache)
      else none
  | .mmap vma remap =>
      if cache.opened then some (dflCxlCacheMmap vma remap cache) else none

/-- The device, and what its operations have returned. -/
structure CacheSession where
  cache : DflCxlCache
  returned : List (CacheOp × Option Errno)

/-- One operation of a session. -/
def CacheSession.Step (session : CacheSession) (op : CacheOp)
    (next : CacheSession) : Prop :=
  ∃ ret, session.cache.perform ops op = some (ret, next.cache) ∧
    next.returned = session.returned ++ [(op, ret)]

/-- The session after an operation. -/
def CacheSession.apply (session : CacheSession) (op : CacheOp) :
    CacheSession :=
  match session.cache.perform ops op with
  | none => session
  | some (ret, cache) => ⟨cache, session.returned ++ [(op, ret)]⟩

/-- The operation returns. -/
def CacheSession.enabled (session : CacheSession) (op : CacheOp) : Bool :=
  (session.cache.perform ops op).isSome

theorem CacheSession.step_apply {session : CacheSession} {op : CacheOp}
    (enabled : session.enabled ops op = true) :
    session.Step ops op (session.apply ops op) := by
  obtain ⟨⟨ret, cache⟩, performs⟩ := Option.isSome_iff_exists.mp enabled
  refine ⟨ret, ?_, ?_⟩
  · rw [apply, performs]
  · rw [apply, performs]

end Tree

/-! ## What a request to map does -/

section Outcomes

variable (ops : Balancing DflCxlCacheBufferRegion)

/-- A request to map passes all checks, and its region is linked. -/
structure MapAccepted (request : BufferRequest) (answers : BufferMapAnswers)
    (cache : DflCxlCache) (pages : List Nat) (events : List CacheEvent)
    (regions : RbTree DflCxlCacheBufferRegion) : Prop where
  copied : request.copyFromUser = true
  complete : BufferRequest.minsz ≤ request.argsz
  args : mapArgsOk request.userAddr request.length = true
  allocated : answers.kzalloc = true
  pins :
    cxlCacheDmaPinPages answers request.length = (.ok pages, events)
  continuous : cxlCacheCheckContinuousPages pages = true
  nonempty : pages ≠ []
  readOnly : protectPages request.flags answers = none
  adds :
    cxlCacheDmaRegionAdd ops (request.region pages) cache.dmaRegions =
      some regions

/-- The event has nothing to do with the device's memory. -/
def CacheEvent.quiet : CacheEvent → Bool
  | .writeq _ _ => false
  | .remapPfnRange _ _ => false
  | _ => true

def Quiet (events : List CacheEvent) : Prop :=
  ∀ event ∈ events, event.quiet = true

theorem Quiet.append {first rest : List CacheEvent} (quiet : Quiet first)
    (later : Quiet rest) : Quiet (first ++ rest) := by
  intro event member
  rcases List.mem_append.mp member with inFirst | inRest
  · exact quiet event inFirst
  · exact later event inRest

theorem quiet_pin (answers : BufferMapAnswers) (length : BitVec 64) :
    Quiet (cxlCacheDmaPinPages answers length).2 := by
  unfold cxlCacheDmaPinPages
  intro event member
  grind [CacheEvent.quiet]

theorem quiet_unpin (pages : Option (List Nat)) (length : BitVec 64) :
    Quiet (cxlCacheUnpinPages pages length) := by
  unfold cxlCacheUnpinPages
  intro event member
  grind [CacheEvent.quiet]

/-- What refuses a request before its pages are pinned. -/
def BufferRequest.refusal (request : BufferRequest)
    (answers : BufferMapAnswers) : Option Errno :=
  if !request.copyFromUser then some .efault
  else if request.argsz < BufferRequest.minsz then some .einval
  else if !mapArgsOk request.userAddr request.length then some .einval
  else if !answers.kzalloc then some .enomem
  else none

/-- The checks of a request, one after the other, are one check. -/
theorem BufferRequest.checks_eq {Result : Type} (request : BufferRequest)
    (answers : BufferMapAnswers) (refused : Errno → Result)
    (passed : Result) :
    (if !request.copyFromUser then refused .efault
      else if request.argsz < BufferRequest.minsz then refused .einval
      else if !mapArgsOk request.userAddr request.length then refused .einval
      else if !answers.kzalloc then refused .enomem
      else passed) = (request.refusal answers).elim passed refused := by
  unfold BufferRequest.refusal
  split_ifs <;> rfl

/-- The request passes the checks. -/
structure BufferRequest.Passes (request : BufferRequest)
    (answers : BufferMapAnswers) : Prop where
  copied : request.copyFromUser = true
  complete : BufferRequest.minsz ≤ request.argsz
  args : mapArgsOk request.userAddr request.length = true
  allocated : answers.kzalloc = true

theorem BufferRequest.refusal_eq_none_iff {request : BufferRequest}
    {answers : BufferMapAnswers} :
    request.refusal answers = none ↔ request.Passes answers := by
  unfold BufferRequest.refusal
  constructor
  · intro passes
    split_ifs at passes with copied short args alloc
    exact
      { copied := by simpa using copied
        complete := Nat.le_of_not_lt short
        args := by simpa using args
        allocated := by simpa using alloc }
  · rintro ⟨copied, complete, args, allocated⟩
    rw [copied, if_neg (by decide), if_neg (Nat.not_lt.mpr complete), args,
      if_neg (by decide), allocated, if_neg (by decide)]

/-- The ways in which a request to map returns. -/
inductive MapOutcome (request : BufferRequest) (answers : BufferMapAnswers)
    (cache : DflCxlCache) : Option Errno → DflCxlCache → Prop where
  | refused (ret : Errno) {events : List CacheEvent} (quiet : Quiet events) :
      MapOutcome request answers cache (some ret) (cache.emit events)
  | accepted {pages : List Nat} {events : List CacheEvent}
      {regions : RbTree DflCxlCacheBufferRegion}
      (isAccepted :
        MapAccepted ops request answers cache pages events regions) :
      MapOutcome request answers cache none
        ({ cache with dmaRegions := regions }.emit
          (events ++
            writeCsrs cache (request.region pages).phys request.csrArray))

theorem cxlCacheIoctlNumaBufferMap_outcome {request : BufferRequest}
    {answers : BufferMapAnswers} {cache next : DflCxlCache}
    {ret : Option Errno}
    (returns : cxlCacheIoctlNumaBufferMap ops request answers cache =
      some (ret, next)) :
    MapOutcome ops request answers cache ret next := by
  have unchanged : cache.emit [] = cache := by
    unfold DflCxlCache.emit
    rw [List.append_nil]
  have early : ∀ code,
      MapOutcome ops request answers cache (some code) cache := by
    intro code
    have outcome : MapOutcome ops request answers cache (some code)
        (cache.emit []) :=
      .refused code fun event member => absurd member List.not_mem_nil
    rw [unchanged] at outcome
    exact outcome
  unfold cxlCacheIoctlNumaBufferMap at returns
  rw [request.checks_eq answers fun ret => some (some ret, cache)] at returns
  rcases checks : request.refusal answers with - | code
  case some =>
    rw [checks] at returns
    cases returns
    exact early code
  rw [checks] at returns
  dsimp only [Option.elim] at returns
  have passes := BufferRequest.refusal_eq_none_iff.mp checks
  have quiet := quiet_pin answers request.length
  rcases pins : cxlCacheDmaPinPages answers request.length with
    ⟨code | pages, events⟩
  · simp only [pins, Option.some.injEq, Prod.mk.injEq] at returns quiet
    obtain ⟨rfl, rfl⟩ := returns
    exact .refused _ quiet
  simp only [pins] at returns quiet
  have undone : Quiet (events ++ cxlCacheUnpinPages
      (request.region pages).pages (request.region pages).length) :=
    quiet.append (quiet_unpin _ _)
  by_cases gaps : (!cxlCacheCheckContinuousPages pages) = true
  · rw [if_pos gaps] at returns
    cases returns
    exact .refused _ undone
  rw [if_neg gaps] at returns
  by_cases noPages : pages.isEmpty = true
  · rw [if_pos noPages] at returns
    cases returns
  rw [if_neg noPages] at returns
  cases protects : protectPages request.flags answers with
  | some code =>
      simp only [protects, Option.some.injEq, Prod.mk.injEq] at returns
      obtain ⟨rfl, rfl⟩ := returns
      exact .refused _ undone
  | none =>
      simp only [protects] at returns
      cases adds : cxlCacheDmaRegionAdd ops (request.region pages)
          cache.dmaRegions with
      | none =>
          simp only [adds, Option.some.injEq, Prod.mk.injEq] at returns
          obtain ⟨rfl, rfl⟩ := returns
          exact .refused _ undone
      | some regions =>
          simp only [adds, Option.some.injEq, Prod.mk.injEq] at returns
          obtain ⟨rfl, rfl⟩ := returns
          exact .accepted
            { copied := passes.copied
              complete := passes.complete
              args := passes.args
              allocated := passes.allocated
              pins := pins
              continuous := by simpa using gaps
              nonempty := mt List.isEmpty_iff.mpr noPages
              readOnly := protects
              adds := adds }

/-- An accepted request succeeds. -/
theorem MapAccepted.returns {request : BufferRequest}
    {answers : BufferMapAnswers} {cache : DflCxlCache} {pages : List Nat}
    {events : List CacheEvent} {regions : RbTree DflCxlCacheBufferRegion}
    (accepted :
      MapAccepted ops request answers cache pages events regions) :
    cxlCacheIoctlNumaBufferMap ops request answers cache =
      some (none,
        { cache with dmaRegions := regions }.emit
          (events ++
            writeCsrs cache (request.region pages).phys
              request.csrArray)) := by
  have notEmpty : ¬ pages.isEmpty = true :=
    mt List.isEmpty_iff.mp accepted.nonempty
  have passes : request.Passes answers :=
    ⟨accepted.copied, accepted.complete, accepted.args, accepted.allocated⟩
  unfold cxlCacheIoctlNumaBufferMap
  rw [request.checks_eq answers fun ret => some (some ret, cache),
    BufferRequest.refusal_eq_none_iff.mpr passes, Option.elim_none,
    accepted.pins]
  dsimp only
  rw [accepted.continuous, if_neg (by decide), if_neg notEmpty,
    accepted.readOnly, accepted.adds]

end Outcomes

/-- A session with a device which has just been added. -/
def cacheSession (mmioRes : MmioRes) : CacheSession :=
  ⟨cxlCacheChardevInit mmioRes, []⟩

end LinuxDfl.Cxl
