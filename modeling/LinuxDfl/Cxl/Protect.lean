import LinuxDfl.Cxl.UnmapExact
import LinuxDfl.Cxl.UserMemory

/-!
# Which pages a mapped buffer write-protects

A request to map a buffer which is not to be written by its user protects the
whole area at the first address of the buffer, before its region is linked.
It takes the permission from the pages of the buffer and no others, and leaves
everything as it was when it fails, under conditions on the areas, the page
table and the regions which are there.
-/

namespace LinuxDfl.Cxl.Protect

open LinuxDfl.Kernel
open LinuxDfl.Lib.SearchTree

/-! ## The request -/

section Request

variable (ops : Balancing DflCxlCacheBufferRegion)

/--
`cxl_cache_ioctl_numa_buffer_map`, together with the memory of its caller.
There is no answer when it reads the first of no pages.
-/
def cxlCacheIoctlNumaBufferMap (request : BufferRequest)
    (answers : BufferMapAnswers) (mm : MmStruct) (cache : DflCxlCache) :
    Option (Option Errno × MmStruct × DflCxlCache) :=
  if !request.copyFromUser then
    some (some .efault, mm, cache)
  else if request.argsz < BufferRequest.minsz then
    some (some .einval, mm, cache)
  else if !mapArgsOk request.userAddr request.length then
    some (some .einval, mm, cache)
  else if !answers.kzalloc then
    some (some .enomem, mm, cache)
  else
    match cxlCacheDmaPinPages answers request.length with
    | (.error ret, events) => some (some ret, mm, cache.emit events)
    | (.ok pages, events) =>
        let region := request.region pages
        let unpin := cxlCacheUnpinPages region.pages region.length
        if !cxlCacheCheckContinuousPages pages then
          some (some .einval, mm, cache.emit (events ++ unpin))
        else
          let (protects, mm) :=
            if request.flags &&& dflCxlBufferMapWritable = 0 then
              cxlCacheSetRegionReadOnly request.userAddr mm
            else (none, mm)
          match protects with
          | some ret => some (some ret, mm, cache.emit (events ++ unpin))
          | none =>
              -- what is protected is flushed, from its first page on
              if request.flags &&& dflCxlBufferMapWritable = 0 ∧
                  pages.isEmpty then none
              else
                match cxlCacheDmaRegionAdd ops region cache.dmaRegions with
                | none =>
                    some (some .eexist, mm, cache.emit (events ++ unpin))
                | some regions =>
                    if pages.isEmpty then none
                    else
                      some (none, mm,
                        { cache with dmaRegions := regions }.emit
                          (events ++
                            writeCsrs cache region.phys request.csrArray))

end Request

/-! ## What is to hold -/

namespace Effect

def charged : CacheEvent → Nat
  | .charge pages => pages
  | _ => 0

def uncharged : CacheEvent → Nat
  | .uncharge pages => pages
  | _ => 0

def pinned (page : Nat) : CacheEvent → Nat
  | .pin pages => pages.count page
  | _ => 0

def unpinned (page : Nat) : CacheEvent → Nat
  | .unpin pages count => (pages.take count).count page
  | _ => 0

/-- Pages are unpinned from the array which holds them. -/
def Inside : CacheEvent → Prop
  | .unpin pages count => count ≤ pages.length
  | _ => True

/-- The sum of a count over events. -/
def total (count : CacheEvent → Nat) (events : List CacheEvent) : Nat :=
  (events.map count).sum

end Effect

/-- What was charged and pinned has been uncharged and unpinned. -/
structure Undone (events : List CacheEvent) : Prop where
  charged :
    Effect.total Effect.charged events = Effect.total Effect.uncharged events
  pinned : ∀ page,
    Effect.total (Effect.pinned page) events =
      Effect.total (Effect.unpinned page) events
  inside : ∀ event ∈ events, Effect.Inside event

/-- The page lies in the buffer of the request. -/
def InBuffer (request : BufferRequest) (page : Nat) : Prop :=
  PageIn request.userAddr (request.userAddr + request.length) page

/--
A request which succeeds takes the write permission from the pages of its
buffer only, and one which fails leaves permissions, pinned pages, locked
memory and regions as they were.
-/
structure Framed (request : BufferRequest) (mm mm' : MmStruct)
    (cache cache' : DflCxlCache) (ret : Option Errno) : Prop where
  success : ret = none → ∀ page,
    mm'.Writable page ↔ mm.Writable page ∧ ¬ InBuffer request page
  permissions : ret ≠ none → ∀ page, mm'.Writable page ↔ mm.Writable page
  regions : ret ≠ none → cache'.dmaRegions = cache.dmaRegions
  undone : ret ≠ none →
    ∃ events, cache'.events = cache.events ++ events ∧ Undone events

/-- All checks on the request pass, and its pages are pinned. -/
structure Pins (request : BufferRequest) (answers : BufferMapAnswers)
    (pages : List Nat) (events : List CacheEvent) : Prop where
  copied : request.copyFromUser = true
  complete : BufferRequest.minsz ≤ request.argsz
  args : mapArgsOk request.userAddr request.length = true
  allocated : answers.kzalloc = true
  pins :
    cxlCacheDmaPinPages answers request.length = (.ok pages, events)

/-- An `int` holds the number of pages. -/
def PagesCounted (length : BitVec 64) : Prop := longPages length < 2 ^ 31

/-- The pages are not contiguous, or there is no area at the address. -/
def StopsUnprotected (request : BufferRequest) (pages : List Nat)
    (mm : MmStruct) : Prop :=
  cxlCacheCheckContinuousPages pages = false ∨
    mm.vmaLookup request.userAddr = none

/--
A request whose pages have been pinned: if it fails, their number fits, and
nothing is protected which it leaves so; if it succeeds, the pages of the
buffer which may be written are those which the area at its address sheds.
-/
def ProtectsExactly (ops : Balancing DflCxlCacheBufferRegion)
    (request : BufferRequest) (answers : BufferMapAnswers) (mm : MmStruct)
    (cache : DflCxlCache) : Prop :=
  ∀ pages events, Pins request answers pages events →
    (StopsUnprotected request pages mm → PagesCounted request.length) ∧
      (¬ StopsUnprotected request pages mm →
        match cxlCacheDmaRegionAdd ops (request.region pages)
            cache.dmaRegions with
        | none =>
            PagesCounted request.length ∧
              ∀ page, ¬ mm.Sheds request.userAddr page
        | some _ =>
            ∀ page, mm.Writable page →
              (InBuffer request page ↔ mm.Sheds request.userAddr page))

/-! ## How a request returns -/

/-- The ways in which a request for protected pages returns. -/
inductive Outcome (ops : Balancing DflCxlCacheBufferRegion)
    (request : BufferRequest) (answers : BufferMapAnswers) (mm : MmStruct)
    (cache : DflCxlCache) :
    Option Errno → MmStruct → DflCxlCache → Prop where
  /-- It fails before its pages are pinned. -/
  | refused (ret : Errno) {events : List CacheEvent}
      (never : ∀ pages pinned, ¬ Pins request answers pages pinned)
      (undone : Undone events) :
      Outcome ops request answers mm cache (some ret) mm (cache.emit events)
  | stopped (ret : Errno) {pages : List Nat} {events : List CacheEvent}
      (pins : Pins request answers pages events)
      (stops : StopsUnprotected request pages mm) :
      Outcome ops request answers mm cache (some ret) mm
        (cache.emit
          (events ++ cxlCacheUnpinPages (some pages) request.length))
  | notAdded (ret : Errno) {pages : List Nat} {events : List CacheEvent}
      (pins : Pins request answers pages events)
      (goes : ¬ StopsUnprotected request pages mm)
      (refuses :
        cxlCacheDmaRegionAdd ops (request.region pages) cache.dmaRegions =
          none) :
      Outcome ops request answers mm cache (some ret)
        (cxlCacheSetRegionReadOnly request.userAddr mm).2
        (cache.emit
          (events ++ cxlCacheUnpinPages (some pages) request.length))
  | accepted {pages : List Nat} {events : List CacheEvent}
      {regions : RbTree DflCxlCacheBufferRegion} {next : DflCxlCache}
      (pins : Pins request answers pages events)
      (goes : ¬ StopsUnprotected request pages mm)
      (adds :
        cxlCacheDmaRegionAdd ops (request.region pages) cache.dmaRegions =
          some regions) :
      Outcome ops request answers mm cache none
        (cxlCacheSetRegionReadOnly request.userAddr mm).2 next

/-- What is charged, and maybe pinned, is given back when pinning fails. -/
theorem undone_charge {count : Nat} {events : List CacheEvent}
    (pins : events = [] ∨ ∃ pages : List Nat,
      events = [.pin pages, .unpin pages pages.length]) :
    Undone (.charge count :: events ++ [.uncharge count]) := by
  rcases pins with rfl | ⟨pages, rfl⟩
  · refine ⟨?_, fun page => ?_, ?_⟩
    · simp [Effect.total, Effect.charged, Effect.uncharged]
    · simp [Effect.total, Effect.pinned, Effect.unpinned]
    · simp [Effect.Inside]
  · refine ⟨?_, fun page => ?_, ?_⟩
    · simp [Effect.total, Effect.charged, Effect.uncharged]
    · simp [Effect.total, Effect.pinned, Effect.unpinned]
    · simp [Effect.Inside]

theorem undone_nil : Undone [] :=
  ⟨rfl, fun _ => rfl, fun _ member => absurd member List.not_mem_nil⟩

/-- How pages are pinned. -/
theorem pinPages_cases (answers : BufferMapAnswers) (length : BitVec 64) :
    (∃ ret events, cxlCacheDmaPinPages answers length =
        (.error ret, events) ∧ Undone events) ∨
      ∃ pages, cxlCacheDmaPinPages answers length =
          (.ok pages,
            [.charge (unsignedLong (intPages length)), .pin pages]) ∧
        (pages.length : Int) = (intPages length).toInt := by
  unfold cxlCacheDmaPinPages
  cases answers.account with
  | some ret => exact Or.inl ⟨ret, [], rfl, undone_nil⟩
  | none =>
      dsimp only
      split
      · exact Or.inl ⟨_, _, rfl, undone_charge (Or.inl rfl)⟩
      · cases answers.pin with
        | error ret => exact Or.inl ⟨_, _, rfl, undone_charge (Or.inl rfl)⟩
        | ok frames =>
            dsimp only
            split
            · next counted => exact Or.inr ⟨_, rfl, counted⟩
            · exact Or.inl ⟨_, _, rfl, undone_charge (Or.inr ⟨_, rfl⟩)⟩

theorem pinPages_error_undone {answers : BufferMapAnswers}
    {length : BitVec 64} {ret : Errno} {events : List CacheEvent}
    (pins : cxlCacheDmaPinPages answers length = (.error ret, events)) :
    Undone events := by
  rcases pinPages_cases answers length with
    ⟨_, _, same, undone⟩ | ⟨_, same, -⟩
  · rw [pins] at same
    cases same
    exact undone
  · rw [pins] at same
    cases same

/-- Pages which are pinned are charged, and counted in an `int`. -/
theorem pinPages_ok {answers : BufferMapAnswers} {length : BitVec 64}
    {pages : List Nat} {events : List CacheEvent}
    (pins : cxlCacheDmaPinPages answers length = (.ok pages, events)) :
    events = [.charge pages.length, .pin pages] ∧
      pages.length = longPages length % 2 ^ 32 ∧ pages.length < 2 ^ 31 := by
  rcases pinPages_cases answers length with
    ⟨_, _, same, -⟩ | ⟨_, same, counted⟩
  · rw [pins] at same
    cases same
  · rw [pins] at same
    cases same
    have nonneg : 0 ≤ (intPages length).toInt := by omega
    have below := BitVec.toInt_lt (x := intPages length)
    obtain ⟨charged, toInt⟩ := unsignedLong_of_nonneg nonneg
    have size : pages.length = (intPages length).toNat := by omega
    rw [charged, ← size, ← intPages_toNat]
    exact ⟨rfl, size, by omega⟩

/-- What was pinned is undone exactly if the pages were counted rightly. -/
theorem undone_unpin_iff {answers : BufferMapAnswers} {length : BitVec 64}
    {pages : List Nat} {events : List CacheEvent}
    (pins : cxlCacheDmaPinPages answers length = (.ok pages, events)) :
    Undone (events ++ cxlCacheUnpinPages (some pages) length) ↔
      PagesCounted length := by
  obtain ⟨rfl, counted, small⟩ := pinPages_ok pins
  unfold PagesCounted
  constructor
  · intro undone
    have charged := undone.charged
    simp [Effect.total, Effect.charged, Effect.uncharged,
      cxlCacheUnpinPages] at charged
    omega
  · intro fits
    have exactly : longPages length = pages.length := by omega
    refine ⟨?_, fun page => ?_, ?_⟩
    · simp [Effect.total, Effect.charged, Effect.uncharged,
        cxlCacheUnpinPages, exactly]
    · simp [Effect.total, Effect.pinned, Effect.unpinned,
        cxlCacheUnpinPages, exactly]
    · simp [Effect.Inside, cxlCacheUnpinPages, exactly]

theorem Pins.passes {request : BufferRequest} {answers : BufferMapAnswers}
    {pages : List Nat} {events : List CacheEvent}
    (pins : Pins request answers pages events) : request.Passes answers :=
  ⟨pins.copied, pins.complete, pins.args, pins.allocated⟩

theorem outcome (ops : Balancing DflCxlCacheBufferRegion)
    {request : BufferRequest} {answers : BufferMapAnswers}
    {mm mm' : MmStruct} {cache cache' : DflCxlCache} {ret : Option Errno}
    (protects : request.flags &&& dflCxlBufferMapWritable = 0)
    (returns :
      cxlCacheIoctlNumaBufferMap ops request answers mm cache =
        some (ret, mm', cache')) :
    Outcome ops request answers mm cache ret mm' cache' := by
  have unchanged : cache.emit [] = cache := by
    unfold DflCxlCache.emit
    rw [List.append_nil]
  have early : ∀ code, (∀ pages pinned, ¬ Pins request answers pages pinned) →
      Outcome ops request answers mm cache (some code) mm cache := by
    intro code never
    have refused : Outcome ops request answers mm cache (some code) mm
        (cache.emit []) := .refused code never undone_nil
    rw [unchanged] at refused
    exact refused
  unfold cxlCacheIoctlNumaBufferMap at returns
  rw [request.checks_eq answers fun ret => some (some ret, mm, cache)]
    at returns
  rcases checks : request.refusal answers with - | code
  case some =>
    rw [checks] at returns
    cases returns
    refine early code fun _ _ pins => ?_
    rw [BufferRequest.refusal_eq_none_iff.mpr pins.passes] at checks
    cases checks
  rw [checks] at returns
  dsimp only [Option.elim] at returns
  have passes := BufferRequest.refusal_eq_none_iff.mp checks
  rcases pins : cxlCacheDmaPinPages answers request.length with
    ⟨code | pages, events⟩
  · simp only [pins, Option.some.injEq, Prod.mk.injEq] at returns
    obtain ⟨rfl, rfl, rfl⟩ := returns
    refine .refused _ (fun _ _ others => ?_) (pinPages_error_undone pins)
    have otherwise := others.pins
    rw [pins] at otherwise
    cases otherwise
  have pinned : Pins request answers pages events :=
    { copied := passes.copied
      complete := passes.complete
      args := passes.args
      allocated := passes.allocated
      pins := pins }
  simp only [pins] at returns
  by_cases gaps : (!cxlCacheCheckContinuousPages pages) = true
  · rw [if_pos gaps] at returns
    cases returns
    exact .stopped _ pinned (Or.inl (by simpa using gaps))
  rw [if_neg gaps] at returns
  rw [if_pos protects] at returns
  cases found : mm.vmaLookup request.userAddr with
  | none =>
      have fails : cxlCacheSetRegionReadOnly request.userAddr mm =
          (some .einval, mm) := by
        unfold cxlCacheSetRegionReadOnly
        rw [found]
      simp only [fails] at returns
      cases returns
      exact .stopped _ pinned (Or.inr found)
  | some vma =>
      have goes : ¬ StopsUnprotected request pages mm := by
        rintro (broken | none)
        · rw [broken] at gaps
          exact gaps rfl
        · rw [found] at none
          cases none
      have succeeds : cxlCacheSetRegionReadOnly request.userAddr mm =
          (none, (cxlCacheSetRegionReadOnly request.userAddr mm).2) := by
        unfold cxlCacheSetRegionReadOnly
        rw [found]
      rw [succeeds] at returns
      dsimp only at returns
      by_cases noPages : pages.isEmpty = true
      · rw [if_pos ⟨protects, noPages⟩] at returns
        cases returns
      rw [if_neg fun both => noPages both.2] at returns
      cases adds : cxlCacheDmaRegionAdd ops (request.region pages)
          cache.dmaRegions with
      | none =>
          simp only [adds, Option.some.injEq, Prod.mk.injEq] at returns
          obtain ⟨rfl, rfl, rfl⟩ := returns
          exact .notAdded _ pinned goes adds
      | some regions =>
          simp only [adds] at returns
          rw [if_neg noPages] at returns
          cases returns
          exact .accepted pinned goes adds

/-- Only one way of pinning is that of a request. -/
theorem Pins.unique {request : BufferRequest} {answers : BufferMapAnswers}
    {pages others : List Nat} {events otherEvents : List CacheEvent}
    (pins : Pins request answers pages events)
    (alsoPins : Pins request answers others otherEvents) :
    others = pages := by
  have same := pins.pins
  rw [alsoPins.pins] at same
  cases same
  rfl

section Exactness

variable {ops : Balancing DflCxlCacheBufferRegion} {request : BufferRequest}
  {answers : BufferMapAnswers} {mm : MmStruct} {cache : DflCxlCache}
  {pages : List Nat} {events : List CacheEvent}

/-- What matters of a request is what is so of its pages. -/
theorem Pins.protectsExactly_iff (pins : Pins request answers pages events) :
    ProtectsExactly ops request answers mm cache ↔
      (StopsUnprotected request pages mm → PagesCounted request.length) ∧
      (¬ StopsUnprotected request pages mm →
        match cxlCacheDmaRegionAdd ops (request.region pages)
            cache.dmaRegions with
        | none =>
            PagesCounted request.length ∧
              ∀ page, ¬ mm.Sheds request.userAddr page
        | some _ =>
            ∀ page, mm.Writable page →
              (InBuffer request page ↔ mm.Sheds request.userAddr page)) := by
  constructor
  · exact fun exactly => exactly pages events pins
  · intro exactly others _ alsoPins
    rw [pins.unique alsoPins]
    exact exactly

/-- A failure is framed exactly if permissions stay and pins are undone. -/
theorem framed_failure_iff (mm' : MmStruct) (ret : Errno)
    (more : List CacheEvent) :
    Framed request mm mm' cache (cache.emit more) (some ret) ↔
      (∀ page, mm'.Writable page ↔ mm.Writable page) ∧ Undone more := by
  constructor
  · intro framed
    obtain ⟨others, same, undone⟩ := framed.undone nofun
    rw [List.append_cancel_left same]
    exact ⟨framed.permissions nofun, undone⟩
  · rintro ⟨permissions, undone⟩
    exact ⟨nofun, fun _ => permissions, fun _ => rfl,
      fun _ => ⟨more, rfl, undone⟩⟩

theorem exists_area (goes : ¬ StopsUnprotected request pages mm) :
    ∃ vma, mm.vmaLookup request.userAddr = some vma :=
  Option.ne_none_iff_exists'.mp fun none => goes (Or.inr none)

theorem kept_iff_nothing_shed (goes : ¬ StopsUnprotected request pages mm) :
    (∀ page, (cxlCacheSetRegionReadOnly request.userAddr mm).2.Writable page ↔
        mm.Writable page) ↔
      ∀ page, ¬ mm.Sheds request.userAddr page := by
  obtain ⟨vma, found⟩ := exists_area goes
  refine forall_congr' fun page => ?_
  rw [writable_iff_not_sheds found]
  constructor
  · intro kept sheds
    have writable : mm.Writable page := by
      obtain ⟨-, -, -, writable, -⟩ := sheds
      exact writable
    exact (kept.mpr writable).2 sheds
  · intro keeps
    exact and_iff_left keeps

theorem taken_iff_shed (goes : ¬ StopsUnprotected request pages mm) :
    (∀ page, (cxlCacheSetRegionReadOnly request.userAddr mm).2.Writable page ↔
        mm.Writable page ∧ ¬ InBuffer request page) ↔
      ∀ page, mm.Writable page →
        (InBuffer request page ↔ mm.Sheds request.userAddr page) := by
  obtain ⟨vma, found⟩ := exists_area goes
  refine forall_congr' fun page => ?_
  rw [writable_iff_not_sheds found, and_congr_right_iff]
  refine imp_congr_right fun _ => ?_
  rw [not_iff_not]
  exact iff_comm

/--
A request which asks for protected pages is framed, however it returns, if and
only if the area at its address sheds the permissions of its buffer alone, or
none where it fails, and its pages are counted rightly where they are unpinned.
-/
theorem map_framed_iff {mm' : MmStruct} {cache' : DflCxlCache}
    {ret : Option Errno}
    (protects : request.flags &&& dflCxlBufferMapWritable = 0)
    (returns :
      cxlCacheIoctlNumaBufferMap ops request answers mm cache =
        some (ret, mm', cache')) :
    Framed request mm mm' cache cache' ret ↔
      ProtectsExactly ops request answers mm cache := by
  cases outcome ops protects returns with
  | refused code never undone =>
      refine iff_of_true ?_ fun pages events pins =>
        absurd pins (never pages events)
      exact (framed_failure_iff mm code _).mpr ⟨fun _ => Iff.rfl, undone⟩
  | stopped code pins stops =>
      rw [pins.protectsExactly_iff, framed_failure_iff,
        undone_unpin_iff pins.pins]
      constructor
      · rintro ⟨-, counted⟩
        exact ⟨fun _ => counted, fun goes => absurd stops goes⟩
      · rintro ⟨counted, -⟩
        exact ⟨fun _ => Iff.rfl, counted stops⟩
  | notAdded code pins goes refuses =>
      rw [pins.protectsExactly_iff, framed_failure_iff,
        undone_unpin_iff pins.pins, refuses, kept_iff_nothing_shed goes]
      constructor
      · rintro ⟨nothing, counted⟩
        exact ⟨fun _ => counted, fun _ => ⟨counted, nothing⟩⟩
      · rintro ⟨-, exactly⟩
        exact (exactly goes).symm
  | accepted pins goes adds =>
      rw [pins.protectsExactly_iff, adds]
      constructor
      · intro framed
        exact ⟨fun stops => absurd stops goes,
          fun _ => (taken_iff_shed goes).mp (framed.success rfl)⟩
      · rintro ⟨-, exactly⟩
        exact ⟨fun _ => (taken_iff_shed goes).mpr (exactly goes),
          fun fails => absurd rfl fails, fun fails => absurd rfl fails,
          fun fails => absurd rfl fails⟩

end Exactness

/-! ## The request as the device sees it -/

/--
Seen from the device, the request is the one which is told what protecting the
area returns.
-/
theorem map_agrees (ops : Balancing DflCxlCacheBufferRegion)
    {request : BufferRequest} {answers : BufferMapAnswers} {mm : MmStruct}
    {cache cache' : DflCxlCache} {ret : Option Errno}
    (returns :
      Cxl.cxlCacheIoctlNumaBufferMap ops request
        { answers with
          setReadOnly := (cxlCacheSetRegionReadOnly request.userAddr mm).1 }
        cache = some (ret, cache')) :
    ∃ mm', cxlCacheIoctlNumaBufferMap ops request answers mm cache =
      some (ret, mm', cache') := by
  unfold Cxl.cxlCacheIoctlNumaBufferMap at returns
  unfold cxlCacheIoctlNumaBufferMap
  have sameChecks :
      request.refusal
        { answers with
          setReadOnly := (cxlCacheSetRegionReadOnly request.userAddr mm).1 } =
        request.refusal answers := rfl
  rw [request.checks_eq _ fun ret => some (some ret, cache), sameChecks]
    at returns
  rw [request.checks_eq answers fun ret => some (some ret, mm, cache)]
  rcases checks : request.refusal answers with - | code
  case some =>
    rw [checks] at returns
    cases returns
    exact ⟨_, rfl⟩
  rw [checks] at returns
  dsimp only [Option.elim] at returns ⊢
  have samePins :
      cxlCacheDmaPinPages
        { answers with
          setReadOnly := (cxlCacheSetRegionReadOnly request.userAddr mm).1 }
        request.length = cxlCacheDmaPinPages answers request.length := rfl
  rw [samePins] at returns
  rcases pins : cxlCacheDmaPinPages answers request.length with
    ⟨code | pages, events⟩
  · simp only [pins, Option.some.injEq, Prod.mk.injEq] at returns ⊢
    exact ⟨mm, returns.1, rfl, returns.2⟩
  simp only [pins] at returns ⊢
  by_cases gaps : (!cxlCacheCheckContinuousPages pages) = true
  · rw [if_pos gaps] at returns ⊢
    cases returns
    exact ⟨_, rfl⟩
  rw [if_neg gaps] at returns ⊢
  by_cases noPages : pages.isEmpty = true
  · rw [if_pos noPages] at returns
    cases returns
  rw [if_neg noPages] at returns
  have goesOn : ∀ next : MmStruct,
      (match cxlCacheDmaRegionAdd ops (request.region pages)
          cache.dmaRegions with
        | none => some (some Errno.eexist, cache.emit (events ++
            cxlCacheUnpinPages (request.region pages).pages
              (request.region pages).length))
        | some regions =>
            some (none, { cache with dmaRegions := regions }.emit (events ++
              writeCsrs cache (request.region pages).phys
                request.csrArray))) = some (ret, cache') →
      ∃ mm', (match cxlCacheDmaRegionAdd ops (request.region pages)
          cache.dmaRegions with
        | none => some (some Errno.eexist, next, cache.emit (events ++
            cxlCacheUnpinPages (request.region pages).pages
              (request.region pages).length))
        | some regions =>
            if pages.isEmpty then none
            else
              some (none, next,
                { cache with dmaRegions := regions }.emit (events ++
                  writeCsrs cache (request.region pages).phys
                    request.csrArray))) = some (ret, mm', cache') := by
    intro next links
    cases adds : cxlCacheDmaRegionAdd ops (request.region pages)
        cache.dmaRegions with
    | none =>
        simp only [adds] at links ⊢
        cases links
        exact ⟨_, rfl⟩
    | some regions =>
        simp only [adds] at links ⊢
        rw [if_neg noPages]
        cases links
        exact ⟨_, rfl⟩
  have goesPast : ¬ (request.flags &&& dflCxlBufferMapWritable = 0 ∧
      pages.isEmpty = true) := fun both => noPages both.2
  unfold protectPages at returns
  by_cases protects : request.flags &&& dflCxlBufferMapWritable = 0
  · rw [if_pos protects] at returns ⊢
    rcases protected' : cxlCacheSetRegionReadOnly request.userAddr mm with
      ⟨- | code, next⟩
    · simp only [protected'] at returns ⊢
      rw [if_neg goesPast]
      exact goesOn next returns
    · simp only [protected'] at returns ⊢
      cases returns
      exact ⟨_, rfl⟩
  · rw [if_neg protects] at returns ⊢
    dsimp only at returns ⊢
    rw [if_neg goesPast]
    exact goesOn mm returns

/-! ## Two areas -/

/-- A private area of some pages from `0x1000` on, which may be written. -/
def writableArea (vmEnd : BitVec 64) (aligned : pageAligned vmEnd = true)
    (nonempty : 0x1000#64 < vmEnd) : VmAreaStruct where
  vmStart := 0x1000
  vmEnd := vmEnd
  vmFlags := vmRead ||| vmWrite
  vmPgoff := 0
  startAligned := by decide
  endAligned := aligned
  nonempty := nonempty

/-- The last level maps the pages of an area. -/
def areaWalks (vma : VmAreaStruct) (page : Nat) : PageWalk :=
  if PageIn vma.vmStart vma.vmEnd page then
    ⟨.table, .table, .table, .table, .present true⟩
  else ⟨.none, .none, .none, .none, .none⟩

/-- One area, whose pages are mapped. -/
def oneArea (vma : VmAreaStruct) : MmStruct where
  mmap := [vma]
  walks := areaWalks vma
  apart := List.pairwise_singleton _ _

theorem length_noCsrs :
    (List.replicate 16 (0 : BitVec 64)).length = dflArrayMaxSize := rfl

/-- One page from `0x1000` on is to be protected. -/
def protectedPage : BufferRequest :=
  ⟨true, 152, 0, 0x1000, 0x1000, List.replicate 16 0, length_noCsrs⟩

/-- The request for it, in an area which ends there or later. -/
def protectPage (vma : VmAreaStruct) :
    Option (Option Errno × MmStruct × DflCxlCache) :=
  cxlCacheIoctlNumaBufferMap (unbalanced DflCxlCacheBufferRegion)
    protectedPage (willingAnswers 1) (oneArea vma)
    (cxlCacheChardevInit sixteenPages)

/-- The pages of the area may be written, and lose this permission. -/
theorem oneArea_writable_iff {vma : VmAreaStruct}
    (writable : vma.writable = true) (page : Nat) :
    (oneArea vma).Writable page ↔ PageIn vma.vmStart vma.vmEnd page := by
  constructor
  · rintro (⟨other, member, isIn, -⟩ | writes)
    · rw [List.mem_singleton.mp member] at isIn
      exact isIn
    · by_contra outside
      have walk : (areaWalks vma page).writes = true := writes
      rw [areaWalks, if_neg outside] at walk
      cases walk
  · intro isIn
    exact Or.inl ⟨vma, List.mem_singleton_self vma, isIn, writable⟩

theorem oneArea_sheds_iff {vma : VmAreaStruct} {addr : BitVec 64}
    (writable : vma.writable = true) (contains : vma.contains addr = true)
    (page : Nat) :
    (oneArea vma).Sheds addr page ↔ PageIn vma.vmStart vma.vmEnd page := by
  have found : (oneArea vma).vmaLookup addr = some vma :=
    List.find?_cons_of_pos contains
  constructor
  · rintro ⟨other, alsoFound, isIn, -⟩
    rw [found] at alsoFound
    cases alsoFound
    exact isIn
  · intro isIn
    have mapped : (areaWalks vma page).writesAbove = false := by
      rw [areaWalks, if_pos isIn]
      rfl
    exact ⟨vma, found, isIn, (oneArea_writable_iff writable page).mpr isIn,
      mapped⟩

/-- The area of one page, and that of two. -/
def onePageArea : VmAreaStruct :=
  writableArea 0x2000 (by decide) (by decide)

def twoPageArea : VmAreaStruct :=
  writableArea 0x3000 (by decide) (by decide)

/-- The pages of the first area are those of the buffer. -/
theorem protectsExactly_onePage :
    ProtectsExactly (unbalanced DflCxlCacheBufferRegion) protectedPage
      (willingAnswers 1) (oneArea onePageArea)
      (cxlCacheChardevInit sixteenPages) := by
  intro pages events pins
  have isPinned := pins.pins
  have pinned : cxlCacheDmaPinPages (willingAnswers 1) protectedPage.length =
      (.ok [7], [.charge 1, .pin [7]]) := rfl
  rw [pinned] at isPinned
  cases isPinned
  have goes : ¬ StopsUnprotected protectedPage [7] (oneArea onePageArea) := by
    rintro (broken | none)
    · cases broken
    · cases none
  have writable : onePageArea.writable = true := by decide
  have contains : onePageArea.contains 0x1000 = true := by decide
  refine ⟨fun stops => absurd stops goes, fun _ page _ => ?_⟩
  exact (oneArea_sheds_iff writable contains page).symm

/-- An area which is the buffer loses its permission, and nothing else does. -/
theorem whole_area_protected :
    ∃ mm' cache', protectPage onePageArea = some (none, mm', cache') ∧
      Framed protectedPage (oneArea onePageArea) mm'
        (cxlCacheChardevInit sixteenPages) cache' none := by
  obtain ⟨cache', returns⟩ : ∃ cache',
      cxlCacheIoctlNumaBufferMap (unbalanced DflCxlCacheBufferRegion)
        protectedPage (willingAnswers 1) (oneArea onePageArea)
        (cxlCacheChardevInit sixteenPages) =
          some (none,
            (cxlCacheSetRegionReadOnly 0x1000 (oneArea onePageArea)).2,
            cache') := ⟨_, rfl⟩
  exact ⟨_, cache', returns,
    (map_framed_iff (by decide) returns).mpr protectsExactly_onePage⟩

/-- The second page of an area is protected with the first. -/
theorem page_after_buffer_protected :
    ∃ mm' cache', protectPage twoPageArea = some (none, mm', cache') ∧
      ¬ Framed protectedPage (oneArea twoPageArea) mm'
        (cxlCacheChardevInit sixteenPages) cache' none := by
  refine ⟨(cxlCacheSetRegionReadOnly 0x1000 (oneArea twoPageArea)).2, _, rfl,
    ?_⟩
  intro framed
  have second : PageIn twoPageArea.vmStart twoPageArea.vmEnd 2 := by decide
  have outside : ¬ InBuffer protectedPage 2 := by
    unfold InBuffer
    decide
  have writable := (oneArea_writable_iff (by decide) 2).mpr second
  have kept := (framed.success rfl 2).mpr ⟨writable, outside⟩
  have found : (oneArea twoPageArea).vmaLookup 0x1000 = some twoPageArea :=
    rfl
  apply ((writable_iff_not_sheds found 2).mp kept).2
  exact (oneArea_sheds_iff (by decide) (by decide) 2).mpr second

end LinuxDfl.Cxl.Protect
