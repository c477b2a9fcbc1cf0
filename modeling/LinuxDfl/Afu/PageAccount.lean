import LinuxDfl.Afu.DmaBalance

/-!
# The pages of DMA regions

Mapping a region charges and pins a number of pages which is kept in an
`int`; what is unpinned and uncharged later is counted in a `long`.  The two
agree unless the `int` has lost pages of a region of 16 TiB or more.
-/

namespace LinuxDfl.Afu

open LinuxDfl.Kernel
open LinuxDfl.Lib.SearchTree

/-! ## Counting pages -/

def DmaEvent.charged : DmaEvent → Nat
  | .charge pages => pages
  | _ => 0

def DmaEvent.uncharged : DmaEvent → Nat
  | .uncharge pages => pages
  | _ => 0

def DmaEvent.pinned : DmaEvent → Nat
  | .pin pages => pages
  | _ => 0

def DmaEvent.unpinned : DmaEvent → Nat
  | .unpin pages => pages
  | _ => 0

/-- The sum of a count over events. -/
def total (count : DmaEvent → Nat) (events : List DmaEvent) : Nat :=
  (events.map count).sum

/-- What has been charged and pinned has been uncharged and unpinned. -/
structure PagesSettled (events : List DmaEvent) : Prop where
  charged :
    total DmaEvent.charged events = total DmaEvent.uncharged events
  pinned :
    total DmaEvent.pinned events = total DmaEvent.unpinned events

/--
A region is mapped: its pages have been charged, pinned and checked to be
contiguous, and unmapping it will uncharge and unpin what has been charged
and pinned.
-/
structure PagesMapped (ops : Balancing DflAfuDmaRegion)
    (length iova : BitVec 64) (events : List DmaEvent) (next : AfuDma) :
    Prop where
  charged : total DmaEvent.charged events = longPages length
  pinned : total DmaEvent.pinned events = longPages length
  region : ∃ region ∈ next.dmaRegions.inorder, ∃ pages,
    region.iova = iova ∧ region.pages = some pages ∧
      pages.length = longPages length ∧
        afuDmaCheckContinuousPages pages = true ∧
          ∀ later place,
            afuDmaRegionFindIova iova later.dmaRegions =
                some (place, region) →
              ∃ released,
                (afuDmaUnmapRegion ops iova later).2.events =
                    later.events ++ released ∧
                  PagesSettled (events ++ released)

/-- What becomes of the pages when `afu_dma_map_region` returns. -/
def MapAccounted (ops : Balancing DflAfuDmaRegion) (length : BitVec 64)
    (events : List DmaEvent) (next : AfuDma) :
    Except Errno (BitVec 64) → Prop
  | .error _ => PagesSettled events
  | .ok iova => PagesMapped ops length iova events next

/-- However `afu_dma_map_region` returns, its pages are accounted for. -/
def PagesAccounted (ops : Balancing DflAfuDmaRegion)
    (userAddr length : BitVec 64) (flags : BitVec 32) : Prop :=
  ∀ answers dma result next,
    afuDmaMapRegion ops userAddr length flags answers dma =
        some (result, next) →
      ∃ events, next.events = dma.events ++ events ∧
        MapAccounted ops length events next result

/--
An `int` holds the number of pages, or is not positive, so that the request
fails before it maps anything.
-/
def PagesFitInt (length : BitVec 64) : Prop :=
  longPages length < 2 ^ 32 ∨ (intPages length).toInt ≤ 0

theorem total_append (count : DmaEvent → Nat)
    (first rest : List DmaEvent) :
    total count (first ++ rest) = total count first + total count rest := by
  unfold total
  rw [List.map_append, List.sum_append]

theorem PagesSettled.append {first rest : List DmaEvent}
    (settled : PagesSettled first) (later : PagesSettled rest) :
    PagesSettled (first ++ rest) where
  charged := by
    rw [total_append, total_append, settled.charged, later.charged]
  pinned := by
    rw [total_append, total_append, settled.pinned, later.pinned]

/-! ## Numbers of pages -/

/-- Enough pages for an `int` to hold are held by it. -/
theorem longPages_of_fits {length : BitVec 64} (fits : PagesFitInt length)
    (positive : 0 < (intPages length).toInt) :
    longPages length = (intPages length).toNat := by
  rcases fits with small | notPositive
  · rw [intPages_toNat, Nat.mod_eq_of_lt small]
  · omega

/-! ## Pinning -/

theorem afuDmaPinPages_error {answers : MapAnswers} {length : BitVec 64}
    {ret : Errno} {events : List DmaEvent}
    (pins : afuDmaPinPages answers length = (.error ret, events)) :
    PagesSettled events := by
  unfold afuDmaPinPages at pins
  cases account : answers.account with
  | some other =>
      simp only [account, Prod.mk.injEq] at pins
      rw [← pins.2]
      exact ⟨rfl, rfl⟩
  | none =>
      simp only [account] at pins
      by_cases alloc :
          (!kcallocPointers answers.kcalloc
            (unsignedLong (intPages length))) = true
      · rw [if_pos alloc] at pins
        cases pins
        exact ⟨by simp [total, DmaEvent.charged, DmaEvent.uncharged],
          by simp [total, DmaEvent.pinned, DmaEvent.unpinned]⟩
      · rw [if_neg alloc] at pins
        cases pinned : answers.pin with
        | error other =>
            simp only [pinned, Prod.mk.injEq] at pins
            rw [← pins.2]
            exact ⟨by simp [total, DmaEvent.charged, DmaEvent.uncharged],
              by simp [total, DmaEvent.pinned, DmaEvent.unpinned]⟩
        | ok frames =>
            simp only [pinned] at pins
            split at pins
            · cases pins
              exact ⟨by simp [total, DmaEvent.charged, DmaEvent.uncharged],
                by simp [total, DmaEvent.pinned, DmaEvent.unpinned]⟩
            · cases pins

/-- Pinning succeeds with as many pages as the `int` says. -/
theorem afuDmaPinPages_ok {answers : MapAnswers} {length : BitVec 64}
    {pages : List Nat} {events : List DmaEvent}
    (pins : afuDmaPinPages answers length = (.ok pages, events)) :
    pages.length = (intPages length).toNat ∧
      (intPages length).toInt = (intPages length).toNat ∧
        events = [.charge pages.length, .pin pages.length] := by
  unfold afuDmaPinPages at pins
  cases account : answers.account with
  | some other =>
      simp only [account] at pins
      cases pins
  | none =>
      simp only [account] at pins
      by_cases alloc :
          (!kcallocPointers answers.kcalloc
            (unsignedLong (intPages length))) = true
      · rw [if_pos alloc] at pins
        cases pins
      · rw [if_neg alloc] at pins
        cases pinned : answers.pin with
        | error other =>
            simp only [pinned] at pins
            cases pins
        | ok frames =>
            simp only [pinned] at pins
            split at pins
            · cases pins
            · rename_i count
              push Not at count
              cases pins
              have nonneg : 0 ≤ (intPages length).toInt := by
                rw [← count]
                exact Int.natCast_nonneg _
              obtain ⟨size, signed⟩ := unsignedLong_of_nonneg nonneg
              have many : (frames.take (intPages length).toNat).length =
                  (intPages length).toNat := by
                rw [signed] at count
                exact Int.ofNat_inj.mp count
              refine ⟨many, signed, ?_⟩
              rw [size, many]

/-- Unpinning settles what pinning has charged and pinned, if it fits. -/
theorem pin_unpin_settled {answers : MapAnswers} {length : BitVec 64}
    {pages : List Nat} {events : List DmaEvent} (fits : PagesFitInt length)
    (pins : afuDmaPinPages answers length = (.ok pages, events))
    (nonempty : pages ≠ []) :
    pages.length = longPages length ∧
      PagesSettled (events ++ afuDmaUnpinPages length) := by
  obtain ⟨count, signed, rfl⟩ := afuDmaPinPages_ok pins
  have positive : 0 < (intPages length).toInt := by
    have length_pos := List.length_pos_iff.mpr nonempty
    omega
  have same : pages.length = longPages length :=
    count.trans (longPages_of_fits fits positive).symm
  refine ⟨same, ?_, ?_⟩
  · simp [total, DmaEvent.charged, DmaEvent.uncharged, afuDmaUnpinPages,
      same]
  · simp [total, DmaEvent.pinned, DmaEvent.unpinned, afuDmaUnpinPages,
      same]

/-- Mappings are not pages. -/
theorem settled_map (mapping : DmaMapping) : PagesSettled [.map mapping] :=
  ⟨rfl, rfl⟩

theorem settled_unmap (mapping : DmaMapping) :
    PagesSettled [.unmap mapping] :=
  ⟨rfl, rfl⟩

/-- Events without pages between others do not matter. -/
theorem PagesSettled.insert {first rest : List DmaEvent}
    (settled : PagesSettled (first ++ rest)) {between : List DmaEvent}
    (others : PagesSettled between) :
    PagesSettled (first ++ between ++ rest) := by
  obtain ⟨charged, pinned⟩ := settled
  rw [total_append, total_append] at charged pinned
  constructor
  · rw [total_append, total_append, total_append, total_append]
    have same := others.charged
    omega
  · rw [total_append, total_append, total_append, total_append]
    have same := others.pinned
    omega

theorem MapOutcome.pagesAccounted {ops : Balancing DflAfuDmaRegion}
    {userAddr length : BitVec 64} {flags : BitVec 32}
    {answers : MapAnswers} {dma next : AfuDma}
    {result : Except Errno (BitVec 64)} (fits : PagesFitInt length)
    (outcome :
      MapOutcome ops userAddr length flags answers dma result next) :
    ∃ events, next.events = dma.events ++ events ∧
      MapAccounted ops length events next result := by
  cases outcome with
  | refused ret => exact ⟨[], (List.append_nil _).symm, rfl, rfl⟩
  | unpinned pins => exact ⟨_, rfl, afuDmaPinPages_error pins⟩
  | unmapped ret pins nonempty =>
      exact ⟨_, rfl, (pin_unpin_settled fits pins nonempty).2⟩
  | rejected mapping pins nonempty =>
      refine ⟨_, rfl, ?_⟩
      have settled := (pin_unpin_settled fits pins nonempty).2
      have undone : PagesSettled [.map mapping, .unmap mapping] :=
        (settled_map mapping).append (settled_unmap mapping)
      have inserted := settled.insert undone
      rw [List.append_assoc] at inserted
      show PagesSettled _
      rw [List.append_assoc]
      exact inserted
  | @mapped pages events region regions pins nonempty continuous isRegion
      adds =>
      obtain ⟨many, settled⟩ := pin_unpin_settled fits pins nonempty
      obtain ⟨-, -, same⟩ := afuDmaPinPages_ok pins
      refine ⟨_, rfl, ?_, ?_, region, ?_, pages, rfl, ?_, many, continuous,
        ?_⟩
      · rw [same, total_append]
        simp [total, DmaEvent.charged, many]
      · rw [same, total_append]
        simp [total, DmaEvent.pinned, many]
      · exact (afuDmaRegionAdd_perm adds).mem_iff.mpr List.mem_cons_self
      · rw [isRegion]
      · intro later place finds
        have notBusy : ¬ region.inUse = true := by
          rw [isRegion]
          exact Bool.false_ne_true
        have isLength : region.length = length := by rw [isRegion]
        refine ⟨.unmap region.mapping :: afuDmaUnpinPages length, ?_, ?_⟩
        · unfold afuDmaUnmapRegion
          rw [finds]
          dsimp only
          rw [if_neg notBusy, isLength]
          rfl
        · have undone :
              PagesSettled [.map region.mapping, .unmap region.mapping] :=
            (settled_map _).append (settled_unmap _)
          have inserted := settled.insert undone
          rw [List.append_assoc] at inserted ⊢
          exact inserted

/-! ## Requests which lose pages -/

/-- Nothing fails, and the pages are contiguous. -/
def willingAnswers (count : Nat) : MapAnswers :=
  ⟨true, none, true, .ok (List.range' 0 count), some 0⟩

/-- As many pages as the `int` says are charged and pinned. -/
theorem afuDmaPinPages_willing {length : BitVec 64}
    (positive : 0 < (intPages length).toInt) :
    afuDmaPinPages (willingAnswers (intPages length).toNat) length =
      (.ok (List.range' 0 (intPages length).toNat),
        [.charge (intPages length).toNat,
          .pin (intPages length).toNat]) := by
  have nonneg : 0 ≤ (intPages length).toInt := Int.le_of_lt positive
  obtain ⟨size, signed⟩ := unsignedLong_of_nonneg nonneg
  have bound := (intPages length).isLt
  have alloc : ¬ (!kcallocPointers true
      (unsignedLong (intPages length))) = true := by
    rw [kcallocPointers, size, decide_eq_true (by omega)]
    exact Bool.false_ne_true
  have whole : (List.range' 0 (intPages length).toNat).take
      (intPages length).toNat = List.range' 0 (intPages length).toNat :=
    List.take_of_length_le (by rw [List.length_range'])
  have account : (willingAnswers (intPages length).toNat).account = none :=
    rfl
  have kcalloc : (willingAnswers (intPages length).toNat).kcalloc = true :=
    rfl
  have pin : (willingAnswers (intPages length).toNat).pin =
      .ok (List.range' 0 (intPages length).toNat) := rfl
  unfold afuDmaPinPages
  simp only [account, kcalloc, pin]
  rw [if_neg alloc, whole, List.length_range', if_neg (by omega), size]

/-- The request succeeds, with the pages of which the `int` knows. -/
theorem afuDmaMapRegion_willing (ops : Balancing DflAfuDmaRegion)
    {userAddr length : BitVec 64} (flags : BitVec 32)
    (passes : mapArgsOk userAddr length = true)
    (positive : 0 < (intPages length).toInt) :
    ∃ next,
      afuDmaMapRegion ops userAddr length flags
          (willingAnswers (intPages length).toNat)
          (afuDevInit closedPort) = some (.ok 0, next) ∧
        total DmaEvent.charged next.events = (intPages length).toNat := by
  have nonneg : 0 ≤ (intPages length).toInt := Int.le_of_lt positive
  obtain ⟨-, signed⟩ := unsignedLong_of_nonneg nonneg
  have pages : (List.range' 0 (intPages length).toNat).length =
      (intPages length).toNat := List.length_range'
  have nonempty :
      (List.range' 0 (intPages length).toNat).isEmpty = false := by
    rw [Bool.eq_false_iff]
    intro none
    rw [List.isEmpty_iff.mp none, List.length_nil] at pages
    omega
  have alloc : (willingAnswers (intPages length).toNat).kzalloc = true := rfl
  unfold afuDmaMapRegion
  rw [passes, if_neg (by decide), alloc, if_neg (by decide),
    afuDmaPinPages_willing positive]
  dsimp only
  rw [afuDmaCheckContinuousPages, continuousFrames_range',
    if_neg (by decide), nonempty, if_neg (by decide)]
  refine ⟨_, rfl, ?_⟩
  simp [AfuDma.emit, afuDevInit, total, DmaEvent.charged]

/--
The pages of a request are accounted for, whatever fails, if and only if
their number fits an `int` or the `int` is not positive.
-/
theorem pages_accounted_iff (ops : Balancing DflAfuDmaRegion)
    (userAddr length : BitVec 64) (flags : BitVec 32)
    (passes : mapArgsOk userAddr length = true) :
    PagesAccounted ops userAddr length flags ↔ PagesFitInt length := by
  constructor
  · intro accounted
    by_contra loses
    unfold PagesFitInt at loses
    push Not at loses
    obtain ⟨many, positive⟩ := loses
    obtain ⟨next, returns, charged⟩ :=
      afuDmaMapRegion_willing ops flags passes positive
    obtain ⟨events, same, mapped⟩ := accounted _ _ _ _ returns
    have all : next.events = events := same
    have expected := mapped.charged
    have bound := (intPages length).isLt
    rw [← all, charged] at expected
    omega
  · intro fits answers dma result next returns
    exact (afuDmaMapRegion_outcome ops returns).pagesAccounted fits

/-- A region of 16 TiB and a page. -/
def hugeLength : BitVec 64 := 0x100000001000#64

/-- One page is charged and pinned for a region of 2^32 + 1 pages. -/
theorem huge_region_not_accounted :
    mapArgsOk 0 hugeLength = true ∧
      ¬ PagesAccounted (unbalanced DflAfuDmaRegion) 0 hugeLength 0 := by
  refine ⟨by decide, ?_⟩
  intro accounted
  obtain ⟨events, same, mapped⟩ := accounted (willingAnswers 1)
    (afuDevInit closedPort) _ _ rfl
  have charged :
      total DmaEvent.charged ((afuDevInit closedPort).events ++ events) =
        longPages hugeLength := mapped.charged
  rw [← same] at charged
  exact absurd charged (by decide)

/-- The pages of a region of one page are accounted for. -/
theorem one_page_accounted :
    PagesAccounted (unbalanced DflAfuDmaRegion) 0 0x1000 0 :=
  (pages_accounted_iff _ 0 0x1000 0 (by decide)).mpr
    (Or.inl (by decide))

end LinuxDfl.Afu
