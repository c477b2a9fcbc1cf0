import LinuxDfl.Cxl.Cache

/-!
# The memory of a user

The areas and the page table of the process which maps a buffer, and what
write-protecting a region does to them: the area which contains the first
address of the region loses its write permission, together with all pages
which the last level of the page table maps in it.
-/

namespace LinuxDfl.Cxl

open LinuxDfl.Kernel

/-! ## Page tables -/

/-- An entry above the last level of a page table. -/
inductive UpperEntry where
  | none
  /-- An entry which is no table, as that of a huge page. -/
  | bad (write : Bool)
  | table
  deriving DecidableEq, Repr

/-- `pte_t` -/
inductive Pte where
  | none
  /-- An entry which is neither none nor present. -/
  | absent
  | present (write : Bool)
  deriving DecidableEq, Repr

/-- The entries on the way to a page. -/
structure PageWalk where
  pgd : UpperEntry
  p4d : UpperEntry
  pud : UpperEntry
  pmd : UpperEntry
  pte : Pte
  deriving DecidableEq, Repr

/-- The entry is `bad` or `none`, so that the page is passed over. -/
def UpperEntry.skips : UpperEntry → Bool
  | .table => false
  | _ => true

/-- `pte_wrprotect` of an entry which is present -/
def Pte.wrprotect : Pte → Pte
  | .present _ => .present false
  | pte => pte

/-- What `fixup_ptes` does to one page. -/
def fixupPte (walk : PageWalk) : PageWalk :=
  if walk.pgd.skips then walk
  else if walk.p4d.skips then walk
  else if walk.pud.skips then walk
  else if walk.pmd.skips then walk
  else { walk with pte := walk.pte.wrprotect }

/-- `fixup_ptes`, on aligned addresses -/
def fixupPtes (walks : Nat → PageWalk) (start stop : BitVec 64) :
    Nat → PageWalk :=
  (List.range' (start.toNat / pageSize)
    ((stop.toNat - start.toNat) / pageSize)).foldl
      (fun walks page =>
        Function.update walks page (fixupPte (walks page))) walks

/-- An upper entry gives write permission itself, or what is below it does. -/
def UpperEntry.writes (entry : UpperEntry) (below : Bool) : Bool :=
  match entry with
  | .none => false
  | .bad write => write
  | .table => below

def Pte.writes : Pte → Bool
  | .present write => write
  | _ => false

/-- The page table lets the page be written. -/
def PageWalk.writes (walk : PageWalk) : Bool :=
  walk.pgd.writes (walk.p4d.writes (walk.pud.writes
    (walk.pmd.writes walk.pte.writes)))

/-- An entry above the last level lets the page be written. -/
def PageWalk.writesAbove (walk : PageWalk) : Bool :=
  walk.pgd.writes (walk.p4d.writes (walk.pud.writes
    (walk.pmd.writes false)))

/-- Only entries above the last level still let a page be written. -/
theorem fixupPte_writes (walk : PageWalk) :
    (fixupPte walk).writes = walk.writesAbove := by
  obtain ⟨pgd, p4d, pud, pmd, pte⟩ := walk
  cases pgd with
  | none => rfl
  | bad write => rfl
  | table =>
      cases p4d with
      | none => rfl
      | bad write => rfl
      | table =>
          cases pud with
          | none => rfl
          | bad write => rfl
          | table =>
              cases pmd with
              | none => rfl
              | bad write => rfl
              | table => cases pte <;> rfl

theorem UpperEntry.writes_mono (entry : UpperEntry) {below more : Bool}
    (implies : below = true → more = true)
    (writes : entry.writes below = true) : entry.writes more = true := by
  cases entry with
  | none => cases writes
  | bad write => exact writes
  | table => exact implies writes

theorem PageWalk.writes_of_writesAbove {walk : PageWalk}
    (above : walk.writesAbove = true) : walk.writes = true :=
  walk.pgd.writes_mono
    (walk.p4d.writes_mono
      (walk.pud.writes_mono
        (walk.pmd.writes_mono fun never => by cases never))) above

/-- A loop over a range of pages changes the pages of the range. -/
theorem foldl_update_apply (walks : Nat → PageWalk) (first count page : Nat) :
    (List.range' first count).foldl
      (fun walks page =>
        Function.update walks page (fixupPte (walks page))) walks page =
      if first ≤ page ∧ page < first + count then fixupPte (walks page)
      else walks page := by
  induction count generalizing first walks with
  | zero =>
      rw [if_neg (by omega)]
      rfl
  | succ count ih =>
      rw [List.range'_succ, List.foldl_cons, ih]
      by_cases here : page = first
      · subst here
        rw [if_neg (by omega), if_pos (by omega), Function.update_self]
      · rw [Function.update_of_ne here]
        by_cases later : first + 1 ≤ page ∧ page < first + 1 + count
        · rw [if_pos later, if_pos (by omega)]
        · rw [if_neg later, if_neg (by omega)]

/-! ## Areas -/

/-- The page lies between two aligned addresses. -/
def PageIn (start stop : BitVec 64) (page : Nat) : Prop :=
  start.toNat / pageSize ≤ page ∧ page < stop.toNat / pageSize

instance (start stop : BitVec 64) (page : Nat) :
    Decidable (PageIn start stop page) :=
  inferInstanceAs (Decidable (_ ∧ _))

theorem fixupPtes_apply {start stop : BitVec 64}
    (startAligned : pageAligned start = true)
    (stopAligned : pageAligned stop = true) (ordered : start ≤ stop)
    (walks : Nat → PageWalk) (page : Nat) :
    fixupPtes walks start stop page =
      if PageIn start stop page then fixupPte (walks page)
      else walks page := by
  have count : start.toNat / pageSize +
      (stop.toNat - start.toNat) / pageSize = stop.toNat / pageSize := by
    have first := of_decide_eq_true startAligned
    have last := of_decide_eq_true stopAligned
    have le : start.toNat ≤ stop.toNat := ordered
    unfold pageSize pageShift at *
    omega
  unfold fixupPtes
  rw [foldl_update_apply, count]
  rfl

/-- The area gives write permission. -/
def VmAreaStruct.writable (vma : VmAreaStruct) : Bool :=
  vma.vmFlags &&& vmWrite ≠ 0

/-- The address lies in the area. -/
def VmAreaStruct.contains (vma : VmAreaStruct) (addr : BitVec 64) : Bool :=
  vma.vmStart ≤ addr && addr < vma.vmEnd

/-- `struct mm_struct`: the areas, which lie apart, and the page table -/
structure MmStruct where
  mmap : List VmAreaStruct
  walks : Nat → PageWalk
  apart : mmap.Pairwise fun vma other => vma.vmEnd ≤ other.vmStart

/-- `vma_lookup` -/
def MmStruct.vmaLookup (mm : MmStruct) (addr : BitVec 64) :
    Option VmAreaStruct :=
  mm.mmap.find? fun vma => vma.contains addr

/-- `vm_flags_clear` of `VM_WRITE` -/
def VmAreaStruct.clearWrite (vma : VmAreaStruct) : VmAreaStruct :=
  { vma with vmFlags := vma.vmFlags &&& ~~~vmWrite }

/-- The page may be written: its area or its entry permits it. -/
def MmStruct.Writable (mm : MmStruct) (page : Nat) : Prop :=
  (∃ vma ∈ mm.mmap, PageIn vma.vmStart vma.vmEnd page ∧
    vma.writable = true) ∨ (mm.walks page).writes = true

/-- The areas with the one at an address, which is the only one, changed. -/
def clearWriteAt (addr : BitVec 64) (mmap : List VmAreaStruct) :
    List VmAreaStruct :=
  mmap.map fun vma => if vma.contains addr then vma.clearWrite else vma

theorem clearWriteAt_apart {addr : BitVec 64} {mmap : List VmAreaStruct}
    (apart : mmap.Pairwise fun vma other => vma.vmEnd ≤ other.vmStart) :
    (clearWriteAt addr mmap).Pairwise fun vma other =>
      vma.vmEnd ≤ other.vmStart := by
  have start : ∀ vma : VmAreaStruct,
      (if vma.contains addr then vma.clearWrite else vma).vmStart =
        vma.vmStart := fun vma => by split <;> rfl
  have stop : ∀ vma : VmAreaStruct,
      (if vma.contains addr then vma.clearWrite else vma).vmEnd =
        vma.vmEnd := fun vma => by split <;> rfl
  unfold clearWriteAt
  rw [List.pairwise_map]
  exact apart.imp fun {vma other} ordered => by
    rw [stop, start]
    exact ordered

/-- `cxl_cache_set_region_read_only` -/
def cxlCacheSetRegionReadOnly (userAddr : BitVec 64) (mm : MmStruct) :
    Option Errno × MmStruct :=
  match mm.vmaLookup userAddr with
  | none => (some .einval, mm)
  | some vma =>
      (none,
        { mmap := clearWriteAt userAddr mm.mmap
          walks := fixupPtes mm.walks vma.vmStart vma.vmEnd
          apart := clearWriteAt_apart mm.apart })

/-- Areas which have an address in common are one. -/
theorem MmStruct.same_area {mm : MmStruct} {vma other : VmAreaStruct}
    {addr : Nat} (member : vma ∈ mm.mmap) (alsoMember : other ∈ mm.mmap)
    (inside : vma.vmStart.toNat ≤ addr ∧ addr < vma.vmEnd.toNat)
    (alsoInside : other.vmStart.toNat ≤ addr ∧ addr < other.vmEnd.toNat) :
    vma = other := by
  by_contra different
  have symmetric : Std.Symm fun vma other : VmAreaStruct =>
      vma.vmEnd ≤ other.vmStart ∨ other.vmEnd ≤ vma.vmStart :=
    ⟨fun _ _ ordered => ordered.symm⟩
  have eitherWay : mm.mmap.Pairwise fun vma other =>
      vma.vmEnd ≤ other.vmStart ∨ other.vmEnd ≤ vma.vmStart :=
    mm.apart.imp fun ordered => Or.inl ordered
  have apart := eitherWay.forall member alsoMember different
  rcases apart with before | after
  · have le : vma.vmEnd.toNat ≤ other.vmStart.toNat := before
    omega
  · have le : other.vmEnd.toNat ≤ vma.vmStart.toNat := after
    omega

/-- The first address of a page in an area. -/
theorem VmAreaStruct.page_inside {vma : VmAreaStruct} {page : Nat}
    (isIn : PageIn vma.vmStart vma.vmEnd page) :
    vma.vmStart.toNat ≤ page * pageSize ∧
      page * pageSize < vma.vmEnd.toNat := by
  have first := of_decide_eq_true vma.startAligned
  have last := of_decide_eq_true vma.endAligned
  unfold PageIn at isIn
  unfold pageSize pageShift at *
  omega

theorem MmStruct.same_area_of_page {mm : MmStruct}
    {vma other : VmAreaStruct} {page : Nat} (member : vma ∈ mm.mmap)
    (alsoMember : other ∈ mm.mmap)
    (isIn : PageIn vma.vmStart vma.vmEnd page)
    (alsoIn : PageIn other.vmStart other.vmEnd page) : vma = other :=
  MmStruct.same_area member alsoMember (VmAreaStruct.page_inside isIn)
    (VmAreaStruct.page_inside alsoIn)

theorem VmAreaStruct.inside_of_contains {vma : VmAreaStruct}
    {addr : BitVec 64} (contains : vma.contains addr = true) :
    vma.vmStart.toNat ≤ addr.toNat ∧ addr.toNat < vma.vmEnd.toNat := by
  obtain ⟨first, last⟩ := Bool.and_eq_true_iff.mp contains
  exact ⟨of_decide_eq_true first, of_decide_eq_true last⟩

/-- What is looked up is the area which contains the address. -/
theorem MmStruct.vmaLookup_spec {mm : MmStruct} {addr : BitVec 64}
    {vma : VmAreaStruct} (found : mm.vmaLookup addr = some vma) :
    vma ∈ mm.mmap ∧ vma.contains addr = true ∧
      ∀ other ∈ mm.mmap, other.contains addr = true → other = vma := by
  have member := List.mem_of_find?_eq_some found
  have contains := List.find?_some
    (p := fun vma : VmAreaStruct => vma.contains addr) found
  refine ⟨member, contains, ?_⟩
  intro other alsoMember alsoContains
  exact MmStruct.same_area alsoMember member
    (VmAreaStruct.inside_of_contains alsoContains)
    (VmAreaStruct.inside_of_contains contains)

theorem clearWrite_not_writable (vma : VmAreaStruct) :
    vma.clearWrite.writable = false := by
  have disjoint : ~~~vmWrite &&& vmWrite = 0#64 := by decide
  unfold VmAreaStruct.writable VmAreaStruct.clearWrite
  dsimp only
  rw [BitVec.and_assoc, disjoint, BitVec.and_zero]
  rfl

/-- No area is left which gives write permission at the address. -/
theorem mem_clearWriteAt {addr : BitVec 64} {mmap : List VmAreaStruct}
    {vma : VmAreaStruct} (writable : vma.writable = true) :
    vma ∈ clearWriteAt addr mmap ↔
      vma ∈ mmap ∧ vma.contains addr = false := by
  unfold clearWriteAt
  rw [List.mem_map]
  constructor
  · rintro ⟨other, member, rfl⟩
    split at writable
    · next contains =>
        rw [clearWrite_not_writable] at writable
        cases writable
    · next outside =>
        rw [if_neg outside]
        exact ⟨member, Bool.eq_false_iff.mpr outside⟩
  · rintro ⟨member, outside⟩
    refine ⟨vma, member, ?_⟩
    rw [outside]
    rfl

/-- What write-protecting the area at an address leaves writable. -/
theorem writable_setReadOnly_iff {mm : MmStruct} {addr : BitVec 64}
    {vma : VmAreaStruct} (found : mm.vmaLookup addr = some vma)
    (page : Nat) :
    (cxlCacheSetRegionReadOnly addr mm).2.Writable page ↔
      mm.Writable page ∧
        (PageIn vma.vmStart vma.vmEnd page →
          (mm.walks page).writesAbove = true) := by
  obtain ⟨member, contains, only⟩ := MmStruct.vmaLookup_spec found
  unfold cxlCacheSetRegionReadOnly
  simp only [found]
  unfold MmStruct.Writable
  dsimp only
  have ordered : vma.vmStart ≤ vma.vmEnd := by
    have lt : vma.vmStart.toNat < vma.vmEnd.toNat := vma.nonempty
    exact Nat.le_of_lt lt
  rw [fixupPtes_apply vma.startAligned vma.endAligned ordered]
  by_cases inside : PageIn vma.vmStart vma.vmEnd page
  · rw [if_pos inside, fixupPte_writes]
    constructor
    · rintro (⟨other, alsoMember, alsoIn, writable⟩ | above)
      · obtain ⟨old, outside⟩ := (mem_clearWriteAt writable).mp alsoMember
        rw [MmStruct.same_area_of_page old member alsoIn inside,
          contains] at outside
        cases outside
      · exact ⟨Or.inr (PageWalk.writes_of_writesAbove above),
          fun _ => above⟩
    · rintro ⟨-, above⟩
      exact Or.inr (above inside)
  · rw [if_neg inside]
    constructor
    · rintro (⟨other, alsoMember, alsoIn, writable⟩ | writes)
      · have old := ((mem_clearWriteAt writable).mp alsoMember).1
        exact ⟨Or.inl ⟨other, old, alsoIn, writable⟩,
          fun isIn => absurd isIn inside⟩
      · exact ⟨Or.inr writes, fun isIn => absurd isIn inside⟩
    · rintro ⟨⟨other, old, alsoIn, writable⟩ | writes, -⟩
      · refine Or.inl ⟨other, (mem_clearWriteAt writable).mpr ⟨old, ?_⟩,
          alsoIn, writable⟩
        by_contra alsoContains
        have same := only other old (by simpa using alsoContains)
        rw [same] at alsoIn
        exact inside alsoIn
      · exact Or.inr writes

/-! ## What loses its permission -/

/--
Write-protecting the area of an address takes the permission to write the
page: it is there, and does not come from above the last level.
-/
def MmStruct.Sheds (mm : MmStruct) (addr : BitVec 64) (page : Nat) : Prop :=
  ∃ vma, mm.vmaLookup addr = some vma ∧
    PageIn vma.vmStart vma.vmEnd page ∧ mm.Writable page ∧
      (mm.walks page).writesAbove = false

theorem writable_iff_not_sheds {mm : MmStruct} {addr : BitVec 64}
    {vma : VmAreaStruct} (found : mm.vmaLookup addr = some vma)
    (page : Nat) :
    (cxlCacheSetRegionReadOnly addr mm).2.Writable page ↔
      mm.Writable page ∧ ¬ mm.Sheds addr page := by
  rw [writable_setReadOnly_iff found]
  refine and_congr_right fun writable => ?_
  constructor
  · rintro above ⟨other, alsoFound, isIn, -, below⟩
    rw [found] at alsoFound
    cases alsoFound
    rw [above isIn] at below
    cases below
  · intro keeps isIn
    by_contra below
    exact keeps ⟨vma, found, isIn, writable, Bool.eq_false_iff.mpr below⟩

end LinuxDfl.Cxl
