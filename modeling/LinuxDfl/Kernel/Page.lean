import Mathlib.Algebra.Order.Ring.Int
import Mathlib.Data.List.Basic

/-!
# Pages

Addresses, numbers of pages in the integer types which hold them, and the
frames of pinned pages.
-/

namespace LinuxDfl.Kernel

/-- `PAGE_SHIFT` -/
def pageShift : Nat := 12

/-- `PAGE_SIZE` -/
def pageSize : Nat := 2 ^ pageShift

/-- `PAGE_ALIGNED` -/
def pageAligned (addr : BitVec 64) : Bool := addr.toNat % pageSize = 0

/-- `PAGE_SIZE - 1` -/
def pageMask : BitVec 64 := BitVec.ofNat 64 (pageSize - 1)

/-- `PAGE_ALIGN` -/
def pageAlign (addr : BitVec 64) : BitVec 64 :=
  (addr + pageMask) &&& ~~~pageMask

/-- `PFN_DOWN` -/
def pfnDown (addr : BitVec 64) : BitVec 64 := addr >>> pageShift

/-- `PFN_PHYS` -/
def pfnPhys (pfn : BitVec 64) : BitVec 64 := pfn <<< pageShift

/-- A number of pages in an `int`. -/
def intPages (length : BitVec 64) : BitVec 32 := (pfnDown length).setWidth 32

/-- A number of pages in a `long`. -/
def longPages (length : BitVec 64) : Nat := (pfnDown length).toNat

/-- An `int` which is passed on as an `unsigned long` or a `size_t`. -/
def unsignedLong (count : BitVec 32) : Nat := (count.signExtend 64).toNat

/-- `kcalloc` of pointers, which fails when the size overflows -/
def kcallocPointers (answer : Bool) (count : Nat) : Bool :=
  answer && decide (count * 8 < 2 ^ 64)

/-- Each frame follows the one before it. -/
def continuousFrames : List Nat → Bool
  | first :: second :: rest =>
      decide (first + 1 = second) && continuousFrames (second :: rest)
  | _ => true

/-- The multiple of the page size at or below the address. -/
theorem and_not_pageMask (addr : BitVec 64) :
    addr &&& ~~~pageMask = pfnPhys (pfnDown addr) := by
  have mask : pageMask = (BitVec.allOnes pageShift).setWidth 64 := by decide
  rw [mask, pfnPhys, pfnDown]
  refine BitVec.eq_of_getLsbD_eq fun i inside => ?_
  by_cases below : i < pageShift
  · simp [below, inside]
  · have above : pageShift + (i - pageShift) = i := by omega
    simp [below, inside, above]

theorem pfnPhys_pfnDown_toNat (addr : BitVec 64) :
    (pfnPhys (pfnDown addr)).toNat = addr.toNat / pageSize * pageSize := by
  have bound := addr.isLt
  rw [pfnPhys, pfnDown, BitVec.toNat_shiftLeft, BitVec.toNat_ushiftRight,
    Nat.shiftRight_eq_div_pow, Nat.shiftLeft_eq]
  have below : addr.toNat / pageSize * pageSize ≤ addr.toNat :=
    Nat.div_mul_le_self _ _
  exact Nat.mod_eq_of_lt (Nat.lt_of_le_of_lt below bound)

/-- The address of a frame is aligned, also when it wraps around. -/
theorem pfnPhys_mod (pfn : BitVec 64) :
    (pfnPhys pfn).toNat % pageSize = 0 := by
  rw [pfnPhys, BitVec.toNat_shiftLeft, Nat.shiftLeft_eq]
  unfold pageSize pageShift
  omega

/-- A number of bytes, rounded up to whole pages. -/
def wholePages (bytes : Nat) : Nat :=
  (bytes + (pageSize - 1)) / pageSize * pageSize

theorem le_wholePages (bytes : Nat) : bytes ≤ wholePages bytes := by
  unfold wholePages pageSize pageShift
  omega

/-- An aligned size is rounded up, unless it wraps around. -/
theorem pageAlign_toNat {addr : BitVec 64}
    (fits : wholePages addr.toNat < 2 ^ 64) :
    (pageAlign addr).toNat = wholePages addr.toNat := by
  have mask : pageMask.toNat = pageSize - 1 := by decide
  have room : addr.toNat + (pageSize - 1) < 2 ^ 64 := by
    unfold wholePages pageSize pageShift at fits
    unfold pageSize pageShift
    omega
  rw [pageAlign, and_not_pageMask, pfnPhys_pfnDown_toNat, BitVec.toNat_add,
    mask, Nat.mod_eq_of_lt room]
  rfl

/-- Aligned sizes are whole pages, also when they wrap around. -/
theorem pageAlign_mod (addr : BitVec 64) :
    (pageAlign addr).toNat % pageSize = 0 := by
  rw [pageAlign, and_not_pageMask, pfnPhys_pfnDown_toNat]
  exact Nat.mul_mod_left _ _

theorem intPages_toNat (length : BitVec 64) :
    (intPages length).toNat = longPages length % 2 ^ 32 := by
  unfold intPages
  rw [BitVec.toNat_setWidth]
  rfl

/-- An `int` which is not negative keeps its value. -/
theorem unsignedLong_of_nonneg {count : BitVec 32}
    (nonneg : 0 ≤ count.toInt) :
    unsignedLong count = count.toNat ∧ count.toInt = count.toNat := by
  have bound := count.isLt
  have signed := BitVec.toInt_eq_toNat_cond count
  have small : count.toNat < 2 ^ 31 := by
    by_contra large
    rw [if_neg (by omega)] at signed
    omega
  constructor
  · unfold unsignedLong
    rw [BitVec.toNat_signExtend, BitVec.msb_eq_decide,
      if_neg (by rw [decide_eq_true_eq]; omega), BitVec.toNat_setWidth,
      Nat.mod_eq_of_lt (by omega), Nat.add_zero]
  · rw [signed, if_pos (by omega)]

theorem continuousFrames_range' (first count : Nat) :
    continuousFrames (List.range' first count) = true := by
  induction count generalizing first with
  | zero => rfl
  | succ count ih =>
      cases count with
      | zero => rfl
      | succ count =>
          have later := ih (first + 1)
          rw [List.range'_succ] at later ⊢
          rw [List.range'_succ, continuousFrames, later,
            decide_eq_true rfl]
          rfl

end LinuxDfl.Kernel
