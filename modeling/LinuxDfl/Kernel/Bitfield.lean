import Mathlib.Algebra.Order.Ring.Int

/-!
# Register fields

The masks of `linux/bits.h` and the field access of `linux/bitfield.h`, for
64-bit registers.  A mask is given by its lowest bit and its width.
-/

namespace LinuxDfl.Kernel

/-- A contiguous field of a register. -/
structure Field where
  low : Nat
  width : Nat
  deriving DecidableEq, Repr

/-- `GENMASK_ULL(high, low)` -/
def genmask (high low : Nat) : Field := ⟨low, high - low + 1⟩

/-- `BIT_ULL(n)` -/
def bit (n : Nat) : Field := ⟨n, 1⟩

namespace Field

/-- The mask of the field as a register value. -/
def mask (field : Field) : BitVec 64 :=
  (BitVec.allOnes field.width).setWidth 64 <<< field.low

/-- `FIELD_GET(mask, v)` -/
def get (field : Field) (v : BitVec 64) : Nat :=
  (v.extractLsb' field.low field.width).toNat

/-- `FIELD_PREP(mask, value)` -/
def prep (field : Field) (value : Nat) : BitVec 64 :=
  (BitVec.ofNat field.width value).setWidth 64 <<< field.low

/-- `(v & ~mask) | FIELD_PREP(mask, value)` -/
def update (field : Field) (v : BitVec 64) (value : Nat) : BitVec 64 :=
  (v &&& ~~~field.mask) ||| field.prep value

theorem get_lt (field : Field) (v : BitVec 64) :
    field.get v < 2 ^ field.width :=
  BitVec.isLt _

/-- A field which lies in the register reads back what was written to it. -/
theorem get_update
    (field : Field) (fits : field.low + field.width ≤ 64)
    (v : BitVec 64) (value : Nat) :
    field.get (field.update v value) = value % 2 ^ field.width := by
  have bits :
      (field.update v value).extractLsb' field.low field.width =
        BitVec.ofNat field.width value := by
    ext i inside
    have inRegister : field.low + i < 64 := by omega
    have notBelow : ¬ field.low + i < field.low := by omega
    simp [update, mask, prep, inRegister, notBelow, inside]
  rw [get, bits, BitVec.toNat_ofNat]

/-- Fields which share no bit are written independently. -/
theorem get_update_of_disjoint
    (read written : Field)
    (disjoint :
      read.low + read.width ≤ written.low ∨
        written.low + written.width ≤ read.low)
    (v : BitVec 64) (value : Nat) :
    read.get (written.update v value) = read.get v := by
  have bits :
      (written.update v value).extractLsb' read.low read.width =
        v.extractLsb' read.low read.width := by
    ext i inside
    by_cases inRegister : read.low + i < 64
    · by_cases below : read.low + i < written.low
      · simp [update, mask, prep, inRegister, below]
      · have above : ¬ read.low + i - written.low < written.width := by
          omega
        have outside :
            (BitVec.ofNat written.width value).getLsbD
              (read.low + i - written.low) = false :=
          BitVec.getLsbD_of_ge _ _ (by omega)
        simp [update, mask, prep, inRegister, below, above, outside]
    · have outside : 64 ≤ read.low + i := by omega
      simp [BitVec.getLsbD_of_ge _ _ outside]
  rw [get, get, bits]

/-- What is written to a field does not meet another field. -/
theorem prep_and_mask_of_disjoint
    (written other : Field)
    (disjoint :
      other.low + other.width ≤ written.low ∨
        written.low + written.width ≤ other.low) (value : Nat) :
    written.prep value &&& other.mask = 0#64 := by
  ext i inside
  by_cases below : i < written.low
  · simp [prep, below]
  · by_cases above : i - written.low < written.width
    · have outside : i < other.low ∨ ¬ i - other.low < other.width := by omega
      rcases outside with low | high
      · simp [mask, low]
      · simp [mask, high]
    · have none :
          (BitVec.ofNat written.width value).getLsbD (i - written.low) =
            false :=
        BitVec.getLsbD_of_ge _ _ (by omega)
      simp [prep, none]

/-- Two fields which are cleared together are written one after the other. -/
theorem clear_both_of_disjoint
    (first second : Field)
    (disjoint :
      second.low + second.width ≤ first.low ∨
        first.low + first.width ≤ second.low)
    (v : BitVec 64) (a b : Nat) :
    (v &&& ~~~(first.mask ||| second.mask)) ||| first.prep a |||
        second.prep b =
      second.update (first.update v a) b := by
  have apart := prep_and_mask_of_disjoint first second disjoint a
  ext i inside
  have bit : ((first.prep a)[i] && second.mask[i]) = false := by
    rw [← BitVec.getElem_and, apart, BitVec.getElem_zero]
  simp only [update, BitVec.getElem_or, BitVec.getElem_and,
    BitVec.getElem_not]
  revert bit
  cases (first.prep a)[i] <;> cases second.mask[i] <;> simp

end Field

end LinuxDfl.Kernel
