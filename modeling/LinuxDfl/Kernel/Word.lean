import Mathlib.Algebra.Order.Ring.Int

/-!
# Unsigned machine arithmetic

Sums and differences of unsigned integers of a given width, on the numbers
which they stand for.
-/

namespace LinuxDfl.Kernel.Word

/-- The sum of two unsigned integers of `width` bits. -/
def add (width a b : Nat) : Nat :=
  if a + b < 2 ^ width then a + b else a + b - 2 ^ width

/-- The difference of two unsigned integers of `width` bits. -/
def sub (width a b : Nat) : Nat :=
  if b ≤ a then a - b else a + 2 ^ width - b

theorem add_of_lt {width a b : Nat} (fits : a + b < 2 ^ width) :
    add width a b = a + b :=
  if_pos fits

theorem sub_of_le {width a b : Nat} (le : b ≤ a) :
    sub width a b = a - b :=
  if_pos le

theorem add_lt {width a b : Nat}
    (left : a < 2 ^ width) (right : b < 2 ^ width) :
    add width a b < 2 ^ width := by
  unfold add
  split <;> omega

/-- Sums wrap around. -/
theorem add_eq_mod {width a b : Nat}
    (left : a < 2 ^ width) (right : b < 2 ^ width) :
    add width a b = (a + b) % 2 ^ width := by
  unfold add
  split
  · rw [Nat.mod_eq_of_lt ‹_›]
  · rw [Nat.mod_eq_sub_mod (by omega), Nat.mod_eq_of_lt (by omega)]

/-- Differences wrap around. -/
theorem sub_eq_mod {width a b : Nat}
    (left : a < 2 ^ width) (right : b < 2 ^ width) :
    sub width a b = (a + 2 ^ width - b) % 2 ^ width := by
  unfold sub
  split
  · rw [Nat.mod_eq_sub_mod (by omega), Nat.mod_eq_of_lt (by omega)]
    omega
  · rw [Nat.mod_eq_of_lt (by omega)]

end LinuxDfl.Kernel.Word
