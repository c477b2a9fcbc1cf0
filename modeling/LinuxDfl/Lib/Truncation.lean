import Mathlib.Algebra.Order.Field.Basic
import Mathlib.Data.Nat.Cast.Field
import Mathlib.Data.Nat.Cast.Order.Field
import Mathlib.Data.Rat.Cast.Order
import Mathlib.Tactic.Linarith
import Mathlib.Tactic.Ring

/-!
# Fractions with truncated terms

How far a fraction below one moves when both of its terms are divided by the
same number, with what remains thrown away.
-/

namespace LinuxDfl.Lib.Truncation

/-- The terms, multiplied crosswise, differ by less than the denominator. -/
theorem cross_sub_lt {a b divisor : ℕ} (proper : a < b)
    (positive : 0 < b / divisor) :
    a / divisor * b < a * (b / divisor) + b ∧
      a * (b / divisor) < a / divisor * b + b := by
  have nonzero : 0 < divisor := by
    by_contra zero
    rw [Nat.eq_zero_of_not_pos zero, Nat.div_zero] at positive
    exact Nat.lt_irrefl 0 positive
  have splitA := Nat.div_add_mod a divisor
  have splitB := Nat.div_add_mod b divisor
  have restA := Nat.mod_lt a nonzero
  have restB := Nat.mod_lt b nonzero
  have le : a / divisor ≤ b / divisor := Nat.div_le_div_right proper.le
  generalize a / divisor = p at *
  generalize b / divisor = q at *
  generalize a % divisor = r at *
  generalize b % divisor = s at *
  have smallA : q * r < q * divisor := Nat.mul_lt_mul_of_pos_left restA positive
  have smallB : p * s ≤ q * s := Nat.mul_le_mul_right s le
  have smallB' : q * s < q * divisor := Nat.mul_lt_mul_of_pos_left restB positive
  subst splitA splitB
  constructor
  · calc p * (divisor * q + s)
        = p * divisor * q + p * s := by ring
      _ < p * divisor * q + q * divisor := by omega
      _ ≤ (divisor * p + r) * q + (divisor * q + s) := by
          nlinarith [Nat.zero_le (r * q), Nat.zero_le s]
  · calc (divisor * p + r) * q
        = p * divisor * q + q * r := by ring
      _ < p * divisor * q + q * divisor := by omega
      _ ≤ p * (divisor * q + s) + (divisor * q + s) := by
          nlinarith [Nat.zero_le (p * s), Nat.zero_le s]

/-- A fraction below one moves by less than one unit of the new denominator. -/
theorem abs_div_sub_div_lt {a b divisor : ℕ} (proper : a < b)
    (positive : 0 < b / divisor) :
    |((a / divisor : ℕ) : ℚ) / (b / divisor : ℕ) - a / b| <
      1 / (b / divisor : ℕ) := by
  obtain ⟨above, below⟩ := cross_sub_lt proper positive
  have denominator : (0 : ℚ) < b := by
    exact_mod_cast Nat.zero_lt_of_lt proper
  generalize a / divisor = p at *
  generalize b / divisor = q at *
  have denominator' : (0 : ℚ) < q := by
    exact_mod_cast positive
  have above' : (p : ℚ) * b < a * q + b := by
    exact_mod_cast above
  have below' : (a : ℚ) * q < p * b + b := by
    exact_mod_cast below
  rw [div_sub_div _ _ denominator'.ne' denominator.ne', abs_div,
    abs_of_pos (mul_pos denominator' denominator),
    div_lt_div_iff₀ (mul_pos denominator' denominator) denominator',
    one_mul]
  have small : |(p : ℚ) * b - q * a| < b := by
    rw [abs_lt]
    constructor <;> linarith
  calc |(p : ℚ) * b - q * a| * q
      < b * q := mul_lt_mul_of_pos_right small denominator'
    _ = q * b := mul_comm _ _

/-- A common divisor does not move it at all. -/
theorem div_gcd_div_div_gcd {a b : ℕ} (positive : 0 < b) :
    ((a / Nat.gcd a b : ℕ) : ℚ) / (b / Nat.gcd a b : ℕ) = a / b := by
  have common : ((Nat.gcd a b : ℕ) : ℚ) ≠ 0 := by
    exact_mod_cast (Nat.gcd_pos_of_pos_right a positive).ne'
  rw [Nat.cast_div (Nat.gcd_dvd_left a b) common,
    Nat.cast_div (Nat.gcd_dvd_right a b) common, div_div_div_cancel_right₀ common]

end LinuxDfl.Lib.Truncation
