import Mathlib.Algebra.Order.Field.Power
import Mathlib.Data.Int.Log
import Mathlib.Data.Rat.Floor
import Mathlib.Tactic.Linarith

/-!
# Floating-point numbers of 64 bits

A finite number of the format is `m * 2 ^ e` with 53 bits for `m`, and `e` at least `-1074`. An
operation returns the number nearest to its exact result, the even one of two (`nearest`). So it is
exact where the result is a number of the format (`nearest_eq_self`).

There is no bound from above here: results beyond the largest number are not covered. The two
zeros are one, since no comparison tells them apart.
-/

namespace Lib

/-- A number of the format, an infinity, or no number. -/
inductive Binary64 where
  | finite (x : ℚ)
  | infinite (negative : Bool)
  | nan
  deriving DecidableEq, Repr

namespace Binary64

/-- `x < y`, for a finite `x`. -/
def ltOf (x : ℚ) : Binary64 → Bool
  | finite y => decide (x < y)
  | infinite negative => !negative
  | nan => false

def Representable (x : ℚ) : Prop := ∃ m e : ℤ, |m| < 2 ^ 53 ∧ -1074 ≤ e ∧ x = m * 2 ^ e

/-- The nearest integer, the even one of two. -/
def roundEven (x : ℚ) : ℤ :=
  if Int.fract x < 1 / 2 ∨ (Int.fract x = 1 / 2 ∧ ⌊x⌋ % 2 = 0) then ⌊x⌋ else ⌊x⌋ + 1

/-- The exponent of the last of 53 bits. -/
def exponent (x : ℚ) : ℤ := max (Int.log 2 |x| - 52) (-1074)

def nearest (x : ℚ) : ℚ := roundEven (x / 2 ^ exponent x) * 2 ^ exponent x

theorem roundEven_intCast (n : ℤ) : roundEven n = n := by
  unfold roundEven
  rw [Int.fract_intCast, Int.floor_intCast]
  exact if_pos (Or.inl (by norm_num))

/-- The last bit of a representable number has room in the format. -/
theorem exponent_le {m e : ℤ} (hne : m ≠ 0) (hm : |m| < 2 ^ 53) (he : -1074 ≤ e) :
    exponent (m * 2 ^ e) ≤ e := by
  have hpow : (0 : ℚ) < 2 ^ e := zpow_pos two_pos e
  have habs : |(m : ℚ) * 2 ^ e| = |(m : ℚ)| * 2 ^ e := by rw [abs_mul, abs_of_pos hpow]
  have hpos : 0 < |(m : ℚ) * 2 ^ e| := by
    rw [habs]
    exact mul_pos (abs_pos.mpr (Int.cast_ne_zero.mpr hne)) hpow
  have hlt : |(m : ℚ) * 2 ^ e| < ((2 : ℕ) : ℚ) ^ (53 + e) := by
    have hcast : |(m : ℚ)| < 2 ^ 53 := by exact_mod_cast hm
    rw [habs, Nat.cast_ofNat, zpow_add₀ two_ne_zero]
    exact mul_lt_mul_of_pos_right hcast hpow
  have hlog := (Int.lt_zpow_iff_log_lt one_lt_two hpos).mp hlt
  unfold exponent
  omega

/-- **Exact results.** -/
theorem nearest_eq_self {x : ℚ} (h : Representable x) : nearest x = x := by
  obtain ⟨m, e, hm, he, rfl⟩ := h
  by_cases hne : m = 0
  · subst hne
    have hzero := roundEven_intCast 0
    rw [Int.cast_zero] at hzero
    unfold nearest
    rw [Int.cast_zero, zero_mul, zero_div, hzero, Int.cast_zero, zero_mul]
  · -- in units of the last bit, the number is an integer
    have hle := exponent_le hne hm he
    unfold nearest
    generalize exponent (m * 2 ^ e) = k at *
    obtain ⟨d, rfl⟩ := Int.le.dest hle
    have hk : (2 : ℚ) ^ k ≠ 0 := zpow_ne_zero k two_ne_zero
    have hint : (m : ℚ) * 2 ^ (k + (d : ℤ)) / 2 ^ k = ((m * 2 ^ d : ℤ) : ℚ) := by
      rw [zpow_add₀ two_ne_zero, zpow_natCast]
      push_cast
      field_simp
    rw [hint, roundEven_intCast, ← hint, div_mul_cancel₀ _ hk]

end Binary64

end Lib
