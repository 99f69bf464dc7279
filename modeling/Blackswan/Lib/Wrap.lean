import Mathlib.Data.Nat.ModEq
import Mathlib.Data.Int.GCD
import Mathlib.Tactic.Ring

/-!
# Counters that wrap around

A counter of range `M` that starts at zero and moves by `t` shows the values `k * t % M`. These
are multiples of `gcd t M`, and the largest of them, `M - gcd t M`, is reached.
-/

namespace Lib

theorem mul_mod_le_sub_gcd {M : ℕ} (hM : 0 < M) (t k : ℕ) : k * t % M ≤ M - t.gcd M := by
  have hdvd : t.gcd M ∣ k * t % M :=
    (Nat.dvd_mod_iff (Nat.gcd_dvd_right t M)).mpr
      (Nat.dvd_trans (Nat.gcd_dvd_left t M) (Nat.dvd_mul_left t k))
  have hlt := Nat.mod_lt (k * t) hM
  -- the distance to the range is a positive multiple of the gcd
  have hle : t.gcd M ≤ M - k * t % M :=
    Nat.le_of_dvd (by omega) (Nat.dvd_sub (Nat.gcd_dvd_right t M) hdvd)
  omega

theorem exists_mul_mod_eq_sub_gcd {M : ℕ} (hM : 0 < M) (t : ℕ) :
    ∃ k, k ≠ 0 ∧ k * t % M = M - t.gcd M := by
  have hle : t.gcd M ≤ M := Nat.gcd_le_right t hM
  rcases Nat.lt_or_ge (t.gcd M) M with hlt | hge
  · obtain ⟨m, -, hm⟩ := Nat.exists_mul_mod_eq_gcd hlt
    have hpos : 0 < t.gcd M := Nat.gcd_pos_of_pos_right t hM
    have hdiv := Nat.div_add_mod (t * m) M
    rw [hm] at hdiv
    -- `M - 1` more times the step that shows the gcd
    have hval : m * (M - 1) * t = (M - t.gcd M) +
        M * (t.gcd M - 1 + t * m / M * (M - 1)) := by
      generalize t.gcd M = g at *
      generalize t * m / M = q at *
      obtain ⟨d, rfl⟩ := Nat.exists_eq_add_of_le hle
      obtain ⟨g', rfl⟩ : ∃ g', g = g' + 1 := ⟨g - 1, by omega⟩
      rw [show g' + 1 + d - 1 = g' + d by omega, show g' + 1 + d - (g' + 1) = d by omega,
        Nat.add_sub_cancel, show m * (g' + d) * t = t * m * (g' + d) by ring, ← hdiv]
      ring
    have hmod : m * (M - 1) * t % M = M - t.gcd M := by
      rw [hval, Nat.add_mul_mod_self_left, Nat.mod_eq_of_lt (by omega)]
    refine ⟨m * (M - 1), ?_, hmod⟩
    intro h0
    rw [h0, Nat.zero_mul, Nat.zero_mod] at hmod
    omega
  · -- `t` is a multiple of the range: the counter stands still
    have hdvd : M ∣ t := by
      rw [← Nat.le_antisymm hle hge]
      exact Nat.gcd_dvd_left t M
    refine ⟨1, Nat.one_ne_zero, ?_⟩
    rw [Nat.one_mul, Nat.mod_eq_zero_of_dvd hdvd]
    omega

end Lib
