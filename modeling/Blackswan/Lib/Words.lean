import Mathlib.Data.Nat.Count
import Mathlib.Data.Nat.ModEq
import Mathlib.Data.Nat.Prime.Basic
import Mathlib.Logic.Function.Defs

/-!
# Permutations of words, and counters

Two maps on words of `w` bits that lose nothing, of which mixing functions are made: `x ^ (x >> k)`
and the product with an odd constant. An odd step also makes a counter of `w` bits run through all
words before it repeats. A counter of 64 bits is tested for every `n`-th value with the remainder.
What runs through all words meets each condition as often as there are words for it (`count_comp`).
-/

namespace Lib

/-- The bits of `x` are those of `x ^ (x >> k)`, corrected by the bits above. -/
theorem xorShiftRight_injective {w k : ℕ} (hk : 0 < k) :
    Function.Injective fun x : BitVec w => x ^^^ (x >>> k) := by
  intro x y h
  -- from the top down: the bits from `w - d` on agree
  have hbits : ∀ d i, w ≤ i + d → x.getLsbD i = y.getLsbD i := by
    intro d
    induction d with
    | zero =>
      intro i hi
      rw [BitVec.getLsbD_of_ge x i hi, BitVec.getLsbD_of_ge y i hi]
    | succ d ih =>
      intro i hi
      have hbit := congrArg (fun z => BitVec.getLsbD z i) h
      simp only [BitVec.getLsbD_xor, BitVec.getLsbD_ushiftRight] at hbit
      rw [ih (k + i) (by omega)] at hbit
      exact Bool.xor_left_inj.mp hbit
  exact BitVec.eq_of_getLsbD_eq fun i _ => hbits w i (Nat.le_add_left w i)

theorem coprime_two_pow {c : ℕ} (hc : c % 2 = 1) (w : ℕ) : Nat.gcd (2 ^ w) c = 1 := by
  apply Nat.Coprime.pow_left
  rw [Nat.prime_two.coprime_iff_not_dvd]
  omega

theorem mul_odd_injective {w : ℕ} {c : BitVec w} (hc : c.toNat % 2 = 1) :
    Function.Injective fun x : BitVec w => x * c := by
  intro x y h
  have hmod : x.toNat * c.toNat ≡ y.toNat * c.toNat [MOD 2 ^ w] := by
    have hnat := congrArg BitVec.toNat h
    rwa [BitVec.toNat_mul, BitVec.toNat_mul] at hnat
  have hcancel := Nat.ModEq.cancel_right_of_coprime (coprime_two_pow hc w) hmod
  exact BitVec.eq_of_toNat_eq (hcancel.eq_of_lt_of_lt x.isLt y.isLt)

/-- A counter with an odd step shows the same word only a full period later. -/
theorem counter_eq_iff {w c : ℕ} (hc : c % 2 = 1) (start i j : ℕ) :
    (start + i * c) % 2 ^ w = (start + j * c) % 2 ^ w ↔ i % 2 ^ w = j % 2 ^ w := by
  constructor
  · intro h
    have hsteps : i * c ≡ j * c [MOD 2 ^ w] := Nat.ModEq.add_left_cancel' start h
    exact Nat.ModEq.cancel_right_of_coprime (coprime_two_pow hc w) hsteps
  · intro h
    exact Nat.ModEq.add_left start (Nat.ModEq.mul_right c h)

/-- A sequence that shows each number below `n` once meets a condition as often as they do. -/
theorem count_comp {n : ℕ} {f : ℕ → ℕ} (hlt : ∀ i < n, f i < n)
    (hinj : ∀ i < n, ∀ j < n, f i = f j → i = j) (P : ℕ → Prop) [DecidablePred P] :
    Nat.count (fun i => P (f i)) n = Nat.count P n := by
  have hinjOn : Set.InjOn f (Finset.range n) := by
    intro i hi j hj hij
    rw [Finset.mem_coe, Finset.mem_range] at hi hj
    exact hinj i hi j hj hij
  -- the sequence permutes the numbers below `n`
  have himage : (Finset.range n).image f = Finset.range n := by
    apply Finset.eq_of_subset_of_card_le
    · intro y hy
      obtain ⟨i, hi, rfl⟩ := Finset.mem_image.mp hy
      exact Finset.mem_range.mpr (hlt i (Finset.mem_range.mp hi))
    · rw [Finset.card_image_of_injOn hinjOn]
  rw [Nat.count_eq_card_filter_range, Nat.count_eq_card_filter_range]
  nth_rewrite 2 [← himage]
  rw [Finset.filter_image, Finset.card_image_of_injOn]
  exact hinjOn.mono (Finset.coe_subset.mpr (Finset.filter_subset _ _))

theorem toNat_add_one {c : UInt64} (h : c.toNat + 1 < 2 ^ 64) : (c + 1).toNat = c.toNat + 1 := by
  rw [UInt64.toNat_add]
  exact Nat.mod_eq_of_lt h

theorem mod_toUInt64_eq_zero_iff (n : UInt32) (c : UInt64) :
    c % n.toUInt64 = 0 ↔ n.toNat ∣ c.toNat := by
  rw [Nat.dvd_iff_mod_eq_zero, ← UInt64.toNat_inj, UInt64.toNat_mod, UInt32.toNat_toUInt64]
  rfl

end Lib
