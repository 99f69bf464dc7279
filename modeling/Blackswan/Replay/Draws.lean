import Mathlib.Data.Int.CardIntervalMod
import Mathlib.Tactic.Positivity
import Blackswan.Core
import Blackswan.Lib.Binary64
import Blackswan.Lib.Outcome
import Blackswan.Replay.Rng

/-!
# Draws from the generator

What `next_f64`, `gen_bool` and `gen_range_u64` make of the words of `DeterministicRng`. Each of
them takes one word, and a stream shows every word once in a period. So how often a draw comes out
in a period is how many words it comes from.

1. `count_output` is this step, from a stream to the words.
2. `nextF64_eq` shows that no operation of `next_f64` rounds.
3. `gen_bool_share` and `gen_range_share` count the words.
-/

namespace Blackswan.Replay

open Lib (Binary64 Outcome)
open Lib.Binary64 (nearest Representable nearest_eq_self)

namespace DeterministicRng

/-! ## The functions -/

def nextF64 (self : DeterministicRng) : ℚ × DeterministicRng :=
  let (u, self) := self.nextU64
  (nearest (nearest (u >>> 11).toNat * nearest (1 / nearest ((1 : UInt64) <<< 53).toNat)), self)

def genBool (self : DeterministicRng) (probability : Binary64) : Bool × DeterministicRng :=
  let (x, self) := self.nextF64
  (Binary64.ltOf x probability, self)

/-- `debug_assert!` is not compiled in a release build, and there the subtraction and the addition
wrap around. A remainder by zero panics in both. -/
def genRangeU64 (build : Build) (self : DeterministicRng) (low high : UInt64) :
    Outcome Empty UInt64 × DeterministicRng :=
  if build = .debug ∧ ¬low < high then (.panic, self)
  else
    let (u, self) := self.nextU64
    if high - low = 0 then (.panic, self) else (.ok (low + u % (high - low)), self)

/-! ## From a stream to the words -/

theorem nextU64_after (seed : UInt64) (i : ℕ) :
    ((fromSeed seed).after i).nextU64.1 = (fromSeed seed).output i := rfl

/-- In a period, a condition on the words is met as often as there are words for it. -/
theorem count_output (seed : UInt64) (P : ℕ → Prop) [DecidablePred P] :
    Nat.count (fun i => P ((fromSeed seed).output i).toNat) (2 ^ 64) = Nat.count P (2 ^ 64) := by
  refine Lib.count_comp (fun i _ => ((fromSeed seed).output i).toNat_lt) ?_ P
  intro i hi j hj hij
  have hout := (output_eq_iff_mod seed i j).mp (UInt64.toNat_inj.mp hij)
  rwa [Nat.mod_eq_of_lt hi, Nat.mod_eq_of_lt hj] at hout

/-! ## Fractions -/

theorem representable_natCast {n : ℕ} (h : n < 2 ^ 53) : Representable n := by
  refine ⟨n, 0, ?_, by norm_num, ?_⟩
  · rw [Nat.abs_cast]
    exact_mod_cast h
  · rw [zpow_zero, mul_one, Int.cast_natCast]

/-- A fraction of 53 bits. -/
theorem representable_div {n : ℕ} (h : n < 2 ^ 53) : Representable (n * (1 / 2 ^ 53)) := by
  refine ⟨n, -53, ?_, by norm_num, ?_⟩
  · rw [Nat.abs_cast]
    exact_mod_cast h
  · rw [Int.cast_natCast, zpow_neg, one_div]
    rfl

theorem representable_unit : Representable (2 ^ 53) :=
  ⟨1, 53, by norm_num, by norm_num, by norm_num⟩

theorem toNat_top (u : UInt64) : (u >>> 11).toNat = u.toNat / 2 ^ 11 := by
  rw [UInt64.toNat_shiftRight, Nat.shiftRight_eq_div_pow]
  rfl

/-- The top 53 bits, as a fraction: every operation is exact. -/
theorem nextF64_eq (self : DeterministicRng) :
    self.nextF64.1 = ((self.nextU64.1.toNat / 2 ^ 11 : ℕ) : ℚ) * (1 / 2 ^ 53) := by
  have hlt : self.nextU64.1.toNat / 2 ^ 11 < 2 ^ 53 := by
    have := self.nextU64.1.toNat_lt
    omega
  have hunit : ((((1 : UInt64) <<< 53).toNat : ℕ) : ℚ) = 2 ^ 53 := by
    have hnat : ((1 : UInt64) <<< 53).toNat = 2 ^ 53 := by decide
    rw [hnat, Nat.cast_pow, Nat.cast_ofNat]
  have hrec : Representable (1 / 2 ^ 53) := by
    have hone := representable_div (n := 1) (by norm_num)
    rwa [Nat.cast_one, one_mul] at hone
  show nearest (nearest (self.nextU64.1 >>> 11).toNat * nearest (1 / nearest _)) = _
  rw [toNat_top, hunit, nearest_eq_self representable_unit, nearest_eq_self hrec,
    nearest_eq_self (representable_natCast hlt), nearest_eq_self (representable_div hlt)]

theorem nextF64_lt_one (self : DeterministicRng) : 0 ≤ self.nextF64.1 ∧ self.nextF64.1 < 1 := by
  have hlt : self.nextU64.1.toNat / 2 ^ 11 < 2 ^ 53 := by
    have := self.nextU64.1.toNat_lt
    omega
  have hcast : ((self.nextU64.1.toNat / 2 ^ 11 : ℕ) : ℚ) < 2 ^ 53 := by exact_mod_cast hlt
  rw [nextF64_eq]
  refine ⟨by positivity, ?_⟩
  linarith

/-! ## Coins -/

/-- The words for which the coin comes out true are those below a bound. -/
theorem genBool_iff (self : DeterministicRng) (q : ℚ) :
    (self.genBool (.finite q)).1 = true ↔ self.nextU64.1.toNat < ⌈q * 2 ^ 53⌉₊ * 2 ^ 11 := by
  have hcoin : (self.genBool (.finite q)).1 = decide (self.nextF64.1 < q) := rfl
  rw [hcoin, decide_eq_true_iff, nextF64_eq, ← Nat.div_lt_iff_lt_mul (by norm_num), Nat.lt_ceil,
    mul_one_div, div_lt_iff₀ (by norm_num)]

theorem count_lt (b n : ℕ) : Nat.count (fun i => i < b) n = min n b := by
  have hfilter : (Finset.range n).filter (fun i => i < b) = Finset.range (min n b) := by
    ext i
    rw [Finset.mem_filter, Finset.mem_range, Finset.mem_range, lt_min_iff]
  rw [Nat.count_eq_card_filter_range, hfilter, Finset.card_range]

/-- **How often a coin comes out true.** The fraction it is compared with is exact. In a period of
`2 ^ 64` calls the share is the probability, rounded up to a multiple of `2 ^ -53`. At zero and
below, minus infinity included, the coin never comes out true, at one and above, infinity included,
it always does, and for a probability that is no number it never does. -/
theorem gen_bool_share (seed : UInt64) (q : ℚ) :
    let coin := fun i => (((fromSeed seed).after i).genBool (.finite q)).1
    (∀ i, ((fromSeed seed).after i).nextF64.1 =
      ((((fromSeed seed).output i).toNat / 2 ^ 11 : ℕ) : ℚ) * (1 / 2 ^ 53)) ∧
    (q ≤ 0 → ∀ i, coin i = false) ∧ (1 ≤ q → ∀ i, coin i = true) ∧
    (0 ≤ q → q ≤ 1 →
      Nat.count (fun i => coin i = true) (2 ^ 64) = ⌈q * 2 ^ 53⌉₊ * 2 ^ 11 ∧
      q ≤ Nat.count (fun i => coin i = true) (2 ^ 64) / (2 : ℚ) ^ 64 ∧
      Nat.count (fun i => coin i = true) (2 ^ 64) / (2 : ℚ) ^ 64 < q + 1 / 2 ^ 53) ∧
    ∀ i, (((fromSeed seed).after i).genBool (.infinite true)).1 = false ∧
      (((fromSeed seed).after i).genBool (.infinite false)).1 = true ∧
      (((fromSeed seed).after i).genBool .nan).1 = false := by
  intro coin
  have hcoin : ∀ i, coin i = decide (((fromSeed seed).after i).nextF64.1 < q) := fun _ => rfl
  refine ⟨fun i => nextF64_eq _, fun hq i => ?_, fun hq i => ?_, fun hq hq' => ?_,
    fun i => ⟨rfl, rfl, rfl⟩⟩
  · have hpos := (nextF64_lt_one ((fromSeed seed).after i)).1
    rw [hcoin, decide_eq_false_iff_not, not_lt]
    exact hq.trans hpos
  · have hone := (nextF64_lt_one ((fromSeed seed).after i)).2
    rw [hcoin, decide_eq_true_iff]
    exact hone.trans_le hq
  · have hle : ⌈q * 2 ^ 53⌉₊ * 2 ^ 11 ≤ 2 ^ 64 := by
      have hceil : ⌈q * 2 ^ 53⌉₊ ≤ 2 ^ 53 := by
        rw [Nat.ceil_le]
        push_cast
        linarith
      omega
    have hcount : Nat.count (fun i => coin i = true) (2 ^ 64) = ⌈q * 2 ^ 53⌉₊ * 2 ^ 11 := by
      have hwords : (fun i => coin i = true) =
          fun i => ((fromSeed seed).output i).toNat < ⌈q * 2 ^ 53⌉₊ * 2 ^ 11 :=
        funext fun i => propext (genBool_iff _ q)
      simp only [hwords]
      rw [count_output seed (· < ⌈q * 2 ^ 53⌉₊ * 2 ^ 11), count_lt, min_eq_right hle]
    have hlow := Nat.le_ceil (q * 2 ^ 53)
    have hhigh := Nat.ceil_lt_add_one (show 0 ≤ q * 2 ^ 53 by positivity)
    refine ⟨hcount, ?_, ?_⟩
    · rw [hcount, le_div_iff₀ (by norm_num)]
      push_cast
      linarith
    · have hunits : (q + 1 / 2 ^ 53) * 2 ^ 64 = (q * 2 ^ 53 + 1) * 2 ^ 11 := by ring
      rw [hcount, div_lt_iff₀ (by norm_num), hunits, Nat.cast_mul, Nat.cast_pow, Nat.cast_ofNat]
      exact mul_lt_mul_of_pos_right hhigh (by norm_num)

/-- One call in four. -/
theorem gen_bool_share_quarter :
    Nat.count (fun i => (((fromSeed 7).after i).genBool (.finite (1 / 4))).1 = true) (2 ^ 64) =
      2 ^ 62 := by
  have hshare := ((gen_bool_share 7 (1 / 4)).2.2.2.1 (by norm_num) (by norm_num)).1
  have hceil : ⌈(1 / 4 : ℚ) * 2 ^ 53⌉₊ = 2 ^ 51 := by
    rw [show (1 / 4 : ℚ) * 2 ^ 53 = ((2 ^ 51 : ℕ) : ℚ) by norm_num, Nat.ceil_natCast]
  rw [hceil] at hshare
  exact hshare.trans (by norm_num)

/-! ## Ranges -/

section Range

variable {low high : UInt64}

theorem toNat_sub_of_lt (h : low < high) : (high - low).toNat = high.toNat - low.toNat :=
  UInt64.toNat_sub_of_le high low (UInt64.le_of_lt h)

/-- In both builds a range that is not empty is drawn from, and the sum does not wrap around. -/
theorem genRangeU64_of_lt (build : Build) (self : DeterministicRng) (h : low < high) :
    ∃ v, (self.genRangeU64 build low high).1 = .ok v ∧
      v.toNat = low.toNat + self.nextU64.1.toNat % (high.toNat - low.toNat) := by
  have hlt := UInt64.lt_iff_toNat_lt.mp h
  have hne : high - low ≠ 0 := by
    intro hzero
    have hsub := toNat_sub_of_lt h
    rw [hzero, UInt64.toNat_zero] at hsub
    omega
  refine ⟨low + self.nextU64.1 % (high - low), ?_, ?_⟩
  · unfold genRangeU64
    rw [if_neg fun hboth => hboth.2 h]
    dsimp only
    rw [if_neg hne]
  · have hmod : self.nextU64.1.toNat % (high.toNat - low.toNat) < high.toNat - low.toNat :=
      Nat.mod_lt _ (by omega)
    have hhigh := high.toNat_lt
    rw [UInt64.toNat_add, UInt64.toNat_mod, toNat_sub_of_lt h, Nat.mod_eq_of_lt (by omega)]

/-- A range that is empty panics in both builds. One with its ends exchanged panics in a debug
build, and in a release build what comes out is not between them. -/
theorem genRangeU64_of_le (build : Build) (self : DeterministicRng) (h : high ≤ low) :
    (self.genRangeU64 build low high).1 = .panic ∨
      build = .release ∧ high < low ∧ ∃ v, (self.genRangeU64 build low high).1 = .ok v ∧
        (v < high ∨ low ≤ v) := by
  have hle := UInt64.le_iff_toNat_le.mp h
  unfold genRangeU64
  cases build with
  | debug =>
    rw [if_pos ⟨rfl, UInt64.not_lt.mpr h⟩]
    exact Or.inl rfl
  | release =>
    rw [if_neg fun hboth => by cases hboth.1]
    dsimp only
    by_cases hzero : high - low = 0
    · rw [if_pos hzero]
      exact Or.inl rfl
    · rw [if_neg hzero]
      have hne : high ≠ low := fun e => hzero (by rw [e, UInt64.sub_self])
      have hlt : high < low := UInt64.lt_of_le_of_ne h hne
      refine Or.inr ⟨rfl, hlt, _, rfl, ?_⟩
      -- the difference wraps around to what lies outside of the ends
      have hsub : (high - low).toNat = 2 ^ 64 - low.toNat + high.toNat := by
        have := UInt64.lt_iff_toNat_lt.mp hlt
        have := low.toNat_lt
        rw [UInt64.toNat_sub]
        omega
      have hmod : (self.nextU64.1 % (high - low)).toNat < 2 ^ 64 - low.toNat + high.toNat := by
        have := low.toNat_lt
        rw [UInt64.toNat_mod, hsub]
        exact Nat.mod_lt _ (by omega)
      rw [UInt64.lt_iff_toNat_lt, UInt64.le_iff_toNat_le, UInt64.toNat_add]
      have := low.toNat_lt
      omega

/-- **How often a value is drawn.** A range that is not empty is drawn from without a panic, in both
builds, and nothing outside of it comes out. In a period of `2 ^ 64` calls each of its `m` values
comes out `2 ^ 64 / m` times, and the first `2 ^ 64 % m` of them once more. -/
theorem gen_range_share (build : Build) (seed : UInt64) (low high : UInt64) (h : low < high) :
    let draw := fun i => (((fromSeed seed).after i).genRangeU64 build low high).1
    let m := high.toNat - low.toNat
    (∀ i, ∃ v, draw i = .ok v ∧ low ≤ v ∧ v < high) ∧
    ∀ v, low ≤ v → v < high → Nat.count (fun i => draw i = .ok v) (2 ^ 64) =
      2 ^ 64 / m + if v.toNat - low.toNat < 2 ^ 64 % m then 1 else 0 := by
  intro draw m
  have hlt := UInt64.lt_iff_toNat_lt.mp h
  have hm : 0 < m := Nat.sub_pos_of_lt hlt
  refine ⟨fun i => ?_, fun v hlow hhigh => ?_⟩
  · obtain ⟨v, hv, hnat⟩ := genRangeU64_of_lt build ((fromSeed seed).after i) h
    have hmod := Nat.mod_lt ((fromSeed seed).after i).nextU64.1.toNat hm
    refine ⟨v, hv, ?_⟩
    rw [UInt64.le_iff_toNat_le, UInt64.lt_iff_toNat_lt, hnat]
    simp only [m] at hmod
    omega
  · rw [UInt64.le_iff_toNat_le] at hlow
    rw [UInt64.lt_iff_toNat_lt] at hhigh
    have hr : v.toNat - low.toNat < m := by omega
    -- the words that give `v` are those with its remainder
    have hwords : (fun i => draw i = .ok v) =
        fun i => ((fromSeed seed).output i).toNat ≡ v.toNat - low.toNat [MOD m] := by
      funext i
      obtain ⟨w, hw, hnat⟩ := genRangeU64_of_lt build ((fromSeed seed).after i) h
      rw [nextU64_after] at hnat
      have hdraw : draw i = .ok w := hw
      rw [hdraw, Outcome.ok.injEq, ← UInt64.toNat_inj, hnat, Nat.ModEq, Nat.mod_eq_of_lt hr]
      simp only [m]
      exact propext (by omega)
    simp only [hwords]
    rw [count_output seed (· ≡ v.toNat - low.toNat [MOD m]), Nat.count_modEq_card _ hm,
      Nat.mod_eq_of_lt hr]

end Range

/-- Three values: the first one is drawn once more often than the others. -/
theorem gen_range_share_three :
    let draw := fun i => (((fromSeed 7).after i).genRangeU64 .release 10 13).1
    Nat.count (fun i => draw i = .ok 10) (2 ^ 64) =
      Nat.count (fun i => draw i = .ok 11) (2 ^ 64) + 1 := by
  intro draw
  have hshare := (gen_range_share .release 7 10 13 (by decide)).2
  rw [hshare 10 (by decide) (by decide), hshare 11 (by decide) (by decide)]
  decide

end DeterministicRng

end Blackswan.Replay
