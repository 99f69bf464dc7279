import Mathlib.Data.Fintype.EquivFin
import Blackswan.Lib.Words

/-!
# The random number generator

`DeterministicRng` is SplitMix64: a counter with an odd step, and a mixing function on what it
shows. The mixing function is made of permutations (`mix_injective`) and the counter runs through
all words, so a stream does too, and no two seeds agree at any position.
-/

namespace Blackswan.Replay

structure DeterministicRng where
  state : UInt64
  deriving DecidableEq, Repr

/-- What `next_u64` adds to its state. -/
def GAMMA : UInt64 := 0x9E3779B97F4A7C15

/-- The last three lines of `next_u64`. -/
def mix (z : UInt64) : UInt64 :=
  let z := (z ^^^ (z >>> 30)) * 0xBF58476D1CE4E5B9
  let z := (z ^^^ (z >>> 27)) * 0x94D049BB133111EB
  z ^^^ (z >>> 31)

namespace DeterministicRng

def fromSeed (seed : UInt64) : DeterministicRng := ⟨seed⟩

def nextU64 (self : DeterministicRng) : UInt64 × DeterministicRng :=
  let state := self.state + GAMMA
  (mix state, ⟨state⟩)

/-- The generator after `n` calls of `next_u64`. -/
def after (self : DeterministicRng) : ℕ → DeterministicRng
  | 0 => self
  | n + 1 => (self.after n).nextU64.2

/-- What the next call returns after `n` calls: the positions of a stream, from zero. -/
def output (self : DeterministicRng) (n : ℕ) : UInt64 := (self.after n).nextU64.1

end DeterministicRng

/-! ## The mixing function -/

theorem xorShift_inj {k : UInt64} (hk : 0 < k.toNat % 64) {x y : UInt64}
    (h : x ^^^ (x >>> k) = y ^^^ (y >>> k)) : x = y := by
  have hbits := congrArg UInt64.toBitVec h
  simp only [UInt64.toBitVec_xor, UInt64.toBitVec_shiftRight] at hbits
  exact UInt64.toBitVec_inj.mp (Lib.xorShiftRight_injective hk hbits)

theorem mul_inj {c : UInt64} (hc : c.toNat % 2 = 1) {x y : UInt64} (h : x * c = y * c) :
    x = y := by
  have hbits := congrArg UInt64.toBitVec h
  simp only [UInt64.toBitVec_mul] at hbits
  exact UInt64.toBitVec_inj.mp (Lib.mul_odd_injective hc hbits)

/-- Each stage can be undone. -/
theorem mix_injective : Function.Injective mix := by
  intro x y h
  have h31 := xorShift_inj (k := 31) (by decide) h
  have h27 := xorShift_inj (k := 27) (by decide) (mul_inj (by decide) h31)
  exact xorShift_inj (k := 30) (by decide) (mul_inj (by decide) h27)

/-! ## The counter -/

namespace DeterministicRng

theorem toNat_state_after (seed : UInt64) (n : ℕ) :
    ((fromSeed seed).after n).state.toNat = (seed.toNat + n * GAMMA.toNat) % 2 ^ 64 := by
  induction n with
  | zero =>
    rw [Nat.zero_mul, Nat.add_zero, Nat.mod_eq_of_lt seed.toNat_lt]
    rfl
  | succ n ih =>
    have hstep : ((fromSeed seed).after (n + 1)).state =
        ((fromSeed seed).after n).state + GAMMA := rfl
    rw [hstep, UInt64.toNat_add, ih, Nat.mod_add_mod, Nat.add_assoc, Nat.succ_mul]

theorem output_eq (self : DeterministicRng) (n : ℕ) :
    self.output n = mix (self.after (n + 1)).state := rfl

/-- Outputs agree where the counters do. -/
theorem output_eq_iff (seed seed' : UInt64) (i j : ℕ) :
    (fromSeed seed).output i = (fromSeed seed').output j ↔
      (seed.toNat + (i + 1) * GAMMA.toNat) % 2 ^ 64 =
        (seed'.toNat + (j + 1) * GAMMA.toNat) % 2 ^ 64 := by
  rw [output_eq, output_eq, mix_injective.eq_iff, ← UInt64.toNat_inj, toNat_state_after,
    toNat_state_after]

/-- Within one stream, they agree a full period apart. -/
theorem output_eq_iff_mod (seed : UInt64) (i j : ℕ) :
    (fromSeed seed).output i = (fromSeed seed).output j ↔ i % 2 ^ 64 = j % 2 ^ 64 := by
  rw [output_eq_iff, Lib.counter_eq_iff (by decide)]
  omega

/-- **Streams do not collide.** Different seeds differ at every position, and a stream shows all
words once before it repeats one. -/
theorem streams_distinct :
    (∀ seed seed', seed ≠ seed' → ∀ n,
      (fromSeed seed).output n ≠ (fromSeed seed').output n) ∧
    (∀ seed i j, i < 2 ^ 64 → j < 2 ^ 64 → i ≠ j →
      (fromSeed seed).output i ≠ (fromSeed seed).output j) ∧
    ∀ seed word, ∃ i < 2 ^ 64, (fromSeed seed).output i = word := by
  refine ⟨fun seed seed' hne n h => hne ?_, fun seed i j hi hj hne h => hne ?_,
    fun seed word => ?_⟩
  · rw [output_eq_iff] at h
    have hseed : seed.toNat ≡ seed'.toNat [MOD 2 ^ 64] := Nat.ModEq.add_right_cancel' _ h
    exact UInt64.toNat_inj.mp (hseed.eq_of_lt_of_lt seed.toNat_lt seed'.toNat_lt)
  · rw [output_eq_iff_mod, Nat.mod_eq_of_lt hi, Nat.mod_eq_of_lt hj] at h
    exact h
  · -- as many positions as words, and no word twice
    let f : Fin (2 ^ 64) → Fin (2 ^ 64) := fun i => ((fromSeed seed).output i).toFin
    have hinj : Function.Injective f := by
      intro i j hij
      have hout := UInt64.toFin_inj.mp hij
      rw [output_eq_iff_mod, Nat.mod_eq_of_lt i.isLt, Nat.mod_eq_of_lt j.isLt] at hout
      exact Fin.ext hout
    obtain ⟨i, hi⟩ := Finite.surjective_of_injective hinj word.toFin
    exact ⟨i, i.isLt, UInt64.toFin_inj.mp hi⟩

/-- The reference vector of the unit test. -/
example : (fromSeed 1234567).nextU64.1 = 6457827717110365317 := by decide

end DeterministicRng

end Blackswan.Replay
