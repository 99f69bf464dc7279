import Mathlib.Data.Nat.Digits.Defs
import Mathlib.Data.Nat.Digits.Lemmas

/-!
# Decimal numerals as bytes

How an unsigned integer type prints and reads itself: `print` writes the digits without leading
zeros, `parse` takes an optional `+`, at least one digit, any leading zeros, and refuses a value
that does not fit. `parse_print` is the round trip.
-/

namespace Lib.Decimal

def isDigit (b : UInt8) : Bool := 48 ≤ b ∧ b ≤ 57

def digitByte (d : ℕ) : UInt8 := UInt8.ofNat (48 + d)

def value (digits : List UInt8) : ℕ := digits.foldl (fun acc b => acc * 10 + (b.toNat - 48)) 0

/-- Reads an unsigned integer below `bound`. -/
def parse (bound : ℕ) (s : List UInt8) : Option ℕ :=
  let digits := if s.head? = some 43 then s.tail else s
  if digits.isEmpty then none
  else if digits.all isDigit then
    if value digits < bound then some (value digits) else none
  else none

/-- Writes a natural number. -/
def print (n : ℕ) : List UInt8 :=
  if n = 0 then [48] else (Nat.digits 10 n).reverse.map digitByte

theorem toNat_digitByte {d : ℕ} (h : d < 10) : (digitByte d).toNat = 48 + d := by
  unfold digitByte
  rw [UInt8.toNat_ofNat']
  exact Nat.mod_eq_of_lt (by omega)

theorem isDigit_digitByte {d : ℕ} (h : d < 10) : isDigit (digitByte d) = true := by
  have hd := toNat_digitByte h
  simp only [isDigit, decide_eq_true_eq, UInt8.le_iff_toNat_le, hd]
  constructor
  · show 48 ≤ 48 + d
    omega
  · show 48 + d ≤ 57
    omega

theorem isDigit_of_mem_print {n : ℕ} {b : UInt8} (h : b ∈ print n) : isDigit b = true := by
  unfold print at h
  split_ifs at h with h0
  · rw [List.mem_singleton.mp h]
    decide
  · obtain ⟨d, hd, rfl⟩ := List.mem_map.mp h
    exact isDigit_digitByte (Nat.digits_lt_base (by decide) (List.mem_reverse.mp hd))

theorem print_ne_nil (n : ℕ) : print n ≠ [] := by
  unfold print
  split_ifs with h0
  · exact List.cons_ne_nil _ _
  · simp [Nat.digits_ne_nil_iff_ne_zero.mpr h0]

theorem value_print (n : ℕ) : value (print n) = n := by
  unfold print value
  split_ifs with h0
  · rw [h0]
    rfl
  · rw [List.foldl_map, List.foldl_reverse]
    have hfold : ∀ ds : List ℕ, (∀ d ∈ ds, d < 10) →
        ds.foldr (fun d acc => acc * 10 + ((digitByte d).toNat - 48)) 0 = Nat.ofDigits 10 ds := by
      intro ds hds
      induction ds with
      | nil => rfl
      | cons d ds ih =>
        rw [List.foldr_cons, ih fun e he => hds e (List.mem_cons_of_mem d he), Nat.ofDigits_cons,
          toNat_digitByte (hds d List.mem_cons_self)]
        omega
    rw [hfold _ fun d hd => Nat.digits_lt_base (by decide) hd, Nat.ofDigits_digits]

/-- At least one digit after an optional `+`, for a number below `bound`. -/
def IsNumeral (bound : ℕ) (s : List UInt8) (n : ℕ) : Prop :=
  ∃ digits, (s = digits ∨ s = 43 :: digits) ∧ digits ≠ [] ∧
    (∀ b ∈ digits, isDigit b = true) ∧ value digits = n ∧ n < bound

/-- A numeral without a sign does not start with one. -/
theorem head?_ne_plus {digits : List UInt8} (h : ∀ b ∈ digits, isDigit b = true) :
    digits.head? ≠ some 43 := by
  intro hplus
  have hdigit := h 43 (List.mem_of_head? hplus)
  exact absurd hdigit (by decide)

/-- **What `parse` accepts.** -/
theorem parse_eq_some_iff {bound : ℕ} {s : List UInt8} {n : ℕ} :
    parse bound s = some n ↔ IsNumeral bound s n := by
  constructor
  · intro h
    unfold parse at h
    dsimp only at h
    have hsign : s = (if s.head? = some 43 then s.tail else s) ∨
        s = 43 :: (if s.head? = some 43 then s.tail else s) := by
      split_ifs with hplus
      · exact Or.inr (List.eq_cons_of_mem_head? hplus)
      · exact Or.inl rfl
    generalize (if s.head? = some 43 then s.tail else s) = digits at h hsign
    split_ifs at h with hnil hall hlt
    cases h
    exact ⟨digits, hsign, by simpa using hnil, List.all_eq_true.mp hall, rfl, hlt⟩
  · rintro ⟨digits, hs, hnil, hdigits, rfl, hlt⟩
    have hread : (if s.head? = some 43 then s.tail else s) = digits := by
      cases hs with
      | inl hs => rw [hs, if_neg (head?_ne_plus hdigits)]
      | inr hs => rw [hs, if_pos List.head?_cons, List.tail_cons]
    unfold parse
    dsimp only
    rw [hread, if_neg (by simpa using hnil), if_pos (List.all_eq_true.mpr hdigits), if_pos hlt]

/-- **Round trip.** -/
theorem parse_print {bound n : ℕ} (h : n < bound) : parse bound (print n) = some n := by
  rw [parse_eq_some_iff]
  exact ⟨print n, Or.inl rfl, print_ne_nil n, fun _ hb => isDigit_of_mem_print hb,
    value_print n, h⟩

/-- What is read fits, and is spelled with at least one byte. -/
theorem lt_of_parse {bound n : ℕ} {s : List UInt8} (h : parse bound s = some n) :
    n < bound ∧ s ≠ [] := by
  obtain ⟨digits, hs, hnil, -, -, hlt⟩ := parse_eq_some_iff.mp h
  refine ⟨hlt, ?_⟩
  rintro rfl
  cases hs with
  | inl hs => exact hnil hs.symm
  | inr hs => cases hs

/-- A printed numeral holds no byte that is not a digit. -/
theorem notMem_print {n : ℕ} {b : UInt8} (h : isDigit b = false) : b ∉ print n := by
  intro hb
  rw [isDigit_of_mem_print hb] at h
  cases h

/-! ## Numerals of a fixed number of digits -/

/-- Three digits, as `{:03}` prints a number below 1000. -/
def print3 (n : ℕ) : List UInt8 :=
  [digitByte (n / 100 % 10), digitByte (n / 10 % 10), digitByte (n % 10)]

theorem isDigit_of_mem_print3 {n : ℕ} {b : UInt8} (h : b ∈ print3 n) : isDigit b = true := by
  have hten (k : ℕ) : isDigit (digitByte (k % 10)) = true :=
    isDigit_digitByte (Nat.mod_lt k (by decide))
  simp only [print3, List.mem_cons, List.not_mem_nil, or_false] at h
  rcases h with rfl | rfl | rfl <;> exact hten _

theorem digitByte_sub {b : UInt8} (h : isDigit b = true) :
    digitByte (b.toNat - 48) = b ∧ b.toNat - 48 < 10 := by
  simp only [isDigit, decide_eq_true_eq, UInt8.le_iff_toNat_le] at h
  have hlow : 48 ≤ b.toNat := h.1
  have hhigh : b.toNat ≤ 57 := h.2
  refine ⟨?_, by omega⟩
  rw [← UInt8.toNat_inj, toNat_digitByte (by omega)]
  omega

/-- Three digits are the only ones with their value. -/
theorem print3_value {s : List UInt8} (hlen : s.length = 3) (h : ∀ b ∈ s, isDigit b = true) :
    print3 (value s) = s := by
  obtain ⟨a, b, c, rfl⟩ := List.length_eq_three.mp hlen
  obtain ⟨ha, ha'⟩ := digitByte_sub (h a (by simp))
  obtain ⟨hb, hb'⟩ := digitByte_sub (h b (by simp))
  obtain ⟨hc, hc'⟩ := digitByte_sub (h c (by simp))
  simp only [value, print3, List.foldl_cons, List.foldl_nil]
  generalize a.toNat - 48 = x at ha ha' ⊢
  generalize b.toNat - 48 = y at hb hb' ⊢
  generalize c.toNat - 48 = z at hc hc' ⊢
  rw [show ((((0 * 10 + x) * 10 + y) * 10 + z) / 100 % 10) = x by omega,
    show ((((0 * 10 + x) * 10 + y) * 10 + z) / 10 % 10) = y by omega,
    show ((((0 * 10 + x) * 10 + y) * 10 + z) % 10) = z by omega, ha, hb, hc]

theorem value_print3 {n : ℕ} (h : n < 1000) : value (print3 n) = n := by
  have hten (k : ℕ) : (digitByte (k % 10)).toNat - 48 = k % 10 := by
    rw [toNat_digitByte (Nat.mod_lt k (by decide)), Nat.add_sub_cancel_left]
  simp only [value, print3, List.foldl_cons, List.foldl_nil, hten]
  omega

end Lib.Decimal
