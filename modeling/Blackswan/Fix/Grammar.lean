import Mathlib.Data.List.Forall2
import Blackswan.Fix.Message

/-!
# The language of `parse`

`parse` reads the non-empty pieces between delimiters, each of them `name=value` with a numeral
for its name.

1. `parseField_eq_ok_iff`: one piece against `IsField`.
2. `parseFields_eq_ok_iff` and `parseFields_eq_error_iff`: the loop, by induction on the pieces.
3. `parse_language` puts the three errors and the result together.
-/

namespace Blackswan.Fix

open Lib (Decimal.IsNumeral Decimal.parse_eq_some_iff)

variable {b segment : List UInt8} {p : ℕ × List UInt8}

/-- The non-empty pieces between delimiters. -/
def segments (bytes : List UInt8) : List (List UInt8) :=
  (bytes.splitOn SOH).filter fun segment => !segment.isEmpty

/-- A field: the tag before the first `=`, and everything after it. -/
def IsField (segment : List UInt8) (p : ℕ × List UInt8) : Prop :=
  ∃ name, segment = name ++ EQ :: p.2 ∧ EQ ∉ name ∧ Decimal.IsNumeral (2 ^ 32) name p.1

/-- No `=`, or no `u32` before the first one. -/
def Malformed (segment : List UInt8) : Prop :=
  EQ ∉ segment ∨ ∀ n, ¬ Decimal.IsNumeral (2 ^ 32) (segment.takeWhile (· != EQ)) n

/-! ## One piece -/

theorem parseField_of_name {name : List UInt8} (h : EQ ∉ name) (value : List UInt8) :
    parseField (name ++ EQ :: value) =
      match Lib.Decimal.parse (2 ^ 32) name with
      | none => .error .malformedTag
      | some tag => .ok (tag, value) := by
  unfold parseField
  rw [findIdx?_delimiter h]
  dsimp only
  rw [List.take_left, ← List.drop_drop, List.drop_left]
  rfl

theorem parseField_eq_ok_iff : parseField segment = .ok p ↔ IsField segment p := by
  constructor
  · intro h
    cases hidx : segment.findIdx? (· == EQ) with
    | none =>
      unfold parseField at h
      rw [hidx] at h
      cases h
    | some i =>
      obtain ⟨name, value, rfl, hname, -⟩ := exists_delimited hidx
      rw [parseField_of_name hname] at h
      cases hn : Lib.Decimal.parse (2 ^ 32) name with
      | none =>
        rw [hn] at h
        cases h
      | some tag =>
        rw [hn] at h
        cases h
        exact ⟨name, rfl, hname, Decimal.parse_eq_some_iff.mp hn⟩
  · rintro ⟨name, hsegment, hname, hn⟩
    rw [hsegment, parseField_of_name hname, Decimal.parse_eq_some_iff.mpr hn]

theorem takeWhile_name {name : List UInt8} (h : EQ ∉ name) (value : List UInt8) :
    (name ++ EQ :: value).takeWhile (· != EQ) = name := by
  rw [List.takeWhile_append_of_pos, List.takeWhile_cons_of_neg (by decide), List.append_nil]
  intro x hx
  exact bne_iff_ne.mpr fun heq => h (heq ▸ hx)

/-- A piece is malformed if it cannot be read as a field. -/
theorem malformed_iff : Malformed segment ↔ ∀ p, ¬ IsField segment p := by
  constructor
  · rintro hbad p ⟨name, rfl, hname, hn⟩
    cases hbad with
    | inl hnone => exact hnone (List.mem_append_right name List.mem_cons_self)
    | inr hnum =>
      rw [takeWhile_name hname] at hnum
      exact hnum p.1 hn
  · intro hnone
    cases hidx : segment.findIdx? (· == EQ) with
    | none => exact Or.inl (findIdx?_eq_none.mp hidx)
    | some i =>
      obtain ⟨name, value, rfl, hname, -⟩ := exists_delimited hidx
      refine Or.inr fun n hn => hnone (n, value) ⟨name, rfl, hname, ?_⟩
      rwa [takeWhile_name hname] at hn

theorem parseField_eq_error_iff {e : ParseError} :
    parseField segment = .error e ↔ e = .malformedTag ∧ Malformed segment := by
  have hcases : (∃ p, parseField segment = .ok p) ∨ parseField segment = .error .malformedTag := by
    unfold parseField
    split
    · exact Or.inr rfl
    · split
      · exact Or.inr rfl
      · exact Or.inl ⟨_, rfl⟩
  rw [malformed_iff]
  cases hcases with
  | inl hok =>
    obtain ⟨p, hp⟩ := hok
    rw [hp]
    constructor
    · intro h
      cases h
    · intro h
      exact absurd (parseField_eq_ok_iff.mp hp) (h.2 p)
  | inr herr =>
    have hnone : ∀ p, ¬ IsField segment p := by
      intro p hp
      rw [parseField_eq_ok_iff.mpr hp] at herr
      cases herr
    rw [herr, Except.error.injEq, eq_comm]
    exact ⟨fun h => ⟨h, hnone⟩, And.left⟩

/-! ## The loop -/

theorem parseFields_eq_ok_iff {pieces : List (List UInt8)} {ps : List (ℕ × List UInt8)} :
    parseFields pieces = .ok ps ↔
      List.Forall₂ IsField (pieces.filter fun segment => !segment.isEmpty) ps := by
  induction pieces generalizing ps with
  | nil =>
    rw [List.filter_nil, List.forall₂_nil_left_iff, parseFields, Except.ok.injEq, eq_comm]
  | cons segment rest ih =>
    by_cases hnil : segment = []
    · subst hnil
      exact ih
    · rw [List.filter_cons_of_pos (by simpa using hnil), List.forall₂_cons_left_iff]
      constructor
      · intro h
        obtain ⟨hc, -⟩ | ⟨-, p, ps', hp, hrest, rfl⟩ := parseFields_cons_ok h
        · exact absurd hc hnil
        · exact ⟨p, ps', parseField_eq_ok_iff.mp hp, ih.mp hrest, rfl⟩
      · rintro ⟨p, ps', hp, hrest, rfl⟩
        rw [parseFields, if_neg (by simpa using hnil), parseField_eq_ok_iff.mpr hp, ih.mpr hrest]

/-- The loop stops at the first piece that is malformed. -/
theorem parseFields_eq_error_iff {pieces : List (List UInt8)} {e : ParseError} :
    parseFields pieces = .error e ↔ e = .malformedTag ∧
      ∃ segment ∈ pieces.filter fun segment => !segment.isEmpty, Malformed segment := by
  induction pieces with
  | nil => simp [parseFields]
  | cons segment rest ih =>
    by_cases hnil : segment = []
    · subst hnil
      exact ih
    · rw [List.filter_cons_of_pos (by simpa using hnil), List.exists_mem_cons_iff, parseFields,
        if_neg (by simpa using hnil)]
      cases hp : parseField segment with
      | error e' =>
        obtain ⟨rfl, hbad⟩ := parseField_eq_error_iff.mp hp
        rw [Except.error.injEq, eq_comm]
        exact ⟨fun h => ⟨h, Or.inl hbad⟩, And.left⟩
      | ok p =>
        have hgood : ¬ Malformed segment := by
          intro hbad
          rw [parseField_eq_error_iff.mpr ⟨rfl, hbad⟩] at hp
          cases hp
        rw [or_iff_right hgood, ← ih]
        dsimp only
        cases parseFields rest with
        | error e' => rfl
        | ok ps => exact iff_of_false (fun h => by cases h) (fun h => by cases h)

/-! ## The whole message -/

theorem segments_eq_nil_iff : segments b = [] ↔ ∀ x ∈ b, x = SOH := by
  induction b with
  | nil => simp [segments]
  | cons x b ih =>
    unfold segments at ih ⊢
    rw [List.forall_mem_cons, List.splitOn_cons_eq_if_modifyHead]
    by_cases hx : x = SOH
    · rw [if_pos (beq_iff_eq.mpr hx)]
      exact ih.trans (iff_and_self.mpr fun _ => hx)
    · rw [if_neg (fun hc => hx (beq_iff_eq.mp hc))]
      cases hs : b.splitOn SOH with
      | nil => exact absurd hs (List.splitOn_ne_nil SOH b)
      | cons first others => simp [hx]

theorem parse_of_ne_nil (hb : b ≠ []) :
    parse b = match parseFields (b.splitOn SOH) with
      | .error e => .error e
      | .ok ps => if ps = [] then .error .missingSoh else .ok ⟨ps⟩ := by
  unfold parse
  rw [if_neg (by simpa using hb)]
  cases parseFields (b.splitOn SOH) with
  | error e => rfl
  | ok ps => cases ps <;> rfl

/-- What `parse` does, by what its loop did. -/
theorem parse_cases (b : List UInt8) :
    (b = [] ∧ parse b = .error .empty) ∨
      b ≠ [] ∧ ((segments b = [] ∧ parse b = .error .missingSoh) ∨
        ((∃ segment ∈ segments b, Malformed segment) ∧ parse b = .error .malformedTag) ∨
        ∃ ps, ps ≠ [] ∧ List.Forall₂ IsField (segments b) ps ∧ parse b = .ok ⟨ps⟩) := by
  by_cases hb : b = []
  · subst hb
    exact Or.inl ⟨rfl, rfl⟩
  · refine Or.inr ⟨hb, ?_⟩
    rw [parse_of_ne_nil hb]
    cases hloop : parseFields (b.splitOn SOH) with
    | error e =>
      obtain ⟨rfl, hbad⟩ := parseFields_eq_error_iff.mp hloop
      exact Or.inr (Or.inl ⟨hbad, rfl⟩)
    | ok ps =>
      have hfields : List.Forall₂ IsField (segments b) ps := parseFields_eq_ok_iff.mp hloop
      dsimp only
      by_cases hps : ps = []
      · subst hps
        exact Or.inl ⟨List.forall₂_nil_right_iff.mp hfields, if_pos rfl⟩
      · exact Or.inr (Or.inr ⟨ps, hps, hfields, if_neg hps⟩)

/-- Fields that can be read are not malformed. -/
theorem not_malformed_of_forall₂ {pieces : List (List UInt8)} {ps : List (ℕ × List UInt8)}
    (h : List.Forall₂ IsField pieces ps) : ∀ segment ∈ pieces, ¬ Malformed segment := by
  induction h with
  | nil => exact fun _ hs => absurd hs List.not_mem_nil
  | cons hfield _ ih =>
    rw [List.forall_mem_cons]
    exact ⟨fun hbad => malformed_iff.mp hbad _ hfield, ih⟩

theorem forall₂_isField_unique {pieces : List (List UInt8)} {ps qs : List (ℕ × List UInt8)}
    (hp : List.Forall₂ IsField pieces ps) (hq : List.Forall₂ IsField pieces qs) : ps = qs := by
  induction hp generalizing qs with
  | nil => exact (List.forall₂_nil_left_iff.mp hq).symm
  | cons hfield _ ih =>
    obtain ⟨q, qs', hread, hqs, rfl⟩ := List.forall₂_cons_left_iff.mp hq
    have hsame := (parseField_eq_ok_iff.mpr hfield).symm.trans (parseField_eq_ok_iff.mpr hread)
    rw [ih hqs, Except.ok.inj hsame]

/-- **The language of `parse`.** Each error and the result, on all inputs. -/
theorem parse_language (b : List UInt8) :
    (parse b = .error .empty ↔ b = []) ∧
    (parse b = .error .missingSoh ↔ b ≠ [] ∧ ∀ x ∈ b, x = SOH) ∧
    (parse b = .error .malformedTag ↔ ∃ segment ∈ segments b, Malformed segment) ∧
    ((∃ m, parse b = .ok m) ↔
      b ≠ [] ∧ ¬ (∀ x ∈ b, x = SOH) ∧ ∀ segment ∈ segments b, ¬ Malformed segment) ∧
    ∀ m, parse b = .ok m ↔ m.fields ≠ [] ∧ List.Forall₂ IsField (segments b) m.fields := by
  rw [← segments_eq_nil_iff]
  obtain ⟨rfl, hparse⟩ | ⟨hb, ⟨hnil, hparse⟩ | ⟨hbad, hparse⟩ | ⟨ps, hps, hfields, hparse⟩⟩ :=
    parse_cases b
  · simp [hparse, segments]
  · simp [hparse, hnil, hb]
  · obtain ⟨segment, hmem, hseg⟩ := hbad
    have hne : segments b ≠ [] := List.ne_nil_of_mem hmem
    refine ⟨by simp [hparse, hb], by simp [hparse, hne], iff_of_true hparse ⟨_, hmem, hseg⟩,
      iff_of_false ?_ fun h => h.2.2 segment hmem hseg, fun m => iff_of_false ?_ fun h => ?_⟩
    · rintro ⟨m, hm⟩
      rw [hparse] at hm
      cases hm
    · simp [hparse]
    · exact not_malformed_of_forall₂ h.2 segment hmem hseg
  · have hgood := not_malformed_of_forall₂ hfields
    have hne : segments b ≠ [] := by
      intro hnil
      rw [hnil] at hfields
      exact hps (List.forall₂_nil_left_iff.mp hfields)
    refine ⟨by simp [hparse, hb], by simp [hparse, hne], iff_of_false (by simp [hparse]) ?_,
      iff_of_true ⟨_, hparse⟩ ⟨hb, hne, hgood⟩, fun m => ?_⟩
    · rintro ⟨segment, hmem, hseg⟩
      exact hgood segment hmem hseg
    · rw [hparse, Except.ok.injEq]
      constructor
      · rintro rfl
        exact ⟨hps, hfields⟩
      · rintro ⟨-, hm⟩
        rw [forall₂_isField_unique hfields hm]

/-- A sign, a leading zero and a second `=` in the value: `+08=F=|`. -/
example : parse [43, 48, 56, EQ, 70, EQ, SOH] = .ok ⟨[(8, [70, EQ])]⟩ := by decide

end Blackswan.Fix
