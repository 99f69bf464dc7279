import Mathlib.Data.List.Basic
import Blackswan.Core
import Blackswan.Lib.Decimal

/-!
# FIX messages

`parse` reads SOH-delimited `tag=value` fields, `set_field` writes a message back with one value
replaced and BodyLength and CheckSum recomputed. Bytes are lists of `UInt8`; a tag is the number
that `u32::from_str` reads.

`std::str::from_utf8` followed by `parse` is one ASCII reader here: whichever of the two refuses
a piece of the message, the error is `MalformedTag`.
-/

namespace Blackswan.Fix

open Lib (Outcome Decimal.parse Decimal.print Decimal.print3)

/-- The field delimiter. -/
def SOH : UInt8 := 0x01

/-- The byte `=`. -/
def EQ : UInt8 := 61

inductive ParseError where
  | empty
  | missingSoh
  | malformedTag
  deriving DecidableEq, Repr

/-- What `{e:?}` prints. -/
def ParseError.debug : ParseError → String
  | .empty => "Empty"
  | .missingSoh => "MissingSoh"
  | .malformedTag => "MalformedTag"

/-- A parsed message: its fields in order. -/
structure FixMessage where
  fields : List (ℕ × List UInt8)
  deriving DecidableEq, Repr

/-- First value for a tag. -/
def FixMessage.get (m : FixMessage) (tag : ℕ) : Option (List UInt8) :=
  (m.fields.find? fun field => field.1 == tag).map Prod.snd

def FixMessage.is (m : FixMessage) (tag : ℕ) (expected : List UInt8) : Bool :=
  m.get tag == some expected

/-- One field of the message, split at its first `=`. -/
def parseField (field : List UInt8) : Except ParseError (ℕ × List UInt8) :=
  match field.findIdx? (· == EQ) with
  | none => .error .malformedTag
  | some eq =>
    match Decimal.parse (2 ^ 32) (field.take eq) with
    | none => .error .malformedTag
    | some tag => .ok (tag, field.drop (eq + 1))

/-- The loop of `parse` over the pieces between delimiters; empty pieces are skipped. -/
def parseFields : List (List UInt8) → Except ParseError (List (ℕ × List UInt8))
  | [] => .ok []
  | field :: rest =>
    if field.isEmpty then parseFields rest
    else
      match parseField field with
      | .error e => .error e
      | .ok p =>
        match parseFields rest with
        | .error e => .error e
        | .ok ps => .ok (p :: ps)

def parse (bytes : List UInt8) : Except ParseError FixMessage :=
  if bytes.isEmpty then .error .empty
  else
    match parseFields (bytes.splitOn SOH) with
    | .error e => .error e
    | .ok [] => .error .missingSoh
    | .ok (p :: ps) => .ok ⟨p :: ps⟩

/-- Sum of the bytes modulo 256. -/
def computeChecksum (bytesBeforeChecksumField : List UInt8) : UInt8 :=
  bytesBeforeChecksumField.foldl (· + ·) 0

/-- `{sum:03}`. -/
def formatChecksum (sum : UInt8) : List UInt8 := Decimal.print3 sum.toNat

/-- A field of the rewritten body; 8, 9 and 10 are never copied. -/
def encodeField (tag : ℕ) (newValue : List UInt8) (field : ℕ × List UInt8) : List UInt8 :=
  if field.1 = 8 ∨ field.1 = 9 ∨ field.1 = 10 then []
  else
    let value := if field.1 = tag then newValue else field.2
    Decimal.print field.1 ++ [EQ] ++ value ++ [SOH]

/-- The message up to its checksum field: `8=begin_string`, `9=body.len()`, the body. -/
def encodeUpToChecksum (beginString body : List UInt8) : List UInt8 :=
  [56, EQ] ++ beginString ++ [SOH] ++ ([57, EQ] ++ Decimal.print body.length ++ [SOH] ++ body)

/-- The checksum field `10=ddd`. -/
def encodeChecksum (full : List UInt8) : List UInt8 :=
  [49, 48, EQ] ++ formatChecksum (computeChecksum full) ++ [SOH]

/-- `set_field`. A missing tag 8 is the `expect` on `parsed.get(8)`. -/
def setField (bytes : List UInt8) (tag : ℕ) (newValue : List UInt8) :
    Outcome ParseError (List UInt8) :=
  match parse bytes with
  | .error e => .err e
  | .ok parsed =>
    match parsed.get 8 with
    | none => .panic
    | some beginString =>
      let full := encodeUpToChecksum beginString
        (parsed.fields.flatMap (encodeField tag newValue))
      .ok (full ++ encodeChecksum full)

theorem length_encodeChecksum (full : List UInt8) : (encodeChecksum full).length = 7 := rfl

/-! ## What parsed values look like -/

/-- A delimiter found at `i` comes after `i` bytes that hold none. -/
theorem exists_delimited {l : List UInt8} {d : UInt8} {i : ℕ}
    (h : l.findIdx? (· == d) = some i) :
    ∃ v more, l = v ++ d :: more ∧ d ∉ v ∧ v.length = i := by
  induction l generalizing i with
  | nil => cases h
  | cons x l ih =>
    rw [List.findIdx?_cons] at h
    by_cases hx : x = d
    · rw [if_pos (beq_iff_eq.mpr hx)] at h
      cases h
      exact ⟨[], l, by rw [hx]; rfl, List.not_mem_nil, rfl⟩
    · rw [if_neg (fun hc => hx (beq_iff_eq.mp hc))] at h
      obtain ⟨j, hj, rfl⟩ := Option.map_eq_some_iff.mp h
      obtain ⟨v, more, rfl, hv, rfl⟩ := ih hj
      refine ⟨x :: v, more, rfl, ?_, rfl⟩
      rw [List.mem_cons, not_or]
      exact ⟨fun heq => hx heq.symm, hv⟩

theorem findIdx?_eq_none {l : List UInt8} {d : UInt8} :
    l.findIdx? (· == d) = none ↔ d ∉ l := by
  rw [List.findIdx?_eq_none_iff]
  constructor
  · intro h hd
    have hne := h d hd
    rw [beq_self_eq_true] at hne
    cases hne
  · intro h x hx
    exact beq_false_of_ne fun heq => h (heq ▸ hx)

theorem findIdx?_delimiter {l : List UInt8} {d : UInt8} (h : d ∉ l) (more : List UInt8) :
    (l ++ d :: more).findIdx? (· == d) = some l.length := by
  rw [List.findIdx?_append, findIdx?_eq_none.mpr h, List.findIdx?_cons]
  simp

/-- A field is read back, split at the `=` that was written. -/
theorem parseField_print {tag : ℕ} (htag : tag < 2 ^ 32) (value : List UInt8) :
    parseField (Decimal.print tag ++ EQ :: value) = .ok (tag, value) := by
  unfold parseField
  rw [findIdx?_delimiter (Lib.Decimal.notMem_print (by decide))]
  dsimp only
  rw [List.take_left, Lib.Decimal.parse_print htag]
  dsimp only
  rw [← List.drop_drop, List.drop_left]
  rfl

/-- The value of a field is a suffix of it. -/
theorem mem_of_parseField {field value : List UInt8} {tag : ℕ} {b : UInt8}
    (h : parseField field = .ok (tag, value)) (hb : b ∈ value) : b ∈ field := by
  unfold parseField at h
  split at h
  · cases h
  · split at h
    · cases h
    · cases h
      exact List.mem_of_mem_drop hb

theorem parseFields_cons_ok {field : List UInt8} {rest : List (List UInt8)}
    {ps : List (ℕ × List UInt8)} (h : parseFields (field :: rest) = .ok ps) :
    (field = [] ∧ parseFields rest = .ok ps) ∨
      field ≠ [] ∧ ∃ p ps', parseField field = .ok p ∧ parseFields rest = .ok ps' ∧
        ps = p :: ps' := by
  rw [parseFields] at h
  by_cases hnil : field = []
  · subst hnil
    exact Or.inl ⟨rfl, h⟩
  · rw [if_neg (by simpa using hnil)] at h
    rcases hp : parseField field with e | p <;> rw [hp] at h
    · cases h
    · rcases hps : parseFields rest with e | ps' <;> rw [hps] at h
      · cases h
      · cases h
        exact Or.inr ⟨hnil, p, ps', rfl, rfl, rfl⟩

theorem exists_piece_of_mem {pieces : List (List UInt8)} {ps : List (ℕ × List UInt8)}
    (h : parseFields pieces = .ok ps) {p : ℕ × List UInt8} (hp : p ∈ ps) :
    ∃ field ∈ pieces, parseField field = .ok p := by
  induction pieces generalizing ps with
  | nil =>
    cases h
    cases hp
  | cons field rest ih =>
    rcases parseFields_cons_ok h with ⟨-, hrest⟩ | ⟨-, q, ps', hq, hrest, rfl⟩
    · obtain ⟨f, hf, heq⟩ := ih hrest hp
      exact ⟨f, List.mem_cons_of_mem field hf, heq⟩
    · rcases List.mem_cons.mp hp with rfl | hp
      · exact ⟨field, List.mem_cons_self, hq⟩
      · obtain ⟨f, hf, heq⟩ := ih hrest hp
        exact ⟨f, List.mem_cons_of_mem field hf, heq⟩

theorem parse_eq_ok {bytes : List UInt8} {m : FixMessage} (h : parse bytes = .ok m) :
    parseFields (bytes.splitOn SOH) = .ok m.fields := by
  unfold parse at h
  split_ifs at h
  rcases hp : parseFields (bytes.splitOn SOH) with e | ps <;> rw [hp] at h
  · cases h
  · rcases ps with _ | ⟨p, ps⟩
    · cases h
    · cases h
      rfl

theorem notMem_of_mem_splitOn {bytes piece : List UInt8} (h : piece ∈ bytes.splitOn SOH) :
    SOH ∉ piece := by
  induction bytes generalizing piece with
  | nil =>
    rw [List.splitOn_nil, List.mem_singleton] at h
    rw [h]
    exact List.not_mem_nil
  | cons b bytes ih =>
    rw [List.splitOn_cons_eq_if_modifyHead] at h
    split_ifs at h with hb
    · rcases List.mem_cons.mp h with rfl | h
      · exact List.not_mem_nil
      · exact ih h
    · -- the first piece of the rest, with `b` in front
      rcases hs : bytes.splitOn SOH with _ | ⟨first, others⟩ <;> rw [hs] at h ih
      · cases h
      · rw [List.modifyHead_cons] at h
        rcases List.mem_cons.mp h with rfl | h
        · intro hmem
          rcases List.mem_cons.mp hmem with heq | hmem
          · exact hb (by rw [heq, beq_self_eq_true])
          · exact ih List.mem_cons_self hmem
        · exact ih (List.mem_cons_of_mem first h)

/-- The first piece ends at the first delimiter. -/
theorem splitOn_eq_takeWhile (bytes : List UInt8) :
    ∃ others, bytes.splitOn SOH = bytes.takeWhile (· != SOH) :: others := by
  induction bytes with
  | nil => exact ⟨[], rfl⟩
  | cons b bytes ih =>
    obtain ⟨others, hs⟩ := ih
    rw [List.splitOn_cons_eq_if_modifyHead]
    by_cases hb : b = SOH
    · rw [if_pos (beq_iff_eq.mpr hb), List.takeWhile_cons_of_neg (by simp [hb])]
      exact ⟨_, rfl⟩
    · rw [if_neg (fun hc => hb (beq_iff_eq.mp hc)), hs, List.modifyHead_cons,
        List.takeWhile_cons_of_pos (by simp [hb])]
      exact ⟨others, rfl⟩

theorem notMem_of_mem_fields {bytes : List UInt8} {m : FixMessage} {p : ℕ × List UInt8}
    (h : parse bytes = .ok m) (hp : p ∈ m.fields) : SOH ∉ p.2 := by
  obtain ⟨piece, hpiece, hparsed⟩ := exists_piece_of_mem (parse_eq_ok h) hp
  intro hmem
  exact notMem_of_mem_splitOn hpiece (mem_of_parseField hparsed hmem)

/-- No parsed value holds a delimiter. -/
theorem notMem_value_of_parse {bytes value : List UInt8} {m : FixMessage} {tag : ℕ}
    (h : parse bytes = .ok m) (hget : m.get tag = some value) : SOH ∉ value := by
  obtain ⟨field, hfind, rfl⟩ := Option.map_eq_some_iff.mp hget
  exact notMem_of_mem_fields h (List.mem_of_find?_eq_some hfind)

end Blackswan.Fix
