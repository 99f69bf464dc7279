import Blackswan.Fix.Message
import Blackswan.Lib.Extraction

/-!
# Framing

`find_complete_message` looks at the front of a buffer for one complete message. `readHeader` is
the part of it that finds the end of tag 9 and reads BodyLength; what remains is one sum.

`framer` shows that its answers are stable under extension of the buffer, for every early exit
and in both build profiles: a message once found stays the message found, and a buffer once
refused stays refused. `findCompleteMessage_encoded` is the other half: what `set_field` writes
is found whole.
-/

namespace Blackswan.Fix

open Lib (Outcome Verdict Framer Decimal.parse Decimal.print)

/-- Addition of two `usize`, 64 bits wide. -/
def usizeAdd (build : Build) (a b : ℕ) : Outcome ParseError ℕ :=
  if a + b < 2 ^ 64 then .ok (a + b)
  else
    match build with
    | .debug => .panic
    | .release => .ok ((a + b) % 2 ^ 64)

/-- Tag 9 at the front of `rest`: where its SOH stands, and BodyLength. The slice
`rest[2..tag9_end_rel]` panics when it ends before it starts. -/
def readBodyLength (rest : List UInt8) : Outcome ParseError (Option (ℕ × ℕ)) :=
  if 2 ≤ rest.length ∧ rest.take 2 ≠ [57, EQ] then .err .malformedTag
  else
    match rest.findIdx? (· == SOH) with
    | none => .ok none
    | some tag9EndRel =>
      if tag9EndRel < 2 then .panic
      else
        match Decimal.parse (2 ^ 64) ((rest.take tag9EndRel).drop 2) with
        | none => .err .malformedTag
        | some bodyLength => .ok (some (tag9EndRel, bodyLength))

/-- The header of the message at the front: its length through the SOH that ends tag 9, and
BodyLength. -/
def readHeader (buf : List UInt8) : Outcome ParseError (Option (ℕ × ℕ)) :=
  if buf.length < 2 then .ok none
  else if buf.take 2 ≠ [56, EQ] then .err .malformedTag
  else
    match buf.findIdx? (· == SOH) with
    | none => .ok none
    | some tag8End =>
      (readBodyLength (buf.drop (tag8End + 1))).map fun tag9 =>
        tag9.map fun p => (tag8End + 1 + p.1 + 1, p.2)

/-- `find_complete_message`. The trailer `10=ddd` with its SOH has seven bytes. -/
def findCompleteMessage (build : Build) (buf : List UInt8) : Outcome ParseError (Option ℕ) :=
  (readHeader buf).bind fun
    | none => .ok none
    | some (headerLen, bodyLength) =>
      (usizeAdd build headerLen bodyLength).bind fun n =>
        (usizeAdd build n 7).bind fun totalLen =>
          .ok (if buf.length < totalLen then none else some totalLen)

/-! ## Stability under extension -/

variable {build : Build} {b s : List UInt8}

theorem findIdx?_append_of_some {p : UInt8 → Bool} {i : ℕ} (h : b.findIdx? p = some i)
    (s : List UInt8) : (b ++ s).findIdx? p = some i := by
  rw [List.findIdx?_append, h]
  rfl

/-- The position found lies in the buffer. -/
theorem lt_of_findIdx? {p : UInt8 → Bool} {i : ℕ} (h : b.findIdx? p = some i) : i < b.length := by
  obtain ⟨hlt, -⟩ := List.findIdx?_eq_some_iff_getElem.mp h
  exact hlt

theorem take_append_of_lt {i : ℕ} (h : i < b.length) (s : List UInt8) :
    (b ++ s).take i = b.take i := List.take_append_of_le_length h.le

/-- A BodyLength that was read is read the same way from every longer buffer. -/
theorem readBodyLength_append {p : ℕ × ℕ} (h : readBodyLength b = .ok (some p)) (s : List UInt8) :
    readBodyLength (b ++ s) = .ok (some p) := by
  unfold readBodyLength at h ⊢
  split_ifs at h with h9
  rcases hsoh : b.findIdx? (· == SOH) with _ | e <;> rw [hsoh] at h
  · cases h
  · have hlt := lt_of_findIdx? hsoh
    dsimp only at h
    split_ifs at h with he
    have h9' : ¬ (2 ≤ (b ++ s).length ∧ (b ++ s).take 2 ≠ [57, EQ]) := by
      rw [List.take_append_of_le_length (by omega)]
      exact fun hc => h9 ⟨by omega, hc.2⟩
    rw [if_neg h9', findIdx?_append_of_some hsoh s]
    dsimp only
    rw [if_neg he, take_append_of_lt hlt s]
    exact h

/-- A delimiter does not stand inside `9=`: found that early, it is all there is. -/
theorem eq_singleton_of_findIdx? {e : ℕ} (h9 : ¬ (2 ≤ b.length ∧ b.take 2 ≠ [57, EQ]))
    (hsoh : b.findIdx? (· == SOH) = some e) (he : e < 2) : b = [SOH] := by
  rcases b with _ | ⟨x, _ | ⟨y, b⟩⟩
  · cases hsoh
  · by_cases hx : x = SOH
    · rw [hx]
    · simp [hx] at hsoh
  · obtain ⟨rfl, rfl⟩ : x = 57 ∧ y = EQ := by simpa using h9
    rw [List.findIdx?_cons, List.findIdx?_cons] at hsoh
    simp [EQ, SOH] at hsoh
    omega

/-- A BodyLength that was refused is refused however the buffer is extended. -/
theorem readBodyLength_fails_append (h : (readBodyLength b).Fails) (s : List UInt8) :
    (readBodyLength (b ++ s)).Fails := by
  by_cases h9 : 2 ≤ b.length ∧ b.take 2 ≠ [57, EQ]
  · have h9' : 2 ≤ (b ++ s).length ∧ (b ++ s).take 2 ≠ [57, EQ] := by
      rw [List.take_append_of_le_length h9.1, List.length_append]
      exact ⟨by omega, h9.2⟩
    unfold readBodyLength
    rw [if_pos h9']
    exact Outcome.fails_err _
  rcases hsoh : b.findIdx? (· == SOH) with _ | e
  · -- nothing refused yet
    unfold readBodyLength at h
    rw [if_neg h9, hsoh] at h
    exact absurd h (Outcome.not_fails_ok none)
  by_cases he : e < 2
  · -- the only way into the panic; one more byte and tag 9 is refused as malformed
    obtain rfl := eq_singleton_of_findIdx? h9 hsoh he
    rcases s with _ | ⟨y, s⟩
    · exact h
    · unfold readBodyLength
      rw [if_pos (by simp [SOH])]
      exact Outcome.fails_err _
  · have hlt := lt_of_findIdx? hsoh
    have h9' : ¬ (2 ≤ (b ++ s).length ∧ (b ++ s).take 2 ≠ [57, EQ]) := by
      rw [List.take_append_of_le_length (by omega)]
      exact fun hc => h9 ⟨by omega, hc.2⟩
    unfold readBodyLength at h ⊢
    rw [if_neg h9, hsoh] at h
    rw [if_neg h9', findIdx?_append_of_some hsoh s]
    dsimp only at h ⊢
    rw [if_neg he] at h ⊢
    rw [take_append_of_lt hlt s]
    exact h

theorem readHeader_append {p : ℕ × ℕ} (h : readHeader b = .ok (some p)) (s : List UInt8) :
    readHeader (b ++ s) = .ok (some p) := by
  unfold readHeader at h ⊢
  split_ifs at h with hlen h8
  · cases h
  rcases hsoh : b.findIdx? (· == SOH) with _ | e <;> rw [hsoh] at h
  · cases h
  · have hlt := lt_of_findIdx? hsoh
    rw [if_neg (by rw [List.length_append]; omega),
      if_neg (by rw [List.take_append_of_le_length (by omega)]; exact h8),
      findIdx?_append_of_some hsoh s]
    dsimp only at h ⊢
    rw [List.drop_append_of_le_length hlt]
    rcases hr : readBodyLength (b.drop (e + 1)) with _ | _ | _ <;> rw [hr] at h
    · rename_i tag9
      rcases tag9 with _ | q
      · cases h
      · rw [readBodyLength_append hr s]
        exact h
    · cases h
    · cases h

theorem readHeader_fails_append (h : (readHeader b).Fails) (s : List UInt8) :
    (readHeader (b ++ s)).Fails := by
  unfold readHeader at h ⊢
  by_cases hlen : b.length < 2
  · rw [if_pos hlen] at h
    exact absurd h (Outcome.not_fails_ok none)
  rw [if_neg hlen] at h
  rw [if_neg (by rw [List.length_append]; omega), List.take_append_of_le_length (by omega)]
  by_cases h8 : b.take 2 ≠ [56, EQ]
  · rw [if_pos h8]
    exact Outcome.fails_err _
  rw [if_neg h8] at h ⊢
  rcases hsoh : b.findIdx? (· == SOH) with _ | e <;> rw [hsoh] at h
  · exact absurd h (Outcome.not_fails_ok none)
  · rw [findIdx?_append_of_some hsoh s]
    dsimp only at h ⊢
    rw [List.drop_append_of_le_length (lt_of_findIdx? hsoh)]
    have hrest : (readBodyLength (b.drop (e + 1))).Fails := by
      intro o ho
      rw [ho] at h
      exact Outcome.not_fails_ok _ h
    exact (readBodyLength_fails_append hrest s).bind _

/-! ## The framer -/

/-- The length a header announces. -/
def totalLength (build : Build) (header : ℕ × ℕ) : Outcome ParseError ℕ :=
  (usizeAdd build header.1 header.2).bind fun n => usizeAdd build n 7

theorem findCompleteMessage_of_fails (build : Build) (h : (readHeader b).Fails) :
    (findCompleteMessage build b).Fails := h.bind _

theorem findCompleteMessage_of_none (h : readHeader b = .ok none) :
    findCompleteMessage build b = .ok none := by
  unfold findCompleteMessage
  rw [h]
  rfl

theorem findCompleteMessage_of_some {header : ℕ × ℕ} (h : readHeader b = .ok (some header)) :
    findCompleteMessage build b = (totalLength build header).map fun totalLen =>
      if b.length < totalLen then none else some totalLen := by
  unfold findCompleteMessage totalLength
  rw [h]
  obtain ⟨headerLen, bodyLength⟩ := header
  dsimp only [Outcome.ok_bind]
  rcases usizeAdd build headerLen bodyLength with n | _ | _ <;> rfl

/-- What a look at the buffer means to a caller that loops on `Ok(Some(len))`. -/
def verdict : Outcome ParseError (Option ℕ) → Verdict
  | .ok none => .wait
  | .ok (some n) => .frame n
  | .err _ => .stuck
  | .panic => .stuck

theorem verdict_eq_stuck_iff {x : Outcome ParseError (Option ℕ)} :
    verdict x = .stuck ↔ x.Fails := by
  rcases x with (_ | n) | e | _
  · exact iff_of_false (fun h => by cases h) (Outcome.not_fails_ok _)
  · exact iff_of_false (fun h => by cases h) (Outcome.not_fails_ok _)
  · exact iff_of_true rfl (Outcome.fails_err e)
  · exact iff_of_true rfl Outcome.fails_panic

theorem verdict_eq_frame_iff {x : Outcome ParseError (Option ℕ)} {n : ℕ} :
    verdict x = .frame n ↔ x = .ok (some n) := by
  rcases x with (_ | m) | e | _ <;> simp [verdict]

/-- A message found: its header announces a length that the buffer holds. -/
theorem findCompleteMessage_eq_some_iff {n : ℕ} :
    findCompleteMessage build b = .ok (some n) ↔
      ∃ header, readHeader b = .ok (some header) ∧ totalLength build header = .ok n ∧
        n ≤ b.length := by
  rcases hr : readHeader b with (_ | header) | e | _
  · rw [findCompleteMessage_of_none hr]
    simp
  · rw [findCompleteMessage_of_some hr]
    rcases ht : totalLength build header with m | _ | _
    · by_cases hlt : b.length < m
      · simp [hlt, ht]
        omega
      · simp [hlt, ht]
        omega
    · simp [ht]
    · simp [ht]
  · have hfails := findCompleteMessage_of_fails build (hr ▸ Outcome.fails_err e)
    simp [hfails (some n)]
  · have hfails := findCompleteMessage_of_fails build (hr ▸ Outcome.fails_panic)
    simp [hfails (some n)]

theorem findCompleteMessage_append {n : ℕ} (h : findCompleteMessage build b = .ok (some n))
    (s : List UInt8) : findCompleteMessage build (b ++ s) = .ok (some n) := by
  obtain ⟨header, hr, ht, hle⟩ := findCompleteMessage_eq_some_iff.mp h
  refine findCompleteMessage_eq_some_iff.mpr ⟨header, readHeader_append hr s, ht, ?_⟩
  rw [List.length_append]
  omega

theorem findCompleteMessage_fails_append (h : (findCompleteMessage build b).Fails)
    (s : List UInt8) : (findCompleteMessage build (b ++ s)).Fails := by
  rcases hr : readHeader b with (_ | header) | e | _
  · rw [findCompleteMessage_of_none hr] at h
    exact absurd h (Outcome.not_fails_ok none)
  · -- only the sum can have failed, and it does not look at the buffer
    rw [findCompleteMessage_of_some hr] at h
    rw [findCompleteMessage_of_some (readHeader_append hr s)]
    rcases ht : totalLength build header with m | _ | _ <;> rw [ht] at h
    · exact absurd h (Outcome.not_fails_ok _)
    · exact Outcome.fails_err _
    · exact Outcome.fails_panic
  · exact findCompleteMessage_of_fails build (readHeader_fails_append (hr ▸ Outcome.fails_err e) s)
  · exact findCompleteMessage_of_fails build (readHeader_fails_append (hr ▸ Outcome.fails_panic) s)

/-- **Prefix stability**: `find_complete_message` is a framer. -/
def framer (build : Build) : Framer UInt8 where
  look b := verdict (findCompleteMessage build b)
  frame_le := by
    intro b n h
    obtain ⟨-, -, -, hle⟩ := findCompleteMessage_eq_some_iff.mp (verdict_eq_frame_iff.mp h)
    exact hle
  frame_append := fun s h =>
    verdict_eq_frame_iff.mpr (findCompleteMessage_append (verdict_eq_frame_iff.mp h) s)
  stuck_append := fun s h =>
    verdict_eq_stuck_iff.mpr (findCompleteMessage_fails_append (verdict_eq_stuck_iff.mp h) s)

/-- No frame is found in fewer than two bytes. -/
theorem findCompleteMessage_nil (build : Build) : findCompleteMessage build [] = .ok none := rfl

/-! ## Headers that do not overflow -/

/-- `header_len + body_length + 7` fits for the header at the front, if there is one. -/
def Fits (b : List UInt8) : Prop :=
  ∀ header, readHeader b = .ok (some header) → header.1 + header.2 + 7 < 2 ^ 64

theorem totalLength_of_fits (build : Build) {header : ℕ × ℕ}
    (h : header.1 + header.2 + 7 < 2 ^ 64) :
    totalLength build header = .ok (header.1 + header.2 + 7) := by
  unfold totalLength usizeAdd
  rw [if_pos (by omega), Outcome.ok_bind, if_pos h]

theorem pos_of_fits {n : ℕ} (hfits : Fits b) (h : findCompleteMessage build b = .ok (some n)) :
    0 < n := by
  obtain ⟨header, hr, ht, -⟩ := findCompleteMessage_eq_some_iff.mp h
  rw [totalLength_of_fits build (hfits header hr)] at ht
  cases ht
  omega

/-! ## What `set_field` writes is found whole -/

theorem notMem_tag {x : UInt8} {v : List UInt8} (hx : x ≠ SOH) (h : SOH ∉ v) :
    SOH ∉ [x, EQ] ++ v := by
  simp [hx.symm, h, show SOH ≠ EQ by decide]

theorem readBodyLength_of_digits {ds : List UInt8} {n : ℕ} (hds : SOH ∉ ds)
    (hn : Decimal.parse (2 ^ 64) ds = some n) (more : List UInt8) :
    readBodyLength ([57, EQ] ++ ds ++ SOH :: more) = .ok (some (ds.length + 2, n)) := by
  unfold readBodyLength
  rw [if_neg (by simp), findIdx?_delimiter (notMem_tag (by decide) hds)]
  dsimp only
  rw [if_neg (by simp), List.take_left, show ([57, EQ] ++ ds).drop 2 = ds from rfl, hn]
  simp

theorem readHeader_of_begin {v : List UInt8} (hv : SOH ∉ v) (rest : List UInt8) :
    readHeader ([56, EQ] ++ v ++ SOH :: rest) =
      (readBodyLength rest).map fun tag9 => tag9.map fun p => (v.length + 3 + p.1 + 1, p.2) := by
  unfold readHeader
  rw [if_neg (by simp), if_neg (by simp), findIdx?_delimiter (notMem_tag (by decide) hv)]
  dsimp only
  rw [← List.drop_drop, List.drop_left]
  simp

theorem readHeader_encoded {beginString body : List UInt8} (hbegin : SOH ∉ beginString)
    (hbody : body.length < 2 ^ 64) (more : List UInt8) :
    readHeader (encodeUpToChecksum beginString body ++ more) =
      .ok (some ((encodeUpToChecksum beginString body).length - body.length, body.length)) := by
  have hshape : encodeUpToChecksum beginString body ++ more = [56, EQ] ++ beginString ++ SOH ::
      ([57, EQ] ++ Decimal.print body.length ++ SOH :: (body ++ more)) := by
    simp [encodeUpToChecksum]
  rw [hshape, readHeader_of_begin hbegin, readBodyLength_of_digits
    (Lib.Decimal.notMem_print (by decide)) (Lib.Decimal.parse_print hbody)]
  simp [encodeUpToChecksum]
  omega

/-- **A rewritten message is one frame**, in both build profiles. -/
theorem findCompleteMessage_encoded (build : Build) {beginString body : List UInt8}
    (hbegin : SOH ∉ beginString)
    (hlen : (encodeUpToChecksum beginString body).length + 7 < 2 ^ 64) :
    findCompleteMessage build (encodeUpToChecksum beginString body ++
        encodeChecksum (encodeUpToChecksum beginString body)) =
      .ok (some ((encodeUpToChecksum beginString body).length + 7)) := by
  have hle : body.length ≤ (encodeUpToChecksum beginString body).length := by
    simp [encodeUpToChecksum]
    omega
  refine findCompleteMessage_eq_some_iff.mpr ⟨_, readHeader_encoded hbegin (by omega) _, ?_, ?_⟩
  · rw [totalLength_of_fits build (by dsimp only; omega)]
    dsimp only
    congr 1
    omega
  · rw [List.length_append, length_encodeChecksum]

theorem findCompleteMessage_setField (build : Build) {m out newValue : List UInt8} {tag : ℕ}
    (h : setField m tag newValue = .ok out) (hlen : out.length < 2 ^ 64) :
    findCompleteMessage build out = .ok (some out.length) := by
  unfold setField at h
  rcases hp : parse m with e | parsed <;> rw [hp] at h
  · cases h
  · dsimp only at h
    rcases hget : parsed.get 8 with _ | beginString <;> rw [hget] at h
    · cases h
    · cases h
      rw [List.length_append, length_encodeChecksum] at hlen ⊢
      exact findCompleteMessage_encoded build (notMem_value_of_parse hp hget) hlen

/-! ## A framed message has its tag 8 -/

theorem parseField_begin (first : List UInt8) :
    parseField (56 :: EQ :: first) = .ok (8, first) := by
  have h8 : Decimal.print 8 = [56] := by decide
  have hprint : parseField (Decimal.print 8 ++ EQ :: first) = .ok (8, first) :=
    parseField_print (by decide) first
  rwa [h8] at hprint

/-- The first field of a message that starts with `8=`. -/
theorem head?_fields_of_begin {rest : List UInt8} {parsed : FixMessage}
    (hp : parse (56 :: EQ :: rest) = .ok parsed) :
    parsed.fields.head? = some (8, rest.takeWhile (· != SOH)) := by
  have hfields := parse_eq_ok hp
  obtain ⟨others, hsplit⟩ := splitOn_eq_takeWhile (56 :: EQ :: rest)
  rw [hsplit, List.takeWhile_cons_of_pos (by decide), List.takeWhile_cons_of_pos (by decide)]
    at hfields
  rcases parseFields_cons_ok hfields with ⟨hnil, -⟩ | ⟨-, p, ps, hparsed, -, hps⟩
  · cases hnil
  · rw [parseField_begin] at hparsed
    cases hparsed
    rw [hps, List.head?_cons]

theorem get_of_head? {parsed : FixMessage} {tag : ℕ} {value : List UInt8}
    (h : parsed.fields.head? = some (tag, value)) : parsed.get tag = some value := by
  obtain ⟨rest, hfields⟩ := List.head?_eq_some_iff.mp h
  simp [FixMessage.get, hfields]

theorem begin_of_found {n : ℕ} (h : findCompleteMessage build b = .ok (some n)) :
    ∃ rest, b = 56 :: EQ :: rest := by
  obtain ⟨header, hr, -, -⟩ := findCompleteMessage_eq_some_iff.mp h
  unfold readHeader at hr
  split_ifs at hr with hlen h8
  · cases hr
  · refine ⟨b.drop 2, ?_⟩
    conv_lhs => rw [← List.take_append_drop 2 b, not_not.mp h8]
    rfl

/-- However short a framed message is cut, it parses only with its `8=`. -/
theorem begin_of_take_found {n k : ℕ} {parsed : FixMessage}
    (h : findCompleteMessage build b = .ok (some n)) (hp : parse (b.take k) = .ok parsed) :
    ∃ rest, b.take k = 56 :: EQ :: rest := by
  obtain ⟨rest, rfl⟩ := begin_of_found h
  match k with
  | 0 => cases hp
  | 1 =>
    have herr : parse [56] = .error .malformedTag := by decide
    rw [show (56 :: EQ :: rest).take 1 = [56] from rfl, herr] at hp
    cases hp
  | k + 2 => exact ⟨rest.take k, rfl⟩

/-- `framing.rs guarantees it`: a framed message that parses has a tag 8. -/
theorem get_begin_of_found {m : List UInt8} {n : ℕ} {parsed : FixMessage}
    (h : findCompleteMessage build m = .ok (some n)) (hp : parse m = .ok parsed) :
    ∃ beginString, parsed.get 8 = some beginString := by
  obtain ⟨rest, rfl⟩ := begin_of_found h
  exact ⟨_, get_of_head? (head?_fields_of_begin hp)⟩

/-- `set_field` does not meet its `expect` if the message that it parses has a tag 8. -/
theorem setField_ne_panic {m : List UInt8}
    (h : ∀ parsed, parse m = .ok parsed → ∃ beginString, parsed.get 8 = some beginString)
    (tag : ℕ) (newValue : List UInt8) : setField m tag newValue ≠ .panic := by
  unfold setField
  rcases hp : parse m with e | parsed
  · exact fun hc => by cases hc
  · obtain ⟨beginString, hget⟩ := h parsed hp
    dsimp only
    rw [hget]
    exact fun hc => by cases hc

end Blackswan.Fix
