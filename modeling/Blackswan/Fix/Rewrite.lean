import Blackswan.Fix.Header

/-!
# Rewriting a message

`set_field` parses a message, replaces values and writes the message again. `wire` is the wire form
of a list of fields, and `overwrite` what a replacement does to the list.

1. `parse_wire`: parsing the wire form of well-formed fields gives them back.
2. `setField_eq`: `set_field` writes the wire form of the overwritten fields between a new header
   and a new checksum, whatever the old ones were.
3. So a rewritten message is a frame (`setField_self_consistent`), parses as the overwritten fields
   (`parse_setField`), and rewriting composes as overwriting does (`setField_overwrites`).
-/

namespace Blackswan.Fix

open Lib (Outcome Decimal.parse Decimal.print Decimal.isDigit Decimal.value)

variable {build : Build} {b v beginString : List UInt8} {m : FixMessage} {tag : ℕ}
  {fields : List (ℕ × List UInt8)}

/-! ## Fields on the wire -/

/-- `tag=value|`. -/
def fieldBytes (field : ℕ × List UInt8) : List UInt8 :=
  Decimal.print field.1 ++ [EQ] ++ field.2 ++ [SOH]

def wire (fields : List (ℕ × List UInt8)) : List UInt8 := fields.flatMap fieldBytes

/-- The tag is a `u32` and no delimiter stands in the value. -/
def WellFormedField (field : ℕ × List UInt8) : Prop := field.1 < 2 ^ 32 ∧ SOH ∉ field.2

theorem lt_of_parseField {field : List UInt8} {p : ℕ × List UInt8} (h : parseField field = .ok p) :
    p.1 < 2 ^ 32 := by
  unfold parseField at h
  split at h
  · cases h
  · split at h
    · cases h
    case h_2 hparse =>
      cases h
      exact (Lib.Decimal.lt_of_parse hparse).1

/-- Parsed fields are well formed. -/
theorem wellFormedField_of_parse (h : parse b = .ok m) : ∀ p ∈ m.fields, WellFormedField p := by
  intro p hp
  obtain ⟨piece, -, hparsed⟩ := exists_piece_of_mem (parse_eq_ok h) hp
  exact ⟨lt_of_parseField hparsed, notMem_of_mem_fields h hp⟩

/-- The first piece of a message that starts with a field. -/
theorem splitOn_fieldBytes {field : ℕ × List UInt8} (h : SOH ∉ field.2) (rest : List UInt8) :
    (fieldBytes field ++ rest).splitOn SOH =
      (Decimal.print field.1 ++ EQ :: field.2) :: rest.splitOn SOH := by
  have hpiece : SOH ∉ Decimal.print field.1 ++ EQ :: field.2 := by
    rw [List.mem_append, List.mem_cons, not_or, not_or]
    exact ⟨Lib.Decimal.notMem_print (by decide), by decide, h⟩
  rw [← List.splitOn_append_cons_self_of_not_mem hpiece]
  simp [fieldBytes]

/-- One field after the other; the last delimiter leaves an empty piece, which is skipped. -/
theorem parseFields_wire (h : ∀ f ∈ fields, WellFormedField f) :
    parseFields ((wire fields).splitOn SOH) = .ok fields := by
  induction fields with
  | nil => rfl
  | cons field fields ih =>
    rw [List.forall_mem_cons] at h
    rw [wire, List.flatMap_cons, splitOn_fieldBytes h.1.2, parseFields,
      if_neg (by simp [Lib.Decimal.print_ne_nil]), parseField_print h.1.1]
    dsimp only
    rw [show parseFields ((fields.flatMap fieldBytes).splitOn SOH) = .ok fields from ih h.2]

/-- **Decode after encode.** -/
theorem parse_wire (hne : fields ≠ []) (h : ∀ f ∈ fields, WellFormedField f) :
    parse (wire fields) = .ok ⟨fields⟩ := by
  obtain ⟨field, rest, rfl⟩ := List.exists_cons_of_ne_nil hne
  unfold parse
  rw [if_neg (by simp [wire, fieldBytes]), parseFields_wire h]

/-! ## Overwriting a list of fields -/

/-- The tags that `set_field` writes itself. -/
def IsStructural (tag : ℕ) : Prop := tag = 8 ∨ tag = 9 ∨ tag = 10

instance (tag : ℕ) : Decidable (IsStructural tag) :=
  inferInstanceAs (Decidable (tag = 8 ∨ tag = 9 ∨ tag = 10))

/-- The other fields in their order, with a new value wherever the tag is `tag`. -/
def overwrite (tag : ℕ) (newValue : List UInt8) (fields : List (ℕ × List UInt8)) :
    List (ℕ × List UInt8) :=
  (fields.filter fun field => !decide (IsStructural field.1)).map fun field =>
    (field.1, if field.1 = tag then newValue else field.2)

theorem overwrite_append (tag : ℕ) (v : List UInt8) (fields more : List (ℕ × List UInt8)) :
    overwrite tag v (fields ++ more) = overwrite tag v fields ++ overwrite tag v more := by
  rw [overwrite, List.filter_append, List.map_append]
  rfl

theorem overwrite_cons (tag : ℕ) (v : List UInt8) (field : ℕ × List UInt8)
    (fields : List (ℕ × List UInt8)) :
    overwrite tag v (field :: fields) = overwrite tag v [field] ++ overwrite tag v fields :=
  overwrite_append tag v [field] fields

/-- Two overwrites in one pass; the second decides first. -/
theorem overwrite_overwrite (tag₁ tag₂ : ℕ) (v₁ v₂ : List UInt8)
    (fields : List (ℕ × List UInt8)) :
    overwrite tag₂ v₂ (overwrite tag₁ v₁ fields) =
      (fields.filter fun field => !decide (IsStructural field.1)).map fun field =>
        (field.1, if field.1 = tag₂ then v₂ else if field.1 = tag₁ then v₁ else field.2) := by
  rw [overwrite, overwrite, List.filter_map, List.map_map, List.filter_filter]
  simp only [Function.comp_def, Bool.and_self]

theorem overwrite_same (tag : ℕ) (v₁ v₂ : List UInt8) (fields : List (ℕ × List UInt8)) :
    overwrite tag v₂ (overwrite tag v₁ fields) = overwrite tag v₂ fields := by
  rw [overwrite_overwrite, overwrite]
  apply List.map_congr_left
  intro field _
  by_cases h : field.1 = tag
  · rw [if_pos h, if_pos h]
  · rw [if_neg h, if_neg h, if_neg h]

theorem overwrite_comm {tag₁ tag₂ : ℕ} (hne : tag₁ ≠ tag₂) (v₁ v₂ : List UInt8)
    (fields : List (ℕ × List UInt8)) :
    overwrite tag₂ v₂ (overwrite tag₁ v₁ fields) =
      overwrite tag₁ v₁ (overwrite tag₂ v₂ fields) := by
  rw [overwrite_overwrite, overwrite_overwrite]
  apply List.map_congr_left
  intro field _
  by_cases h : field.1 = tag₂
  · rw [if_pos h, if_pos h, if_neg fun h₁ => hne (h₁.symm.trans h)]
  · rw [if_neg h, if_neg h]

/-- Nothing is left to overwrite under a structural tag. -/
theorem overwrite_structural {tag : ℕ} (htag : IsStructural tag) (tag₁ : ℕ) (v v₁ : List UInt8)
    (fields : List (ℕ × List UInt8)) :
    overwrite tag v (overwrite tag₁ v₁ fields) = overwrite tag₁ v₁ fields := by
  rw [overwrite_overwrite, overwrite]
  apply List.map_congr_left
  intro field hfield
  have hother : ¬ IsStructural field.1 := by
    simpa using (List.mem_filter.mp hfield).2
  have hne : field.1 ≠ tag := by
    rintro rfl
    exact hother htag
  rw [if_neg hne]

theorem wellFormedField_overwrite (hv : SOH ∉ v) (h : ∀ f ∈ fields, WellFormedField f) (tag : ℕ) :
    ∀ f ∈ overwrite tag v fields, WellFormedField f := by
  intro f hf
  obtain ⟨field, hfield, rfl⟩ := List.mem_map.mp hf
  obtain ⟨htag, hvalue⟩ := h field (List.mem_of_mem_filter hfield)
  refine ⟨htag, ?_⟩
  dsimp only
  split_ifs
  · exact hv
  · exact hvalue

/-! ## What `set_field` writes -/

/-- The fields of a rewritten message around those of its body. -/
def written (beginString : List UInt8) (body : List (ℕ × List UInt8)) : List (ℕ × List UInt8) :=
  (8, beginString) :: (9, Decimal.print (wire body).length) :: (body ++
    [(10, formatChecksum (computeChecksum (encodeUpToChecksum beginString (wire body))))])

theorem flatMap_encodeField (tag : ℕ) (v : List UInt8) (fields : List (ℕ × List UInt8)) :
    fields.flatMap (encodeField tag v) = wire (overwrite tag v fields) := by
  induction fields with
  | nil => rfl
  | cons field fields ih =>
    rw [List.flatMap_cons, ih, overwrite_cons, wire, wire, List.flatMap_append]
    congr 1
    by_cases h : IsStructural field.1
    · rw [encodeField, if_pos (show field.1 = 8 ∨ field.1 = 9 ∨ field.1 = 10 from h)]
      simp [overwrite, h]
    · rw [encodeField, if_neg (show ¬ (field.1 = 8 ∨ field.1 = 9 ∨ field.1 = 10) from h)]
      simp [overwrite, h, fieldBytes]

theorem wire_written (beginString : List UInt8) (body : List (ℕ × List UInt8)) :
    wire (written beginString body) = encodeUpToChecksum beginString (wire body) ++
      encodeChecksum (encodeUpToChecksum beginString (wire body)) := by
  have h8 : Decimal.print 8 = [56] := by decide
  have h9 : Decimal.print 9 = [57] := by decide
  have h10 : Decimal.print 10 = [49, 48] := by decide
  simp [wire, written, fieldBytes, encodeUpToChecksum, encodeChecksum, h8, h9, h10]

/-- **The rewritten message.** Its bytes depend on the fields that were parsed and on nothing else
of the old message. -/
theorem setField_eq (hp : parse b = .ok m) (hget : m.get 8 = some beginString) (tag : ℕ)
    (v : List UInt8) :
    setField b tag v = .ok (wire (written beginString (overwrite tag v m.fields))) := by
  unfold setField
  rw [hp]
  dsimp only
  rw [hget]
  dsimp only
  rw [flatMap_encodeField, wire_written]

theorem parse_written (hbegin : SOH ∉ beginString) (h : ∀ f ∈ fields, WellFormedField f) :
    parse (wire (written beginString fields)) = .ok ⟨written beginString fields⟩ := by
  apply parse_wire (List.cons_ne_nil _ _)
  have hchecksum (n : ℕ) : SOH ∉ Lib.Decimal.print3 n := fun hmem =>
    absurd (Lib.Decimal.isDigit_of_mem_print3 hmem) (by decide)
  intro f hf
  simp only [List.mem_cons, List.mem_append, List.not_mem_nil, or_false] at hf
  rcases hf with rfl | rfl | hf | rfl
  · exact ⟨show 8 < 2 ^ 32 by decide, hbegin⟩
  · exact ⟨show 9 < 2 ^ 32 by decide, Lib.Decimal.notMem_print (by decide)⟩
  · exact h f hf
  · exact ⟨show 10 < 2 ^ 32 by decide, hchecksum _⟩

theorem overwrite_written (tag : ℕ) (v beginString : List UInt8)
    (body : List (ℕ × List UInt8)) :
    overwrite tag v (written beginString body) = overwrite tag v body := by
  rw [written, overwrite_cons, overwrite_cons tag v (9, _), overwrite_append]
  simp [overwrite, IsStructural]

/-- Rewriting a rewritten message overwrites its fields once more. -/
theorem setField_written (hbegin : SOH ∉ beginString) (h : ∀ f ∈ fields, WellFormedField f)
    (tag : ℕ) (v : List UInt8) :
    setField (wire (written beginString fields)) tag v =
      .ok (wire (written beginString (overwrite tag v fields))) := by
  rw [setField_eq (parse_written hbegin h) rfl, overwrite_written]

/-! ## A rewritten message is a frame -/

theorem encodeUpToChecksum_eq (beginString body : List UInt8) :
    encodeUpToChecksum beginString body =
      headerBytes beginString (Decimal.print body.length) ++ body := by
  simp [encodeUpToChecksum, headerBytes]

theorem hasHeader_encoded (hbegin : SOH ∉ beginString) {body : List UInt8}
    (hbody : body.length < 2 ^ 64) (more : List UInt8) :
    HasHeader (encodeUpToChecksum beginString body ++ more) beginString
      (Decimal.print body.length) (body ++ more) body.length where
  bytes := by rw [encodeUpToChecksum_eq, List.append_assoc]
  beginString := hbegin
  digits := Lib.Decimal.notMem_print (by decide)
  bodyLength := Lib.Decimal.parse_print hbody

theorem getLast?_headerBytes (v ds : List UInt8) : (headerBytes v ds).getLast? = some SOH := by
  have hlast : headerBytes v ds = [56, EQ] ++ v ++ SOH :: ([57, EQ] ++ ds) ++ [SOH] := by
    simp [headerBytes]
  rw [hlast, List.getLast?_concat]

theorem getLast?_wire (hne : fields ≠ []) : (wire fields).getLast? = some SOH := by
  rcases List.eq_nil_or_concat fields with rfl | ⟨init, last, rfl⟩
  · exact absurd rfl hne
  · rw [List.concat_eq_append, wire, List.flatMap_append, List.flatMap_singleton, fieldBytes,
      ← List.append_assoc, List.getLast?_concat]

/-- Every byte before the checksum field belongs to a delimited field, whatever the values are. -/
theorem getLast?_encoded (beginString : List UInt8) (body : List (ℕ × List UInt8)) :
    (encodeUpToChecksum beginString (wire body)).getLast? = some SOH := by
  rw [encodeUpToChecksum_eq, List.getLast?_append]
  by_cases hbody : body = []
  · subst hbody
    exact getLast?_headerBytes _ _
  · rw [getLast?_wire hbody]
    rfl

theorem isTrailer_encodeChecksum {full : List UInt8} (h : full.getLast? = some SOH) :
    IsTrailer full (encodeChecksum full) where
  checksum := by
    refine ⟨formatChecksum (computeChecksum full), rfl, rfl, ?_, ?_⟩
    · intro d hd
      exact Lib.Decimal.isDigit_of_mem_print3 hd
    · have hlt : (computeChecksum full).toNat < 256 := (computeChecksum full).toNat_lt
      exact Lib.Decimal.value_print3 (by omega)
  delimiter := h

/-- **A rewritten message is a frame.** The framer takes it whole whatever follows it, the header
declares the bytes before the checksum field, and the checksum is that of what stands before it. -/
theorem setField_self_consistent (hp : parse b = .ok m) (hget : m.get 8 = some beginString)
    (tag : ℕ) (v : List UInt8) :
    ∃ out, setField b tag v = .ok out ∧ (out.length < 2 ^ 64 →
      (∀ build s, findCompleteMessage build (out ++ s) = .ok (some out.length)) ∧
      ∃ ds body trailer, HasHeader out beginString ds (body ++ trailer) body.length ∧
        IsTrailer (headerBytes beginString ds ++ body) trailer) := by
  have hset := setField_eq hp hget tag v
  refine ⟨_, hset, fun hlen => ⟨fun build s => ?_, ?_⟩⟩
  · exact findCompleteMessage_append (findCompleteMessage_setField build hset hlen) s
  · have hbegin := notMem_value_of_parse hp hget
    rw [wire_written] at hlen ⊢
    generalize hbody : wire (overwrite tag v m.fields) = body at hlen ⊢
    have hshort : body.length < 2 ^ 64 := by
      rw [encodeUpToChecksum_eq, List.length_append, List.length_append] at hlen
      omega
    refine ⟨_, body, _, hasHeader_encoded hbegin hshort _, ?_⟩
    rw [← encodeUpToChecksum_eq, ← hbody]
    exact isTrailer_encodeChecksum (getLast?_encoded _ _)

/-- `8=F|35=D|38=5|`. -/
def orderMessage : List UInt8 :=
  [56, EQ, 70, SOH, 51, 53, EQ, 68, SOH, 51, 56, EQ, 53, SOH]

theorem parse_orderMessage :
    parse orderMessage = .ok ⟨[(8, [70]), (35, [68]), (38, [53])]⟩ := by decide

/-- A value with a delimiter in it still gives a frame. -/
theorem self_consistent_orderMessage :
    ∃ out, setField orderMessage 38 [49, SOH] = .ok out ∧ out.length < 2 ^ 64 ∧
      (∀ build s, findCompleteMessage build (out ++ s) = .ok (some out.length)) ∧
      ∃ ds body trailer, HasHeader out [70] ds (body ++ trailer) body.length ∧
        IsTrailer (headerBytes [70] ds ++ body) trailer := by
  obtain ⟨out, hout, hframe⟩ := setField_self_consistent parse_orderMessage rfl 38 [49, SOH]
  have hlength : (setField orderMessage 38 [49, SOH]).map List.length = .ok 27 := by decide
  rw [hout] at hlength
  have hlen : out.length < 2 ^ 64 := by
    rw [Outcome.ok.inj hlength]
    decide
  exact ⟨out, hout, hlen, hframe hlen⟩

/-! ## Rewriting as overwriting -/

/-- **Parse after rewrite.** -/
theorem parse_setField (hp : parse b = .ok m) (hget : m.get 8 = some beginString) (tag : ℕ)
    (hv : SOH ∉ v) :
    ∃ out body full, setField b tag v = .ok out ∧ full = encodeUpToChecksum beginString body ∧
      out = full ++ encodeChecksum full ∧
      parse out = .ok ⟨(8, beginString) :: (9, Decimal.print body.length) ::
        (overwrite tag v m.fields ++ [(10, formatChecksum (computeChecksum full))])⟩ := by
  refine ⟨_, wire (overwrite tag v m.fields), _, setField_eq hp hget tag v, rfl,
    wire_written _ _, ?_⟩
  exact parse_written (notMem_value_of_parse hp hget)
    (wellFormedField_overwrite hv (wellFormedField_of_parse hp) tag)

theorem parse_setField_orderMessage :
    SOH ∉ ([49, 50] : List UInt8) ∧
    ∃ out body full, setField orderMessage 38 [49, 50] = .ok out ∧
      full = encodeUpToChecksum [70] body ∧ out = full ++ encodeChecksum full ∧
      parse out = .ok ⟨(8, [70]) :: (9, Decimal.print body.length) ::
        (overwrite 38 [49, 50] [(8, [70]), (35, [68]), (38, [53])] ++
          [(10, formatChecksum (computeChecksum full))])⟩ :=
  ⟨by decide, parse_setField parse_orderMessage rfl 38 (by decide)⟩

/-- Two rewrites are two overwrites of the parsed fields. -/
theorem setField_setField (hp : parse b = .ok m) (hget : m.get 8 = some beginString)
    (tag₁ tag₂ : ℕ) {v₁ : List UInt8} (hv₁ : SOH ∉ v₁) (v₂ : List UInt8) :
    (setField b tag₁ v₁).bind (fun out => setField out tag₂ v₂) =
      .ok (wire (written beginString (overwrite tag₂ v₂ (overwrite tag₁ v₁ m.fields)))) := by
  rw [setField_eq hp hget, Outcome.ok_bind]
  exact setField_written (notMem_value_of_parse hp hget)
    (wellFormedField_overwrite hv₁ (wellFormedField_of_parse hp) tag₁) tag₂ v₂

/-- **Independent overwrites.** The last value of a tag wins, rewrites of different tags commute,
and a structural tag changes nothing, byte for byte. -/
theorem setField_overwrites (hp : parse b = .ok m) (hget : m.get 8 = some beginString) :
    (∀ tag v₁ v₂, SOH ∉ v₁ →
      (setField b tag v₁).bind (fun out => setField out tag v₂) = setField b tag v₂) ∧
    (∀ tag₁ tag₂ v₁ v₂, tag₁ ≠ tag₂ → SOH ∉ v₁ → SOH ∉ v₂ →
      (setField b tag₁ v₁).bind (fun out => setField out tag₂ v₂) =
        (setField b tag₂ v₂).bind fun out => setField out tag₁ v₁) ∧
    ∀ tag₁ tag v₁ v₂, IsStructural tag → SOH ∉ v₁ →
      (setField b tag₁ v₁).bind (fun out => setField out tag v₂) = setField b tag₁ v₁ := by
  refine ⟨fun tag v₁ v₂ hv₁ => ?_, fun tag₁ tag₂ v₁ v₂ hne hv₁ hv₂ => ?_,
    fun tag₁ tag v₁ v₂ htag hv₁ => ?_⟩
  · rw [setField_setField hp hget tag tag hv₁, overwrite_same, setField_eq hp hget]
  · rw [setField_setField hp hget tag₁ tag₂ hv₁, setField_setField hp hget tag₂ tag₁ hv₂,
      overwrite_comm hne]
  · rw [setField_setField hp hget tag₁ tag hv₁, overwrite_structural htag, setField_eq hp hget]

theorem overwrites_orderMessage :
    (setField orderMessage 38 [49]).bind (fun out => setField out 35 [56]) =
      (setField orderMessage 35 [56]).bind fun out => setField out 38 [49] :=
  (setField_overwrites parse_orderMessage rfl).2.1 38 35 [49] [56] (by decide) (by decide)
    (by decide)

/-! ## Canonical messages -/

/-- A message as the encoder would write it: the header with the length of the body, the body, and
a trailer with the checksum of all that. -/
structure IsCanonical (bytes beginString : List UInt8) (body : List (ℕ × List UInt8)) : Prop where
  notMem : SOH ∉ beginString
  fields : ∀ f ∈ body, WellFormedField f ∧ ¬ IsStructural f.1
  encoded : ∃ trailer,
    bytes = headerBytes beginString (Decimal.print (wire body).length) ++ wire body ++ trailer ∧
      IsTrailer (headerBytes beginString (Decimal.print (wire body).length) ++ wire body) trailer

/-- There is one trailer for what stands before it. -/
theorem IsTrailer.eq_encodeChecksum {pre trailer : List UInt8} (h : IsTrailer pre trailer) :
    trailer = encodeChecksum pre := by
  obtain ⟨digits, rfl, hlen, hdigits, hvalue⟩ := h.checksum
  rw [encodeChecksum, formatChecksum, ← hvalue, Lib.Decimal.print3_value hlen hdigits]

theorem IsCanonical.eq_wire {bytes : List UInt8} (h : IsCanonical bytes beginString fields) :
    bytes = wire (written beginString fields) := by
  obtain ⟨trailer, rfl, htrailer⟩ := h.encoded
  rw [htrailer.eq_encodeChecksum, wire_written, encodeUpToChecksum_eq]

theorem overwrite_eq_self (hother : ∀ f ∈ fields, ¬ IsStructural f.1)
    (hv : ∀ f ∈ fields, f.1 = tag → f.2 = v) : overwrite tag v fields = fields := by
  have hfilter : fields.filter (fun field => !decide (IsStructural field.1)) = fields := by
    rw [List.filter_eq_self]
    intro f hf
    simpa using hother f hf
  rw [overwrite, hfilter]
  conv_rhs => rw [← List.map_id fields]
  apply List.map_congr_left
  intro f hf
  by_cases htag : f.1 = tag
  · rw [if_pos htag, ← hv f hf htag]
    rfl
  · rw [if_neg htag]
    rfl

/-- **Encode after decode.** Writing what a canonical message already says gives its bytes back. -/
theorem setField_canonical {bytes : List UInt8} {body : List (ℕ × List UInt8)}
    (h : IsCanonical bytes beginString body) (tag : ℕ) (v : List UInt8)
    (hv : ∀ f ∈ body, f.1 = tag → f.2 = v) : setField bytes tag v = .ok bytes := by
  have hwellFormed : ∀ f ∈ body, WellFormedField f := fun f hf => (h.fields f hf).1
  have hother : ∀ f ∈ body, ¬ IsStructural f.1 := fun f hf => (h.fields f hf).2
  rw [h.eq_wire, setField_written h.notMem hwellFormed, overwrite_eq_self hother hv]

/-- `8=F|9=5|38=5|10=070|`. -/
def canonicalMessage : List UInt8 :=
  [56, EQ, 70, SOH, 57, EQ, 53, SOH, 51, 56, EQ, 53, SOH, 49, 48, EQ, 48, 55, 48, SOH]

theorem isCanonical_canonicalMessage : IsCanonical canonicalMessage [70] [(38, [53])] where
  notMem := by decide
  fields := by
    intro f hf
    rw [List.mem_singleton.mp hf]
    exact ⟨⟨by decide, by decide⟩, by decide⟩
  encoded := by
    refine ⟨[49, 48, EQ, 48, 55, 48, SOH], rfl, ⟨[48, 55, 48], ?_⟩, rfl⟩
    exact ⟨rfl, rfl, List.all_eq_true.mp rfl, rfl⟩

/-- The value it has, and a tag that it does not have. -/
theorem setField_canonicalMessage :
    setField canonicalMessage 38 [53] = .ok canonicalMessage ∧
      setField canonicalMessage 44 [49] = .ok canonicalMessage :=
  ⟨setField_canonical isCanonical_canonicalMessage 38 [53] (by decide),
    setField_canonical isCanonical_canonicalMessage 44 [49] (by decide)⟩

end Blackswan.Fix
