import Blackswan.Fix.Framing

/-!
# What framing accepts and what it refuses

`find_complete_message` reads a header and computes one sum. This module says on which bytes each
of its steps goes wrong:

1. `readHeader_eq_some_iff`: the header it accepts is `8=v|9=ds|` with a numeral `ds`, and nothing
   after that is looked at.
2. `slices_in_bounds_iff`: the one buffer shape on which a slice is out of bounds.
3. `countsExactly_iff`: the sum is exact as long as it stays below `2 ^ 64`.
4. `frames_complete_iff`: what was found is a complete frame if the peer made it one.
-/

namespace Blackswan.Fix

open Lib (Outcome Decimal.parse Decimal.isDigit Decimal.value)

variable {build : Build} {b v ds more : List UInt8} {n : ℕ}

/-! ## Headers -/

/-- `8=v|9=ds|`. -/
def headerBytes (beginString digits : List UInt8) : List UInt8 :=
  [56, EQ] ++ beginString ++ SOH :: ([57, EQ] ++ digits ++ [SOH])

theorem length_headerBytes (v ds : List UInt8) :
    (headerBytes v ds).length = v.length + ds.length + 6 := by
  simp [headerBytes]
  omega

/-- A complete header with its two values, the number that the second one spells, and what comes
after it. -/
structure HasHeader (b v ds more : List UInt8) (n : ℕ) : Prop where
  bytes : b = headerBytes v ds ++ more
  beginString : SOH ∉ v
  digits : SOH ∉ ds
  bodyLength : Decimal.parse (2 ^ 64) ds = some n

theorem readHeader_of_hasHeader (h : HasHeader b v ds more n) :
    readHeader b = .ok (some ((headerBytes v ds).length, n)) := by
  have hshape : b = [56, EQ] ++ v ++ SOH :: ([57, EQ] ++ ds ++ SOH :: more) := by
    rw [h.bytes, headerBytes]
    simp
  rw [hshape, readHeader_of_begin h.beginString, readBodyLength_of_digits h.digits h.bodyLength,
    length_headerBytes]
  simp
  omega

/-- What stands before the first delimiter starts with the two bytes the buffer starts with. -/
theorem exists_tag {x : UInt8} (hx : x ≠ SOH) {l : List UInt8} (htake : l.take 2 = [x, EQ])
    {i : ℕ} (h : l.findIdx? (· == SOH) = some i) :
    ∃ v more, l = [x, EQ] ++ v ++ SOH :: more ∧ SOH ∉ v ∧ i = v.length + 2 := by
  obtain ⟨w, more, rfl, hw, rfl⟩ := exists_delimited h
  rcases w with _ | ⟨y, _ | ⟨z, v⟩⟩
  · exact absurd (List.cons.inj htake).1.symm hx
  · exact absurd (List.cons.inj (List.cons.inj htake).2).1 (by decide)
  · cases htake
    rw [List.mem_cons, List.mem_cons, not_or, not_or] at hw
    exact ⟨v, more, rfl, hw.2.2, rfl⟩

theorem readBodyLength_eq_some {p : ℕ × ℕ} (h : readBodyLength b = .ok (some p)) :
    ∃ ds more, b = [57, EQ] ++ ds ++ SOH :: more ∧ SOH ∉ ds ∧
      Decimal.parse (2 ^ 64) ds = some p.2 := by
  unfold readBodyLength at h
  split_ifs at h with h9
  rcases hsoh : b.findIdx? (· == SOH) with _ | e <;> rw [hsoh] at h
  · cases h
  · dsimp only at h
    split_ifs at h with he
    have hlt := lt_of_findIdx? hsoh
    have htake : b.take 2 = [57, EQ] := not_not.mp fun hc => h9 ⟨by omega, hc⟩
    obtain ⟨ds, more, rfl, hds, rfl⟩ := exists_tag (by decide) htake hsoh
    rw [show ds.length + 2 = ([57, EQ] ++ ds).length by simp, List.take_left,
      show ([57, EQ] ++ ds).drop 2 = ds from rfl] at h
    rcases hn : Decimal.parse (2 ^ 64) ds with _ | n <;> rw [hn] at h
    · cases h
    · cases h
      exact ⟨ds, more, rfl, hds, hn⟩

/-- Either tag 8 is complete, or more has to come, or there is no tag 8. -/
theorem readHeader_cases (b : List UInt8) :
    (∃ v rest, SOH ∉ v ∧ b = [56, EQ] ++ v ++ SOH :: rest) ∨
      readHeader b = .ok none ∨ readHeader b = .err .malformedTag := by
  unfold readHeader
  split_ifs with hlen h8
  · exact Or.inr (Or.inl rfl)
  · exact Or.inr (Or.inr rfl)
  · rcases hsoh : b.findIdx? (· == SOH) with _ | e
    · exact Or.inr (Or.inl rfl)
    · obtain ⟨v, rest, hb, hv, -⟩ := exists_tag (by decide) (not_not.mp h8) hsoh
      exact Or.inl ⟨v, rest, hv, hb⟩

/-- **The headers that are accepted.** -/
theorem readHeader_eq_some_iff {header : ℕ × ℕ} :
    readHeader b = .ok (some header) ↔
      ∃ v ds more, HasHeader b v ds more header.2 ∧ header.1 = (headerBytes v ds).length := by
  constructor
  · intro h
    rcases readHeader_cases b with ⟨v, rest, hv, rfl⟩ | hnone | herr
    · rw [readHeader_of_begin hv] at h
      rcases hr : readBodyLength rest with (_ | ⟨e, n⟩) | _ | _ <;> rw [hr] at h <;> cases h
      obtain ⟨ds, more, rfl, hds, hn⟩ := readBodyLength_eq_some hr
      rw [readBodyLength_of_digits hds hn] at hr
      cases hr
      refine ⟨v, ds, more, ⟨?_, hv, hds, hn⟩, ?_⟩
      · simp [headerBytes]
      · rw [length_headerBytes]
        dsimp only
        omega
    · rw [hnone] at h
      cases h
    · rw [herr] at h
      cases h
  · rintro ⟨v, ds, more, h, hlen⟩
    rw [readHeader_of_hasHeader h, ← hlen]

/-! ## Slices -/

/-- A range taken of a slice: its ends and the length of the slice. -/
structure SliceRange where
  start : ℕ
  stop : ℕ
  length : ℕ
  deriving DecidableEq, Repr

/-- Indexing with the range does not panic. -/
def SliceRange.InBounds (r : SliceRange) : Prop := r.start ≤ r.stop ∧ r.stop ≤ r.length

/-- `rest[2..tag9_end_rel]`, once that far. -/
def restSlices (rest : List UInt8) : List SliceRange :=
  if 2 ≤ rest.length ∧ rest.take 2 ≠ [57, EQ] then []
  else
    match rest.findIdx? (· == SOH) with
    | none => []
    | some tag9EndRel => [⟨2, tag9EndRel, rest.length⟩]

/-- The ranges that `find_complete_message` takes: `buf[tag8_end + 1..]` and then one of `rest`. -/
def slices (buf : List UInt8) : List SliceRange :=
  if buf.length < 2 then []
  else if buf.take 2 ≠ [56, EQ] then []
  else
    match buf.findIdx? (· == SOH) with
    | none => []
    | some tag8End =>
      ⟨tag8End + 1, buf.length, buf.length⟩ :: restSlices (buf.drop (tag8End + 1))

theorem restSlices_inBounds_iff (rest : List UInt8) :
    (∀ r ∈ restSlices rest, r.InBounds) ↔ rest ≠ [SOH] := by
  constructor
  · rintro h rfl
    exact absurd (h ⟨2, 0, 1⟩ List.mem_cons_self).1 (by decide)
  · intro hne r hr
    unfold restSlices at hr
    split_ifs at hr with h9
    · cases hr
    · rcases hsoh : rest.findIdx? (· == SOH) with _ | e <;> rw [hsoh] at hr
      · cases hr
      · rw [List.mem_singleton.mp hr]
        have hlt := lt_of_findIdx? hsoh
        refine ⟨?_, hlt.le⟩
        by_contra he
        exact hne (eq_singleton_of_findIdx? h9 hsoh (Nat.lt_of_not_le he))

theorem readBodyLength_eq_panic_iff (rest : List UInt8) :
    readBodyLength rest = .panic ↔ rest = [SOH] := by
  constructor
  · intro h
    unfold readBodyLength at h
    split_ifs at h with h9
    rcases hsoh : rest.findIdx? (· == SOH) with _ | e <;> rw [hsoh] at h
    · cases h
    · dsimp only at h
      split_ifs at h with he
      · exact eq_singleton_of_findIdx? h9 hsoh he
      · split at h <;> cases h
  · rintro rfl
    decide

/-- The buffer ends with an empty field right after tag 8: `8=v||`. -/
def EmptyTag9 (b : List UInt8) : Prop := ∃ v, SOH ∉ v ∧ b = [56, EQ] ++ v ++ [SOH, SOH]

theorem slices_of_begin (hv : SOH ∉ v) (rest : List UInt8) :
    slices ([56, EQ] ++ v ++ SOH :: rest) =
      ⟨v.length + 3, v.length + 3 + rest.length, v.length + 3 + rest.length⟩ ::
        restSlices rest := by
  unfold slices
  rw [if_neg (by simp), if_neg (by simp), findIdx?_delimiter (notMem_tag (by decide) hv)]
  dsimp only
  rw [← List.drop_drop, List.drop_left]
  simp
  omega

theorem slices_cases (b : List UInt8) :
    (∃ v rest, SOH ∉ v ∧ b = [56, EQ] ++ v ++ SOH :: rest) ∨ slices b = [] := by
  unfold slices
  split_ifs with hlen h8
  · exact Or.inr rfl
  · exact Or.inr rfl
  · rcases hsoh : b.findIdx? (· == SOH) with _ | e
    · exact Or.inr rfl
    · obtain ⟨v, rest, hb, hv, -⟩ := exists_tag (by decide) (not_not.mp h8) hsoh
      exact Or.inl ⟨v, rest, hv, hb⟩

theorem emptyTag9_iff (hv : SOH ∉ v) (rest : List UInt8) :
    EmptyTag9 ([56, EQ] ++ v ++ SOH :: rest) ↔ rest = [SOH] := by
  constructor
  · rintro ⟨v', hv', heq⟩
    have hsplit := congrArg (List.findIdx? (· == SOH)) heq
    rw [findIdx?_delimiter (notMem_tag (by decide) hv), findIdx?_delimiter
      (notMem_tag (by decide) hv'), Option.some.injEq] at hsplit
    have hparts := List.append_inj heq hsplit
    exact (List.cons.inj hparts.2).2
  · rintro rfl
    exact ⟨v, hv, rfl⟩

theorem slices_inBounds_iff (b : List UInt8) :
    (∀ r ∈ slices b, r.InBounds) ↔ ¬ EmptyTag9 b := by
  rcases slices_cases b with ⟨v, rest, hv, rfl⟩ | hnil
  · rw [slices_of_begin hv, emptyTag9_iff hv, List.forall_mem_cons, restSlices_inBounds_iff]
    exact and_iff_right ⟨Nat.le_add_right _ _, le_rfl⟩
  · refine iff_of_true (by rw [hnil]; exact List.forall_mem_nil _) ?_
    rintro ⟨v, hv, rfl⟩
    rw [slices_of_begin hv] at hnil
    cases hnil

theorem readHeader_eq_panic_iff (b : List UInt8) : readHeader b = .panic ↔ EmptyTag9 b := by
  constructor
  · intro h
    rcases readHeader_cases b with ⟨v, rest, hv, rfl⟩ | hnone | herr
    · rw [readHeader_of_begin hv] at h
      rw [emptyTag9_iff hv, ← readBodyLength_eq_panic_iff]
      rcases hr : readBodyLength rest with _ | _ | _ <;> rw [hr] at h <;> cases h
    · rw [hnone] at h
      cases h
    · rw [herr] at h
      cases h
  · rintro ⟨v, hv, rfl⟩
    rw [readHeader_of_begin hv, (readBodyLength_eq_panic_iff [SOH]).mpr rfl]
    rfl

/-! ## The sum -/

theorem usizeAdd_release (a b : ℕ) : usizeAdd .release a b = .ok ((a + b) % 2 ^ 64) := by
  unfold usizeAdd
  split_ifs with h
  · rw [Nat.mod_eq_of_lt h]
  · rfl

/-- In a release build the sum wraps around. -/
theorem totalLength_release (header : ℕ × ℕ) :
    totalLength .release header = .ok ((header.1 + header.2 + 7) % 2 ^ 64) := by
  unfold totalLength
  rw [usizeAdd_release, Outcome.ok_bind, usizeAdd_release, Nat.mod_add_mod]

/-- In a debug build it traps. -/
theorem totalLength_debug {header : ℕ × ℕ} (h : 2 ^ 64 ≤ header.1 + header.2 + 7) :
    totalLength .debug header = .panic := by
  unfold totalLength usizeAdd
  by_cases hfirst : header.1 + header.2 < 2 ^ 64
  · rw [if_pos hfirst, Outcome.ok_bind, if_neg (Nat.not_lt.mpr h)]
  · rw [if_neg hfirst, Outcome.panic_bind]

theorem totalLength_eq_panic_iff {header : ℕ × ℕ} :
    totalLength build header = .panic ↔
      build = .debug ∧ 2 ^ 64 ≤ header.1 + header.2 + 7 := by
  constructor
  · intro h
    rcases build with _ | _
    · refine ⟨rfl, Nat.le_of_not_lt fun hfits => ?_⟩
      rw [totalLength_of_fits .debug hfits] at h
      cases h
    · rw [totalLength_release] at h
      cases h
  · rintro ⟨rfl, h⟩
    exact totalLength_debug h

/-- The only other panic is that of an overflowing sum in a debug build. -/
theorem findCompleteMessage_eq_panic_iff :
    findCompleteMessage build b = .panic ↔ EmptyTag9 b ∨ build = .debug ∧ ¬ Fits b := by
  rw [← readHeader_eq_panic_iff]
  rcases hr : readHeader b with (_ | header) | e | _
  · rw [findCompleteMessage_of_none hr]
    simp [Fits, hr]
  · rw [findCompleteMessage_of_some hr]
    have hfits : ¬ Fits b ↔ 2 ^ 64 ≤ header.1 + header.2 + 7 := by
      simp [Fits, hr]
    rw [hfits, ← totalLength_eq_panic_iff]
    rcases totalLength build header with m | _ | _ <;> simp
  · unfold findCompleteMessage
    simp [hr, Fits]
  · unfold findCompleteMessage
    simp [hr]

/-- **When every slice is in bounds.** On every buffer but those of the form `8=v||`, each range
that `find_complete_message` takes is in bounds, and it does not panic, unless the sum overflows
in a debug build. -/
theorem slices_in_bounds_iff (b : List UInt8) :
    ((∀ r ∈ slices b, r.InBounds) ∧
        ∀ build, findCompleteMessage build b = .panic → build = .debug ∧ ¬ Fits b) ↔
      ¬ ∃ v, SOH ∉ v ∧ b = [56, EQ] ++ v ++ [SOH, SOH] := by
  constructor
  · rintro ⟨hslices, -⟩
    exact (slices_inBounds_iff b).mp hslices
  · intro h
    refine ⟨(slices_inBounds_iff b).mpr h, fun build hpanic => ?_⟩
    exact (findCompleteMessage_eq_panic_iff.mp hpanic).resolve_left h

/-- `8=||`: tag 9 is not looked at while it has only one byte, and then sliced from its second. -/
theorem slice_out_of_bounds :
    findCompleteMessage .release [56, EQ, SOH, SOH] = .panic ∧
      ¬ ∀ r ∈ slices [56, EQ, SOH, SOH], r.InBounds := by
  refine ⟨by decide, fun h => ?_⟩
  exact absurd (h ⟨2, 0, 1⟩ (by decide)).1 (by decide)

/-- The sum for the header at the front, if there is one, stays below `2 ^ 64`. -/
def SumFits (b : List UInt8) : Prop :=
  ∀ v ds more n, HasHeader b v ds more n → (headerBytes v ds).length + n + 7 < 2 ^ 64

theorem fits_iff_sumFits : Fits b ↔ SumFits b := by
  constructor
  · intro h v ds more n hh
    exact h _ (readHeader_of_hasHeader hh)
  · intro h header hr
    obtain ⟨v, ds, more, hh, hlen⟩ := readHeader_eq_some_iff.mp hr
    rw [hlen]
    exact h v ds more header.2 hh

/-- The sum does not trap, and a length that is found is the sum as a natural number, no less than
that of the shortest message and no more than there is. -/
def CountsExactly (b : List UInt8) : Prop :=
  (∀ header, readHeader b = .ok (some header) → totalLength .debug header ≠ .panic) ∧
    ∀ build n, findCompleteMessage build b = .ok (some n) →
      ∃ header, readHeader b = .ok (some header) ∧ n = header.1 + header.2 + 7 ∧
        14 ≤ n ∧ n ≤ b.length

/-- The shortest header is `8=|9=d|`. -/
theorem HasHeader.seven_le (h : HasHeader b v ds more n) : 7 ≤ (headerBytes v ds).length := by
  have hpos := List.length_pos_iff.mpr (Lib.Decimal.lt_of_parse h.bodyLength).2
  rw [length_headerBytes]
  omega

theorem countsExactly_iff : CountsExactly b ↔ SumFits b := by
  rw [← fits_iff_sumFits]
  constructor
  · rintro ⟨htrap, -⟩ header hr
    by_contra hover
    exact htrap header hr (totalLength_debug (Nat.le_of_not_lt hover))
  · intro hfits
    refine ⟨fun header hr htrap => ?_, fun build n hn => ?_⟩
    · have hover := (totalLength_eq_panic_iff.mp htrap).2
      exact absurd (hfits header hr) (Nat.not_lt.mpr hover)
    · obtain ⟨header, hr, htotal, hle⟩ := findCompleteMessage_eq_some_iff.mp hn
      rw [totalLength_of_fits build (hfits header hr)] at htotal
      obtain ⟨v, ds, more, hh, hlen⟩ := readHeader_eq_some_iff.mp hr
      have hseven := hh.seven_le
      cases htotal
      exact ⟨header, hr, rfl, by omega, hle⟩

/-! ## Complete frames -/

/-- `10=ddd|` after a delimiter, where `ddd` is the checksum of all that comes before. -/
structure IsTrailer (pre trailer : List UInt8) : Prop where
  checksum : ∃ digits, trailer = [49, 48, EQ] ++ digits ++ [SOH] ∧ digits.length = 3 ∧
    (∀ d ∈ digits, Decimal.isDigit d = true) ∧
    Decimal.value digits = (computeChecksum pre).toNat
  delimiter : pre.getLast? = some SOH

/-- Tag 8, then tag 9, and at the end the checksum. -/
structure IsFrame (frame : List UInt8) : Prop where
  header : ∃ v rest, SOH ∉ v ∧ frame = [56, EQ] ++ v ++ SOH :: ([57, EQ] ++ rest)
  trailer : ∃ pre trailer, frame = pre ++ trailer ∧ IsTrailer pre trailer

theorem IsTrailer.length_eq {pre trailer : List UInt8} (h : IsTrailer pre trailer) :
    trailer.length = 7 := by
  obtain ⟨digits, rfl, hlen, -⟩ := h.checksum
  simp [hlen]

/-- The trailer of a frame is its last seven bytes. -/
theorem IsFrame.isTrailer {frame : List UInt8} (h : IsFrame frame) :
    IsTrailer (frame.take (frame.length - 7)) (frame.drop (frame.length - 7)) := by
  obtain ⟨pre, trailer, rfl, ht⟩ := h.trailer
  have hlen : (pre ++ trailer).length - 7 = pre.length := by
    rw [List.length_append, ht.length_eq, Nat.add_sub_cancel]
  rw [hlen, List.take_left, List.drop_left]
  exact ht

theorem HasHeader.length_eq (h : HasHeader b v ds more n) :
    b.length = (headerBytes v ds).length + more.length := by
  rw [h.bytes, List.length_append]

/-- The bytes of a declared frame: header, body, and seven more. -/
theorem HasHeader.take_eq (h : HasHeader b v ds more n) :
    b.take ((headerBytes v ds).length + n + 7) =
      (headerBytes v ds ++ more.take n) ++ (more.drop n).take 7 := by
  rw [h.bytes, Nat.add_assoc, List.take_length_add_append, List.take_add, List.append_assoc]

/-- A declared frame that is all there is a frame exactly if its last seven bytes are its
trailer. -/
theorem HasHeader.isFrame_iff (h : HasHeader b v ds more n) (hlen : n + 7 ≤ more.length) :
    IsFrame (b.take ((headerBytes v ds).length + n + 7)) ↔
      IsTrailer (headerBytes v ds ++ more.take n) ((more.drop n).take 7) := by
  rw [h.take_eq]
  constructor
  · rintro ⟨-, pre, trailer, heq, ht⟩
    have hseven : ((more.drop n).take 7).length = trailer.length := by
      rw [ht.length_eq, List.length_take, List.length_drop]
      omega
    obtain ⟨hpre, htrailer⟩ := List.append_inj' heq hseven
    rw [hpre, htrailer]
    exact ht
  · intro ht
    refine ⟨⟨v, ds ++ [SOH] ++ more.take n ++ (more.drop n).take 7, h.beginString, ?_⟩,
      _, _, rfl, ht⟩
    simp [headerBytes]

/-- Bytes without a delimiter are not cut at one. -/
theorem eq_or_longer {l pre r w : List UInt8} (hl : SOH ∉ l) (heq : l ++ r = pre ++ SOH :: w) :
    ∃ a, pre = l ++ a ∧ r = a ++ SOH :: w := by
  rcases List.append_eq_append_iff.mp heq with ⟨a, hpre, hr⟩ | ⟨c, rfl, hw⟩
  · exact ⟨a, hpre, hr⟩
  · rcases c with _ | ⟨x, c⟩
    · exact ⟨[], by simp, hw.symm⟩
    · cases hw
      exact absurd (List.mem_append_right pre List.mem_cons_self) hl

/-- Within a header only tag 9 follows a delimiter. -/
theorem HasHeader.after_delimiter (h : HasHeader b v ds more n) {pre w : List UInt8}
    (hb : b = pre ++ SOH :: w) (hlen : pre.length + 1 < (headerBytes v ds).length) :
    ∃ w', w = 57 :: w' := by
  rw [length_headerBytes] at hlen
  have heq : ([56, EQ] ++ v) ++ SOH :: (([57, EQ] ++ ds) ++ SOH :: more) = pre ++ SOH :: w := by
    rw [← hb, h.bytes, headerBytes]
    simp
  obtain ⟨a, rfl, ha⟩ := eq_or_longer (notMem_tag (by decide) h.beginString) heq
  rcases a with _ | ⟨x, a⟩
  · cases ha
    exact ⟨_, rfl⟩
  · obtain ⟨-, ha⟩ := List.cons.inj ha
    obtain ⟨c, rfl, -⟩ := eq_or_longer (notMem_tag (by decide) h.digits) ha
    simp at hlen
    omega

/-- A length that has wrapped around ends within or right after the header, where there is no
room for a trailer. -/
theorem HasHeader.not_isFrame (h : HasHeader b v ds more n) {m : ℕ} (hm : m ≤ b.length)
    (hshort : m < (headerBytes v ds).length + 7) : ¬ IsFrame (b.take m) := by
  rintro ⟨-, pre, trailer, heq, ht⟩
  obtain ⟨digits, rfl, hthree, -⟩ := ht.checksum
  obtain ⟨pre, rfl⟩ := List.getLast?_eq_some_iff.mp ht.delimiter
  have hlen := congrArg List.length heq
  simp [hm, hthree] at hlen
  have hb : b = pre ++ SOH :: 49 :: (48 :: EQ :: (digits ++ [SOH] ++ b.drop m)) := by
    conv_lhs => rw [← List.take_append_drop m b, heq]
    simp
  obtain ⟨w, hw⟩ := h.after_delimiter hb (by omega)
  exact absurd (List.cons.inj hw).1 (by decide)

/-- A complete header is not refused. -/
theorem HasHeader.ne_err (h : HasHeader b v ds more n) (e : ParseError) :
    findCompleteMessage build b ≠ .err e := by
  rw [findCompleteMessage_of_some (readHeader_of_hasHeader h)]
  rcases build with _ | _
  · by_cases hfits : (headerBytes v ds).length + n + 7 < 2 ^ 64
    · rw [totalLength_of_fits .debug hfits]
      exact nofun
    · rw [totalLength_debug (Nat.le_of_not_lt hfits)]
      exact nofun
  · rw [totalLength_release]
    exact nofun

/-- What is found is a frame, and bytes that cannot be one where the header says are refused. -/
def ChecksFrames (build : Build) (b : List UInt8) : Prop :=
  (∀ m, findCompleteMessage build b = .ok (some m) → IsFrame (b.take m)) ∧
    ∀ v ds more n, HasHeader b v ds more n → n + 7 ≤ more.length →
      ¬ IsTrailer (headerBytes v ds ++ more.take n) ((more.drop n).take 7) →
      ∃ e, findCompleteMessage build b = .err e

/-- **When framing cuts complete frames.** Nothing of the trailer is ever looked at, so it is up to
the peer: after a complete header, as soon as the declared bytes are there, they have to end in
the trailer; and in a release build the length must not wrap around to one that is there. -/
theorem frames_complete_iff (build : Build) (b : List UInt8) :
    ChecksFrames build b ↔ ∀ v ds more n, HasHeader b v ds more n →
      (n + 7 ≤ more.length →
        IsTrailer (headerBytes v ds ++ more.take n) ((more.drop n).take 7)) ∧
      (build = .release → 2 ^ 64 ≤ (headerBytes v ds).length + n + 7 →
        b.length < ((headerBytes v ds).length + n + 7) % 2 ^ 64) := by
  constructor
  · rintro ⟨hfound, hrefused⟩ v ds more n h
    constructor
    · intro hlen
      by_contra ht
      obtain ⟨e, he⟩ := hrefused v ds more n h hlen ht
      exact h.ne_err e he
    · rintro rfl hover
      by_contra hle
      rw [Nat.not_lt] at hle
      refine h.not_isFrame hle ?_ (hfound _ (findCompleteMessage_eq_some_iff.mpr
        ⟨_, readHeader_of_hasHeader h, totalLength_release _, hle⟩))
      have hn := (Lib.Decimal.lt_of_parse h.bodyLength).1
      omega
  · intro hpeer
    refine ⟨fun m hm => ?_, fun v ds more n h hlen ht => absurd ((hpeer v ds more n h).1 hlen) ht⟩
    obtain ⟨header, hr, htotal, hle⟩ := findCompleteMessage_eq_some_iff.mp hm
    obtain ⟨v, ds, more, h, hlen⟩ := readHeader_eq_some_iff.mp hr
    obtain ⟨htrailer, hwrap⟩ := hpeer v ds more header.2 h
    by_cases hfits : header.1 + header.2 + 7 < 2 ^ 64
    · rw [totalLength_of_fits build hfits] at htotal
      cases htotal
      have hmore : header.2 + 7 ≤ more.length := by
        rw [h.length_eq, ← hlen] at hle
        omega
      rw [hlen]
      exact (h.isFrame_iff hmore).mpr (htrailer hmore)
    · rw [Nat.not_lt] at hfits
      rcases build with _ | _
      · rw [totalLength_debug hfits] at htotal
        cases htotal
      · rw [totalLength_release] at htotal
        cases htotal
        rw [hlen] at hfits hle
        exact absurd hle (Nat.not_le.mpr (hwrap rfl hfits))

/-- `8=F|9=0|XXXXXXX` is cut as a frame, although what stands in the place of the trailer is not
even a field; and so is the same header with a trailer whose checksum is wrong. -/
theorem frame_without_trailer :
    let garbage : List UInt8 := [56, EQ, 70, SOH, 57, EQ, 48, SOH, 88, 88, 88, 88, 88, 88, 88]
    let wrongSum : List UInt8 :=
      [56, EQ, 70, SOH, 57, EQ, 48, SOH, 49, 48, EQ, 48, 48, 48, SOH]
    (findCompleteMessage .release garbage = .ok (some 15) ∧ ¬ IsFrame garbage) ∧
      findCompleteMessage .release wrongSum = .ok (some 15) ∧ ¬ IsFrame wrongSum := by
  refine ⟨⟨by decide, fun h => ?_⟩, by decide, fun h => ?_⟩
  · obtain ⟨digits, heq, -⟩ := h.isTrailer.checksum
    exact absurd (List.cons.inj heq).1 (by decide)
  · obtain ⟨digits, heq, hthree, -, hvalue⟩ := h.isTrailer.checksum
    have hdigits := congrArg (fun trailer => (trailer.drop 3).take 3) heq
    simp only [List.append_assoc, List.drop_left' (show [49, 48, EQ].length = 3 from rfl),
      List.take_left' hthree] at hdigits
    rw [← hdigits] at hvalue
    exact absurd hvalue (by decide)

end Blackswan.Fix
