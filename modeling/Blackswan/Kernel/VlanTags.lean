import Blackswan.Kernel.Verdict

/-!
# VLAN tags and the partition program

A tag moves everything behind it by four bytes. The verdict of `xdp_partition` does not change with
it, up to two tags.

1. No part of the program sees what stands before the place it is given (`etherTypeBranch_append`).
2. `partitionBody_tags` shows that a frame with at most two tags is judged by what stands behind
   them.
3. `verdict_insert_tags` inserts tags one by one, each before the others.
-/

namespace Blackswan.Kernel

open Lib Lib.Outcome

variable {host : Endian} {maps : Bpf} {frame : Frame}

/-! ## Behind a block of bytes

Every part of the program sees the frame from some place on. -/

section
variable (pre rest : Frame)

theorem byteAt_append (i : ℕ) : byteAt (pre ++ rest) (pre.length + i) = byteAt rest i := by
  rw [byteAt, byteAt, List.getD_eq_getElem?_getD, List.getD_eq_getElem?_getD,
    List.getElem?_append_right (Nat.le_add_right _ _), Nat.add_sub_cancel_left]

theorem extractSrcPort_append (l4 : ℕ) (proto : UInt8) :
    extractSrcPort host (pre ++ rest) (pre.length + l4) proto =
      extractSrcPort host rest l4 proto := by
  simp only [extractSrcPort, List.length_append, Nat.add_assoc, gt_iff_lt, Nat.add_lt_add_iff_left,
    load16_append]

theorem partitionV4_append (l3 : ℕ) :
    partitionV4 host maps (pre ++ rest) (pre.length + l3) = partitionV4 host maps rest l3 := by
  simp only [partitionV4, List.length_append, Nat.add_assoc, gt_iff_lt, Nat.add_lt_add_iff_left,
    load8_append, load16_append, load32_append, extractSrcPort_append]

theorem ip6Matches_append (saddr : ℕ) (want : List UInt8) :
    ip6Matches (pre ++ rest) (pre.length + saddr) want = ip6Matches rest saddr want := by
  induction want generalizing saddr with
  | nil => rfl
  | cons w want ih => simp only [ip6Matches, load8_append, Nat.add_assoc, ih]

theorem skipFragment_append (nexthdr : UInt8) (l4 : ℕ) :
    skipFragment host (pre ++ rest) nexthdr (pre.length + l4) =
      (skipFragment host rest nexthdr l4).map fun (nexthdr, l4) => (nexthdr, pre.length + l4) := by
  simp only [skipFragment, List.length_append, Nat.add_assoc, gt_iff_lt, Nat.add_lt_add_iff_left,
    load8_append, load16_append, apply_ite (Outcome.map _), map_bind, map_map, map_ok, map_err]

theorem partitionV6_append (l3 : ℕ) :
    partitionV6 host maps (pre ++ rest) (pre.length + l3) = partitionV6 host maps rest l3 := by
  simp only [partitionV6, List.length_append, Nat.add_assoc, gt_iff_lt, Nat.add_lt_add_iff_left,
    load8_append, ip6Matches_append, skipFragment_append, bind_map, extractSrcPort_append]

theorem etherTypeBranch_append (k : ℕ) :
    etherTypeBranch host maps (pre ++ rest) (pre.length + k) =
      etherTypeBranch host maps rest k := by
  simp only [etherTypeBranch, Nat.add_assoc, byteAt_append, partitionV4_append, partitionV6_append]

end

theorem etherTypeBranch_drop {k : ℕ} (h : k ≤ frame.length) :
    etherTypeBranch host maps frame k = etherTypeBranch host maps (frame.drop k) 0 := by
  have hlen : (frame.take k).length = k := List.length_take_of_le h
  calc etherTypeBranch host maps frame k
      = etherTypeBranch host maps (frame.take k ++ frame.drop k) ((frame.take k).length + 0) := by
        rw [List.take_append_drop, hlen, Nat.add_zero]
    _ = etherTypeBranch host maps (frame.drop k) 0 := etherTypeBranch_append _ _ 0

/-! ## Inserting tags -/

/-- The frame has `j` tags, all of them complete, and an EtherType that is no tag's behind them. -/
structure CarriesTags (frame : Frame) (j : ℕ) : Prop where
  complete : 14 + 4 * j ≤ frame.length
  tags : ∀ i < j, IsTag (wordAt frame (12 + 4 * i))
  inner : ¬ IsTag (wordAt frame (12 + 4 * j))

/-- A tag of either type, with any TCI. -/
inductive VlanTag where
  | q (tci₀ tci₁ : UInt8)
  | ad (tci₀ tci₁ : UInt8)
  deriving DecidableEq, Repr

def VlanTag.bytes : VlanTag → Frame
  | q tci₀ tci₁ => [0x81, 0x00, tci₀, tci₁]
  | ad tci₀ tci₁ => [0x88, 0xA8, tci₀, tci₁]

/-- The frame with the tags after its MAC addresses. -/
def insertTags (new : List VlanTag) (frame : Frame) : Frame :=
  frame.take 12 ++ (new.flatMap VlanTag.bytes ++ frame.drop 12)

theorem peeled_eq {j max k : ℕ} (hmax : j ≤ max) (hlen : k + 2 + 4 * j ≤ frame.length)
    (htags : ∀ i < j, IsTag (wordAt frame (k + 4 * i)))
    (hinner : ¬ IsTag (wordAt frame (k + 4 * j))) : peeled frame max k = j := by
  induction j generalizing max k with
  | zero =>
    cases max with
    | zero => rfl
    | succ max => exact if_neg fun h => hinner h.1
  | succ j ih =>
    cases max with
    | zero => exact absurd hmax (Nat.not_succ_le_zero j)
    | succ max =>
      rw [peeled, if_pos ⟨htags 0 (Nat.succ_pos j), by omega⟩]
      have hshift : ∀ i, k + 4 + 4 * i = k + 4 * (i + 1) := fun i => by omega
      rw [ih (Nat.le_of_succ_le_succ hmax) (by omega)]
      · intro i hi
        rw [hshift]
        exact htags (i + 1) (Nat.succ_lt_succ hi)
      · rw [hshift]
        exact hinner

theorem CarriesTags.tagsPeeled_eq {j : ℕ} (h : CarriesTags frame j) (hj : j ≤ 2) :
    tagsPeeled frame = j :=
  peeled_eq hj (by have hlen := h.complete; omega) h.tags h.inner

/-- **A frame is judged by what stands behind its tags.** -/
theorem partitionBody_tags {j : ℕ} (h : CarriesTags frame j) (hj : j ≤ 2) :
    partitionBody host maps frame =
      if maps.u32 XdpPartitionInjector.ENABLED_MAP = 0 then .ok .pass
      else etherTypeBranch host maps (frame.drop (12 + 4 * j)) 0 := by
  have hlen := h.complete
  have hpeel : peelVlan host frame (fromNeBytes16 host (byteAt frame 12) (byteAt frame 13)) 14 =
      .ok (fromNeBytes16 host (byteAt frame (12 + 4 * j)) (byteAt frame (12 + 4 * j + 1)),
        12 + 4 * j + 2) := by
    obtain hpeel | ⟨-, htag⟩ := peelVlan_cases host frame
    · rw [hpeel, h.tagsPeeled_eq hj, show 14 + 4 * j = 12 + 4 * j + 2 by omega]
    · rw [h.tagsPeeled_eq hj] at htag
      exact absurd htag h.inner
  rw [partitionBody, if_neg (by omega : ¬ 14 > frame.length), load16_byteAt (by omega), ok_bind,
    hpeel, ok_bind, ← etherTypeBranch_drop (by omega)]
  rfl

section
variable {tag : VlanTag} {new : List VlanTag} {j : ℕ}

@[simp] theorem VlanTag.length_bytes (tag : VlanTag) : tag.bytes.length = 4 := by
  cases tag <;> rfl

theorem VlanTag.isTag_bytes (tag : VlanTag) (rest : Frame) :
    IsTag (wordAt (tag.bytes ++ rest) 0) := by
  cases tag with
  | q => exact Or.inl rfl
  | ad => exact Or.inr rfl

theorem insertTags_cons (h : 12 ≤ frame.length) :
    insertTags (tag :: new) frame = insertTags [tag] (insertTags new frame) := by
  have hlen : (frame.take 12).length = 12 := List.length_take_of_le h
  rw [insertTags, insertTags, insertTags, List.take_left' hlen, List.drop_left' hlen,
    List.flatMap_cons, List.flatMap_cons, List.flatMap_nil, List.append_nil, List.append_assoc]

/-- One tag moves everything behind the MAC addresses by four bytes. -/
theorem drop_insertTags (h : 12 ≤ frame.length) (i : ℕ) :
    (insertTags [tag] frame).drop (12 + 4 + i) = frame.drop (12 + i) := by
  have hlen : (frame.take 12 ++ tag.bytes).length = 12 + 4 := by
    rw [List.length_append, List.length_take_of_le h, VlanTag.length_bytes]
  rw [insertTags, List.flatMap_singleton, ← List.append_assoc, ← List.drop_drop,
    List.drop_left' hlen, List.drop_drop]

theorem length_insertTags (h : 12 ≤ frame.length) :
    (insertTags [tag] frame).length = frame.length + 4 := by
  rw [insertTags, List.flatMap_singleton, List.length_append, List.length_append,
    List.length_take_of_le h, VlanTag.length_bytes, List.length_drop]
  omega

theorem wordAt_drop (frame : Frame) (i : ℕ) : wordAt frame i = wordAt (frame.drop i) 0 := by
  simp only [wordAt, byteAt, List.getD_eq_getElem?_getD, List.getElem?_drop, Nat.add_zero,
    Nat.zero_add]

theorem wordAt_insertTags (h : 12 ≤ frame.length) (i : ℕ) :
    wordAt (insertTags [tag] frame) (12 + 4 * (i + 1)) = wordAt frame (12 + 4 * i) := by
  rw [wordAt_drop, wordAt_drop frame, show 12 + 4 * (i + 1) = 12 + 4 + 4 * i by omega,
    drop_insertTags h]

theorem CarriesTags.insert (h : CarriesTags frame j) (tag : VlanTag) :
    CarriesTags (insertTags [tag] frame) (j + 1) := by
  have hlen : 12 ≤ frame.length := by have hc := h.complete; omega
  refine ⟨?_, fun i hi => ?_, ?_⟩
  · rw [length_insertTags hlen]
    have hc := h.complete
    omega
  · cases i with
    | zero =>
      rw [wordAt_drop, insertTags, List.drop_left' (List.length_take_of_le hlen),
        List.flatMap_singleton]
      exact tag.isTag_bytes _
    | succ i =>
      rw [wordAt_insertTags hlen]
      exact h.tags i (Nat.lt_of_succ_lt_succ hi)
  · rw [wordAt_insertTags hlen]
    exact h.inner

theorem partitionBody_insertTags_singleton (h : CarriesTags frame j) (hj : j + 1 ≤ 2) :
    partitionBody host maps (insertTags [tag] frame) = partitionBody host maps frame := by
  have hlen : 12 ≤ frame.length := by have hc := h.complete; omega
  rw [partitionBody_tags (h.insert tag) hj, partitionBody_tags h (by omega),
    show 12 + 4 * (j + 1) = 12 + 4 + 4 * j by omega, drop_insertTags hlen]

/-- By induction on the tags, from the inside out. -/
theorem partitionBody_insertTags (h : CarriesTags frame j) (hle : j + new.length ≤ 2) :
    CarriesTags (insertTags new frame) (j + new.length) ∧
      partitionBody host maps (insertTags new frame) = partitionBody host maps frame := by
  have hlen : 12 ≤ frame.length := by have hc := h.complete; omega
  induction new with
  | nil =>
    rw [insertTags, List.flatMap_nil, List.nil_append, List.take_append_drop]
    exact ⟨h, rfl⟩
  | cons tag new ih =>
    rw [List.length_cons, ← Nat.add_assoc] at hle
    obtain ⟨hcarries, heq⟩ := ih (by omega)
    rw [insertTags_cons hlen, List.length_cons, ← Nat.add_assoc]
    exact ⟨hcarries.insert tag, (partitionBody_insertTags_singleton hcarries hle).trans heq⟩

end

/-- **Tags do not hide a peer.** As long as there are no more than two in the end, tags can be
inserted without changing the verdict. -/
theorem verdict_insert_tags (host : Endian) (maps : Bpf) (frame : Frame) (j : ℕ)
    (new : List VlanTag) (h : CarriesTags frame j) (hle : j + new.length ≤ 2) :
    xdpPartition host maps (insertTags new frame) = xdpPartition host maps frame := by
  rw [xdpPartition, xdpPartition, (partitionBody_insertTags h hle).2]

/-- A second tag before the one of the frame. -/
theorem verdict_insert_tags_tagged :
    CarriesTags taggedFrame 1 ∧
    xdpPartition .big (peerMaps .big) (insertTags [.ad 0x20 0x07] taggedFrame) =
      xdpPartition .big (peerMaps .big) taggedFrame := by
  have hcarries : CarriesTags taggedFrame 1 := ⟨by decide, by decide, by decide⟩
  exact ⟨hcarries, verdict_insert_tags .big (peerMaps .big) taggedFrame 1 [.ad 0x20 0x07] hcarries
    (by decide)⟩

end Blackswan.Kernel
