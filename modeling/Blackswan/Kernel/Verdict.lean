import Mathlib.Algebra.Group.Nat.Defs
import Blackswan.Kernel.Partition

/-!
# What the partition program drops

The verdict of `xdp_partition` on every frame, from the bytes of the frame alone.

1. `Matches4` and `Matches6` say what a frame from the peer looks like behind its VLAN tags, of
   which up to two count (`tagsPeeled`). They speak of offsets and numbers in network byte order.
2. `Decides` is the form of the results: a part of the program reads nothing outside of the frame,
   and drops exactly under a condition. Its rules follow the shape of the program, one for each
   early return and one for each load.
3. `decides_partitionV4`, `decides_partitionV6` and `peelVlan_cases` go through the program with
   these rules, and `partition_verdict` puts them together.
-/

namespace Blackswan.Kernel

open Lib Lib.Outcome

variable {host : Endian} {maps : Bpf} {frame : Frame}

/-! ## Frames from the peer -/

/-- A byte of the frame; zero behind its end. -/
def byteAt (frame : Frame) (i : ℕ) : UInt8 := frame.getD i 0

/-- Two bytes of the frame, in network byte order. -/
def wordAt (frame : Frame) (i : ℕ) : ℕ :=
  0x100 * (byteAt frame i).toNat + (byteAt frame (i + 1)).toNat

/-- The EtherType of a VLAN tag. -/
def IsTag (etherType : ℕ) : Prop := etherType = 0x8100 ∨ etherType = 0x88A8

instance (etherType : ℕ) : Decidable (IsTag etherType) :=
  inferInstanceAs (Decidable (etherType = 0x8100 ∨ etherType = 0x88A8))

/-- How many of the complete tags from `k` on are peeled, if at most `max` are. -/
def peeled (frame : Frame) : ℕ → ℕ → ℕ
  | 0, _ => 0
  | max + 1, k =>
    if IsTag (wordAt frame k) ∧ k + 6 ≤ frame.length then peeled frame max (k + 4) + 1 else 0

/-- Up to two tags after the MAC addresses. -/
def tagsPeeled (frame : Frame) : ℕ := peeled frame 2 12

/-- A complete UDP or TCP header at `l4` with the source port `port`. -/
def HasSourcePort (frame : Frame) (proto : UInt8) (l4 port : ℕ) : Prop :=
  ((proto = IPPROTO_UDP ∧ l4 + 8 ≤ frame.length) ∨
    (proto = IPPROTO_TCP ∧ l4 + 20 ≤ frame.length)) ∧ wordAt frame l4 = port

/-- An IPv4 packet at `l3` from the peer. The port is looked at in first fragments only. -/
structure Matches4 (addr : Vector UInt8 4) (port : ℕ) (frame : Frame) (l3 : ℕ) : Prop where
  etherType : wordAt frame (l3 - 2) = 0x0800
  header : l3 + 20 ≤ frame.length
  ihl : 5 ≤ (byteAt frame l3).toNat % 16
  options : l3 + 4 * ((byteAt frame l3).toNat % 16) ≤ frame.length
  source : (frame.drop (l3 + 12)).take 4 = addr.toList
  port : port = 0 ∨ wordAt frame (l3 + 6) % 2 ^ 13 = 0 ∧
    HasSourcePort frame (byteAt frame (l3 + 9)) (l3 + 4 * ((byteAt frame l3).toNat % 16)) port

/-- An IPv6 packet at `l3` from the peer. The transport header comes next, or behind one Fragment
header of a first fragment. -/
structure Matches6 (addr : Vector UInt8 16) (port : ℕ) (frame : Frame) (l3 : ℕ) : Prop where
  etherType : wordAt frame (l3 - 2) = 0x86DD
  header : l3 + 40 ≤ frame.length
  source : (frame.drop (l3 + 8)).take 16 = addr.toList
  port : port = 0 ∨ HasSourcePort frame (byteAt frame (l3 + 6)) (l3 + 40) port ∨
    byteAt frame (l3 + 6) = IPPROTO_FRAGMENT ∧ l3 + 48 ≤ frame.length ∧
      wordAt frame (l3 + 42) / 8 = 0 ∧ HasSourcePort frame (byteAt frame (l3 + 40)) (l3 + 48) port

/-- From `l4` on, where a header of type `nexthdr` starts, the IPv6 headers lead to a Fragment
header with an offset. Those before it are of any size and of any type but the transport
protocols. -/
inductive LeadsToFragment (frame : Frame) : UInt8 → ℕ → Prop where
  | fragment {l4 : ℕ} (h : wordAt frame (l4 + 2) / 8 ≠ 0) :
    LeadsToFragment frame IPPROTO_FRAGMENT l4
  | extension {nexthdr : UInt8} {l4 size : ℕ} (hudp : nexthdr ≠ IPPROTO_UDP)
    (htcp : nexthdr ≠ IPPROTO_TCP) (h : LeadsToFragment frame (byteAt frame l4) (l4 + size)) :
    LeadsToFragment frame nexthdr l4

/-- A fragment other than the first, by the offset in its IPv4 or Fragment header. -/
def NonInitialFragment (frame : Frame) (l3 : ℕ) : Prop :=
  (wordAt frame (l3 - 2) = 0x0800 ∧ wordAt frame (l3 + 6) % 2 ^ 13 ≠ 0) ∨
    (wordAt frame (l3 - 2) = 0x86DD ∧ LeadsToFragment frame (byteAt frame (l3 + 6)) (l3 + 40))

/-! ## Deciding -/

/-- The computation reads nothing outside of the frame, and drops it exactly if `P`. -/
structure Decides (x : Xdp XdpAction) (P : Prop) : Prop where
  safe : x ≠ .panic
  drop : x = .ok .drop ↔ P

theorem decides_pass : Decides (.ok .pass) False := ⟨nofun, ⟨nofun, False.elim⟩⟩

theorem decides_err : Decides (.err .pass) False := ⟨nofun, ⟨nofun, False.elim⟩⟩

theorem decides_drop : Decides (.ok .drop) True := ⟨nofun, ⟨fun _ => trivial, fun _ => rfl⟩⟩

theorem Decides.congr {x : Xdp XdpAction} {P Q : Prop} (h : Decides x P) (hiff : P ↔ Q) :
    Decides x Q := ⟨h.safe, h.drop.trans hiff⟩

/-- An early return with `XDP_PASS`. -/
theorem Decides.unless {c P : Prop} [Decidable c] {x y : Xdp XdpAction} (hy : Decides y False)
    (h : ¬ c → Decides x P) : Decides (if c then y else x) (¬ c ∧ P) := by
  by_cases hc : c
  · rw [if_pos hc]
    exact hy.congr ⟨False.elim, fun hn => hn.1 hc⟩
  · rw [if_neg hc]
    exact (h hc).congr ⟨fun hP => ⟨hc, hP⟩, And.right⟩

/-- An early return with `XDP_DROP`. -/
theorem Decides.or {c P : Prop} [Decidable c] {x : Xdp XdpAction} (h : ¬ c → Decides x P) :
    Decides (if c then .ok .drop else x) (c ∨ P) := by
  by_cases hc : c
  · rw [if_pos hc]
    exact decides_drop.congr ⟨fun _ => Or.inl hc, fun _ => trivial⟩
  · rw [if_neg hc]
    exact (h hc).congr ⟨Or.inr, fun hor => hor.resolve_left hc⟩

/-- A part of the program that goes on with a value. -/
theorem Decides.bind {α : Type} {y : Xdp α} {a : α} {f : α → Xdp XdpAction} {P : Prop}
    (hy : y = .ok a) (h : Decides (f a) P) : Decides (y.bind f) P := by
  rw [hy]
  exact h

/-! ## Ports -/

theorem load16_byteAt {i : ℕ} (h : i + 2 ≤ frame.length) : (load16 host frame i : Xdp UInt16) =
    .ok (fromNeBytes16 host (byteAt frame i) (byteAt frame (i + 1))) := load16_of_lt h

theorem load8_byteAt {i : ℕ} (h : i < frame.length) :
    (load8 frame i : Xdp UInt8) = .ok (byteAt frame i) := load8_of_lt h

theorem anyPort_iff {wantPort : UInt32} : wantPort = 0 ↔ wantPort.toNat = 0 := by
  rw [← UInt32.toNat_inj]
  rfl

/-- What is compared with the port is the number on the wire. -/
theorem decides_comparePort {wantPort : UInt32} (hport : wantPort.toNat < 2 ^ 16) (hi lo : UInt8) :
    Decides (comparePort wantPort (some (ntohs host (fromNeBytes16 host hi lo))))
      (0x100 * hi.toNat + lo.toNat = wantPort.toNat) := by
  have hiff : ntohs host (fromNeBytes16 host hi lo) = wantPort.toUInt16 ↔
      0x100 * hi.toNat + lo.toNat = wantPort.toNat := by
    rw [← UInt16.toNat_inj, toNat_ntohs, UInt32.toNat_toUInt16, Nat.mod_eq_of_lt hport]
  unfold comparePort
  dsimp only
  by_cases h : ntohs host (fromNeBytes16 host hi lo) = wantPort.toUInt16
  · rw [if_pos h]
    exact decides_drop.congr ⟨fun _ => hiff.mp h, fun _ => trivial⟩
  · rw [if_neg h]
    exact decides_pass.congr ⟨False.elim, fun hp => h (hiff.mpr hp)⟩

/-- A header of `size` bytes with the port at its front. -/
theorem decides_port {wantPort : UInt32} (hport : wantPort.toNat < 2 ^ 16) {l4 size : ℕ}
    (hsize : 2 ≤ size) :
    Decides ((if l4 + size > frame.length then .ok none
        else (load16 host frame l4).map fun source => some (ntohs host source) :
        Xdp (Option UInt16)).bind (comparePort wantPort))
      (l4 + size ≤ frame.length ∧ wordAt frame l4 = wantPort.toNat) := by
  by_cases hlen : l4 + size > frame.length
  · rw [if_pos hlen]
    exact decides_pass.congr ⟨False.elim, fun h => absurd h.1 (Nat.not_le.mpr hlen)⟩
  · rw [if_neg hlen, load16_byteAt (by omega)]
    exact (decides_comparePort hport _ _).congr ⟨fun h => ⟨Nat.not_lt.mp hlen, h⟩, And.right⟩

theorem decides_extractSrcPort {wantPort : UInt32} (hport : wantPort.toNat < 2 ^ 16) (l4 : ℕ)
    (proto : UInt8) :
    Decides ((extractSrcPort host frame l4 proto).bind (comparePort wantPort))
      (HasSourcePort frame proto l4 wantPort.toNat) := by
  have hne : IPPROTO_UDP ≠ IPPROTO_TCP := by decide
  unfold extractSrcPort HasSourcePort
  by_cases hudp : proto = IPPROTO_UDP
  · subst hudp
    rw [if_pos rfl]
    refine (decides_port hport (by decide)).congr ?_
    simp [hne]
  · rw [if_neg hudp]
    by_cases htcp : proto = IPPROTO_TCP
    · subst htcp
      rw [if_pos rfl]
      refine (decides_port hport (by decide)).congr ?_
      simp [hne.symm]
    · rw [if_neg htcp]
      refine decides_pass.congr ?_
      simp [hudp, htcp]

/-! ## IPv4 -/

theorem drop_eq_byteAt_cons {i : ℕ} (h : i < frame.length) :
    frame.drop i = byteAt frame i :: frame.drop (i + 1) := drop_of_load8 (load8_byteAt h)

theorem drop_take_four {i : ℕ} (h : i + 4 ≤ frame.length) :
    (frame.drop i).take 4 =
      [byteAt frame i, byteAt frame (i + 1), byteAt frame (i + 2), byteAt frame (i + 3)] := by
  rw [drop_eq_byteAt_cons (by omega), drop_eq_byteAt_cons (by omega),
    drop_eq_byteAt_cons (by omega), drop_eq_byteAt_cons (by omega)]
  rfl

theorem load32_byteAt {i : ℕ} (h : i + 4 ≤ frame.length) : (load32 host frame i : Xdp UInt32) =
    .ok (fromNeBytes host #v[byteAt frame i, byteAt frame (i + 1), byteAt frame (i + 2),
      byteAt frame (i + 3)]) := load32_of_lt h

/-- The address as a word in the map and as four bytes in the frame. -/
theorem source_eq_iff {i : ℕ} (h : i + 4 ≤ frame.length) {addr : Vector UInt8 4} :
    fromNeBytes host #v[byteAt frame i, byteAt frame (i + 1), byteAt frame (i + 2),
        byteAt frame (i + 3)] = fromNeBytes host addr ↔
      (frame.drop i).take 4 = addr.toList := by
  rw [(fromNeBytes_injective host).eq_iff, drop_take_four h, ← Vector.toList_inj]
  rfl

/-- The low 13 bits of a word. -/
theorem and_mask_eq_zero_iff (x : UInt16) : x &&& 0x1FFF = 0 ↔ x.toNat % 2 ^ 13 = 0 := by
  rw [← UInt16.toNat_inj, UInt16.toNat_and, ← Nat.and_two_pow_sub_one_eq_mod]
  rfl

theorem decides_partitionV4 {l3 : ℕ} {addr : Vector UInt8 4}
    (haddr : MapHolds host maps (.v4 addr))
    (hport : (maps.u32 XdpPartitionInjector.SRC_PORT_MAP).toNat < 2 ^ 16)
    (hether : wordAt frame (l3 - 2) = 0x0800) :
    Decides (partitionV4 host maps frame l3)
      (Matches4 addr (maps.u32 XdpPartitionInjector.SRC_PORT_MAP).toNat frame l3) := by
  generalize hwant : maps.u32 XdpPartitionInjector.SRC_PORT_MAP = wantPort at hport
  have hbody : Decides (partitionV4 host maps frame l3)
      (¬ l3 + 20 > frame.length ∧ ¬ (byteAt frame l3).toNat % 16 < 5 ∧
        ¬ l3 + (byteAt frame l3).toNat % 16 * 4 > frame.length ∧
        ¬ fromNeBytes host #v[byteAt frame (l3 + 12), byteAt frame (l3 + 12 + 1),
          byteAt frame (l3 + 12 + 2), byteAt frame (l3 + 12 + 3)] ≠ fromNeBytes host addr ∧
        (wantPort = 0 ∨ ¬ ntohs host (fromNeBytes16 host (byteAt frame (l3 + 6))
            (byteAt frame (l3 + 6 + 1))) &&& 0x1FFF ≠ 0 ∧
          HasSourcePort frame (byteAt frame (l3 + 9)) (l3 + (byteAt frame l3).toNat % 16 * 4)
            wantPort.toNat)) := by
    unfold partitionV4
    rw [hwant, show maps.u32 XdpPartitionInjector.SRC_IP_MAP = _ from haddr]
    refine decides_pass.unless fun hlen => .bind (load8_byteAt (by omega)) ?_
    refine decides_pass.unless fun hihl => decides_pass.unless fun hl4 =>
      .bind (load32_byteAt (by omega)) ?_
    refine decides_pass.unless fun hip => .or fun hany => .bind (load16_byteAt (by omega)) ?_
    refine decides_pass.unless fun hfrag => .bind (load8_byteAt (by omega)) ?_
    exact decides_extractSrcPort hport _ _
  refine hbody.congr ?_
  rw [not_not, not_not, and_mask_eq_zero_iff, toNat_ntohs, anyPort_iff, Nat.not_lt, Nat.not_lt,
    Nat.not_lt, Nat.mul_comm _ 4]
  constructor
  · rintro ⟨hlen, hihl, hl4, hip, hrest⟩
    exact ⟨hether, hlen, hihl, hl4, (source_eq_iff (by omega)).mp hip, hrest⟩
  · rintro ⟨-, hlen, hihl, hl4, hip, hrest⟩
    exact ⟨hlen, hihl, hl4, (source_eq_iff (by omega)).mpr hip, hrest⟩

/-! ## IPv6 -/

theorem ip6Matches_eq {saddr : ℕ} {want : List UInt8} (h : saddr + want.length ≤ frame.length) :
    ip6Matches frame saddr want = .ok (decide ((frame.drop saddr).take want.length = want)) := by
  induction want generalizing saddr with
  | nil => rfl
  | cons w rest ih =>
    rw [List.length_cons] at h
    rw [ip6Matches, load8_byteAt (by omega), ok_bind, drop_eq_byteAt_cons (by omega),
      List.length_cons, List.take_succ_cons]
    by_cases hw : byteAt frame saddr = w
    · rw [if_neg (not_not.mpr hw), ih (by omega), ok.injEq, decide_eq_decide, List.cons.injEq]
      exact ⟨fun hrest => ⟨hw, hrest⟩, And.right⟩
    · rw [if_pos hw, ok.injEq, eq_comm, decide_eq_false_iff_not]
      exact fun hboth => hw (List.cons.inj hboth).1

theorem shiftRight_eq_zero_iff (x : UInt16) : x >>> 3 = 0 ↔ x.toNat / 8 = 0 := by
  rw [← UInt16.toNat_inj, UInt16.toNat_shiftRight, Nat.shiftRight_eq_div_pow]
  rfl

/-- The transport header, directly or behind one Fragment header. -/
theorem decides_transport {wantPort : UInt32} (hport : wantPort.toNat < 2 ^ 16) (nexthdr : UInt8)
    (l4 : ℕ) :
    Decides ((skipFragment host frame nexthdr l4).bind fun (nexthdr, l4) =>
        (extractSrcPort host frame l4 nexthdr).bind (comparePort wantPort))
      (HasSourcePort frame nexthdr l4 wantPort.toNat ∨
        nexthdr = IPPROTO_FRAGMENT ∧ l4 + 8 ≤ frame.length ∧ wordAt frame (l4 + 2) / 8 = 0 ∧
          HasSourcePort frame (byteAt frame l4) (l4 + 8) wantPort.toNat) := by
  unfold skipFragment
  by_cases hfrag : nexthdr = IPPROTO_FRAGMENT
  · have hnone : ¬ HasSourcePort frame nexthdr l4 wantPort.toNat := by
      rintro ⟨hproto | hproto, -⟩
      · exact absurd (hfrag.symm.trans hproto.1) (by decide)
      · exact absurd (hfrag.symm.trans hproto.1) (by decide)
    rw [if_pos hfrag, or_iff_right hnone, and_iff_right hfrag]
    by_cases hlen : l4 + 8 > frame.length
    · rw [if_pos hlen]
      exact decides_err.congr ⟨False.elim, fun h => absurd h.1 (Nat.not_le.mpr hlen)⟩
    · rw [if_neg hlen, and_iff_right (Nat.not_lt.mp hlen), load16_byteAt (by omega), ok_bind]
      by_cases hoff : ntohs host (fromNeBytes16 host (byteAt frame (l4 + 2))
          (byteAt frame (l4 + 2 + 1))) >>> 3 = 0
      · have hword := (shiftRight_eq_zero_iff _).mp hoff
        rw [toNat_ntohs] at hword
        rw [if_neg (not_not.mpr hoff), load8_byteAt (by omega)]
        exact (decides_extractSrcPort hport _ _).congr ⟨fun h => ⟨hword, h⟩, And.right⟩
      · rw [if_pos hoff]
        refine decides_err.congr ⟨False.elim, fun h => hoff ((shiftRight_eq_zero_iff _).mpr ?_)⟩
        rw [toNat_ntohs]
        exact h.1
  · rw [if_neg hfrag]
    exact (decides_extractSrcPort hport _ _).congr
      ⟨Or.inl, fun h => h.resolve_right fun hc => hfrag hc.1⟩

theorem decides_partitionV6 {l3 : ℕ} {addr : Vector UInt8 16}
    (haddr : MapHolds host maps (.v6 addr))
    (hport : (maps.u32 XdpPartitionInjector.SRC_PORT_MAP).toNat < 2 ^ 16)
    (hether : wordAt frame (l3 - 2) = 0x86DD) :
    Decides (partitionV6 host maps frame l3)
      (Matches6 addr (maps.u32 XdpPartitionInjector.SRC_PORT_MAP).toNat frame l3) := by
  generalize hwant : maps.u32 XdpPartitionInjector.SRC_PORT_MAP = wantPort at hport
  have hbody : Decides (partitionV6 host maps frame l3)
      (¬ l3 + 40 > frame.length ∧
        ¬ ¬ decide ((frame.drop (l3 + 8)).take addr.toList.length = addr.toList) = true ∧
        (wantPort = 0 ∨ HasSourcePort frame (byteAt frame (l3 + 6)) (l3 + 40) wantPort.toNat ∨
          byteAt frame (l3 + 6) = IPPROTO_FRAGMENT ∧ l3 + 40 + 8 ≤ frame.length ∧
            wordAt frame (l3 + 40 + 2) / 8 = 0 ∧
            HasSourcePort frame (byteAt frame (l3 + 40)) (l3 + 40 + 8) wantPort.toNat)) := by
    unfold partitionV6
    rw [hwant, show maps.bytes16 XdpPartitionInjector.SRC_IP6_MAP = _ from haddr]
    have hsize : addr.toList.length = 16 := by simp
    refine decides_pass.unless fun hlen => .bind (ip6Matches_eq (by omega)) ?_
    refine decides_pass.unless fun hip => .or fun hany => .bind (load8_byteAt (by omega)) ?_
    exact decides_transport hport _ _
  have hsize : addr.toList.length = 16 := by simp
  refine hbody.congr ?_
  rw [not_not, decide_eq_true_eq, hsize, anyPort_iff, Nat.not_lt]
  constructor
  · rintro ⟨hlen, hip, hrest⟩
    exact ⟨hether, hlen, hip, hrest⟩
  · rintro ⟨-, hlen, hip, hrest⟩
    exact ⟨hlen, hip, hrest⟩

/-! ## Tags -/

theorem isVlan_byteAt {k : ℕ} :
    isVlan host (fromNeBytes16 host (byteAt frame k) (byteAt frame (k + 1))) = true ↔
      IsTag (wordAt frame k) := by
  rw [isVlan, decide_eq_true_iff, fromNeBytes16_eq_htons_iff, fromNeBytes16_eq_htons_iff]
  rfl

theorem vlanHdr_of_le {l3 : ℕ} (h : l3 + 4 ≤ frame.length) : vlanHdr host frame l3 =
    .ok (fromNeBytes16 host (byteAt frame (l3 + 2)) (byteAt frame (l3 + 2 + 1)), l3 + 4) := by
  rw [vlanHdr, if_neg (Nat.not_lt.mpr h), load16_byteAt (by omega)]
  rfl

theorem vlanHdr_of_lt {l3 : ℕ} (h : frame.length < l3 + 4) :
    vlanHdr host frame l3 = .err .pass := by
  rw [vlanHdr, if_pos h]

theorem peeled_le (frame : Frame) (max k : ℕ) : peeled frame max k ≤ max := by
  induction max generalizing k with
  | zero => exact Nat.le_refl 0
  | succ max ih =>
    rw [peeled]
    split_ifs
    · exact Nat.succ_le_succ (ih (k + 4))
    · exact Nat.zero_le _

/-- Behind the tags stands an EtherType, or a tag is cut off. -/
theorem peelVlan_cases (host : Endian) (frame : Frame) :
    (peelVlan host frame (fromNeBytes16 host (byteAt frame 12) (byteAt frame 13)) 14 =
      .ok (fromNeBytes16 host (byteAt frame (12 + 4 * tagsPeeled frame))
        (byteAt frame (12 + 4 * tagsPeeled frame + 1)), 14 + 4 * tagsPeeled frame)) ∨
    (peelVlan host frame (fromNeBytes16 host (byteAt frame 12) (byteAt frame 13)) 14 =
      .err .pass ∧ IsTag (wordAt frame (12 + 4 * tagsPeeled frame))) := by
  unfold peelVlan tagsPeeled
  by_cases htag : IsTag (wordAt frame 12)
  · rw [if_pos (isVlan_byteAt.mpr htag)]
    by_cases hlen : 18 ≤ frame.length
    · rw [vlanHdr_of_le hlen, ok_bind, peeled, if_pos ⟨htag, hlen⟩]
      dsimp only
      by_cases htag' : IsTag (wordAt frame 16)
      · rw [if_pos (isVlan_byteAt.mpr htag')]
        by_cases hlen' : 22 ≤ frame.length
        · rw [vlanHdr_of_le hlen', peeled, if_pos ⟨htag', hlen'⟩]
          exact Or.inl rfl
        · rw [vlanHdr_of_lt (Nat.not_le.mp hlen'), peeled, if_neg fun h => hlen' h.2]
          exact Or.inr ⟨rfl, htag'⟩
      · rw [if_neg (fun h => htag' (isVlan_byteAt.mp h)), peeled, if_neg fun h => htag' h.1]
        exact Or.inl rfl
    · rw [vlanHdr_of_lt (Nat.not_le.mp hlen), err_bind, peeled, if_neg fun h => hlen h.2]
      exact Or.inr ⟨rfl, htag⟩
  · rw [if_neg (fun h => htag (isVlan_byteAt.mp h)), peeled, if_neg fun h => htag h.1]
    exact Or.inl rfl

/-! ## The program -/

/-- The branch on the EtherType at `k`. -/
def etherTypeBranch (host : Endian) (maps : Bpf) (frame : Frame) (k : ℕ) : Xdp XdpAction :=
  if fromNeBytes16 host (byteAt frame k) (byteAt frame (k + 1)) = htons host ETH_P_IP then
    partitionV4 host maps frame (k + 2)
  else if fromNeBytes16 host (byteAt frame k) (byteAt frame (k + 1)) = htons host ETH_P_IPV6 then
    partitionV6 host maps frame (k + 2)
  else .ok .pass

section
variable {addr4 : Vector UInt8 4} {addr6 : Vector UInt8 16}

theorem decides_etherType (h4 : MapHolds host maps (.v4 addr4))
    (h6 : MapHolds host maps (.v6 addr6))
    (hport : (maps.u32 XdpPartitionInjector.SRC_PORT_MAP).toNat < 2 ^ 16) (k : ℕ) :
    Decides (etherTypeBranch host maps frame k)
      (Matches4 addr4 (maps.u32 XdpPartitionInjector.SRC_PORT_MAP).toNat frame (k + 2) ∨
        Matches6 addr6 (maps.u32 XdpPartitionInjector.SRC_PORT_MAP).toNat frame (k + 2)) := by
  have hip : fromNeBytes16 host (byteAt frame k) (byteAt frame (k + 1)) = htons host ETH_P_IP ↔
      wordAt frame k = 0x0800 := fromNeBytes16_eq_htons_iff
  have hip6 : fromNeBytes16 host (byteAt frame k) (byteAt frame (k + 1)) = htons host ETH_P_IPV6 ↔
      wordAt frame k = 0x86DD := fromNeBytes16_eq_htons_iff
  unfold etherTypeBranch
  by_cases hv4 : fromNeBytes16 host (byteAt frame k) (byteAt frame (k + 1)) = htons host ETH_P_IP
  · rw [if_pos hv4]
    refine (decides_partitionV4 h4 hport (hip.mp hv4)).congr ⟨Or.inl, fun h => ?_⟩
    exact h.resolve_right fun hm =>
      absurd ((hip.mp hv4).symm.trans hm.etherType) (by decide)
  · rw [if_neg hv4]
    have hnot4 : ¬ Matches4 addr4 (maps.u32 XdpPartitionInjector.SRC_PORT_MAP).toNat frame
        (k + 2) := fun hm => hv4 (hip.mpr hm.etherType)
    rw [or_iff_right hnot4]
    by_cases hv6 : fromNeBytes16 host (byteAt frame k) (byteAt frame (k + 1)) =
        htons host ETH_P_IPV6
    · rw [if_pos hv6]
      exact decides_partitionV6 h6 hport (hip6.mp hv6)
    · rw [if_neg hv6]
      exact decides_pass.congr ⟨False.elim, fun hm => hv6 (hip6.mpr hm.etherType)⟩

theorem length_of_matches {port l3 : ℕ}
    (h : Matches4 addr4 port frame l3 ∨ Matches6 addr6 port frame l3) : l3 ≤ frame.length := by
  obtain hm | hm := h
  · exact Nat.le_of_add_right_le hm.header
  · exact Nat.le_of_add_right_le hm.header

theorem not_isTag_of_matches {port l3 : ℕ}
    (h : Matches4 addr4 port frame l3 ∨ Matches6 addr6 port frame l3) :
    ¬ IsTag (wordAt frame (l3 - 2)) := by
  obtain hm | hm := h
  · rw [hm.etherType]
    decide
  · rw [hm.etherType]
    decide

theorem decides_partitionBody (h4 : MapHolds host maps (.v4 addr4))
    (h6 : MapHolds host maps (.v6 addr6))
    (hport : (maps.u32 XdpPartitionInjector.SRC_PORT_MAP).toNat < 2 ^ 16) (frame : Frame) :
    Decides (partitionBody host maps frame)
      (maps.u32 XdpPartitionInjector.ENABLED_MAP ≠ 0 ∧
        (Matches4 addr4 (maps.u32 XdpPartitionInjector.SRC_PORT_MAP).toNat frame
            (14 + 4 * tagsPeeled frame) ∨
          Matches6 addr6 (maps.u32 XdpPartitionInjector.SRC_PORT_MAP).toNat frame
            (14 + 4 * tagsPeeled frame))) := by
  have hl3 : 14 + 4 * tagsPeeled frame = 12 + 4 * tagsPeeled frame + 2 := by omega
  unfold partitionBody
  refine decides_pass.unless fun henabled => ?_
  by_cases hlen : 14 > frame.length
  · rw [if_pos hlen]
    refine decides_pass.congr ⟨False.elim, fun hm => ?_⟩
    have hshort := length_of_matches hm
    omega
  · rw [if_neg hlen, load16_byteAt (by omega), ok_bind]
    obtain hpeel | ⟨hpeel, htag⟩ := peelVlan_cases host frame
    · rw [hpeel, ok_bind, hl3]
      exact decides_etherType h4 h6 hport (12 + 4 * tagsPeeled frame)
    · -- the EtherType is that of the tag which is cut off
      rw [hpeel, err_bind, hl3]
      exact decides_err.congr ⟨False.elim, fun hm => not_isTag_of_matches hm htag⟩

/-- A header on the way to a Fragment header has no port. -/
theorem LeadsToFragment.not_hasSourcePort {nexthdr : UInt8} {l4 : ℕ}
    (h : LeadsToFragment frame nexthdr l4) (l4' port : ℕ) :
    ¬ HasSourcePort frame nexthdr l4' port := by
  rintro ⟨⟨hproto, -⟩ | ⟨hproto, -⟩, -⟩
  · cases h with
    | fragment => exact absurd hproto (by decide)
    | extension hudp _ _ => exact hudp hproto
  · cases h with
    | fragment => exact absurd hproto (by decide)
    | extension _ htcp _ => exact htcp hproto

theorem not_matches_of_nonInitialFragment {port l3 : ℕ} (hport : port ≠ 0)
    (h : NonInitialFragment frame l3) :
    ¬ (Matches4 addr4 port frame l3 ∨ Matches6 addr6 port frame l3) := by
  rintro (hm | hm)
  · obtain ⟨-, hoff⟩ | ⟨hether, -⟩ := h
    · exact hoff (hm.port.resolve_left hport).1
    · exact absurd (hm.etherType.symm.trans hether) (by decide)
  · obtain ⟨hether, -⟩ | ⟨-, hchain⟩ := h
    · exact absurd (hm.etherType.symm.trans hether) (by decide)
    · obtain hsrc | ⟨-, -, hoff, hsrc⟩ := hm.port.resolve_left hport
      · exact hchain.not_hasSourcePort _ _ hsrc
      · -- the one Fragment header that is skipped has no offset, so the chain goes on behind it
        generalize byteAt frame (l3 + 6) = nexthdr at hchain
        cases hchain with
        | fragment hne => exact hne hoff
        | extension _ _ hnext => exact hnext.not_hasSourcePort _ _ hsrc

/-- **The verdict.** The program reads only bytes of the frame, and it drops the frame exactly if
it is switched on and the frame, behind up to two VLAN tags, is a packet from the peer. With a port
configured no fragment other than the first is dropped. -/
theorem partition_verdict (host : Endian) (maps : Bpf) (addr4 : Vector UInt8 4)
    (addr6 : Vector UInt8 16) (frame : Frame) (h4 : MapHolds host maps (.v4 addr4))
    (h6 : MapHolds host maps (.v6 addr6))
    (hport : (maps.u32 XdpPartitionInjector.SRC_PORT_MAP).toNat < 2 ^ 16) :
    let port := (maps.u32 XdpPartitionInjector.SRC_PORT_MAP).toNat
    let l3 := 14 + 4 * tagsPeeled frame
    tagsPeeled frame ≤ 2 ∧ xdpPartition host maps frame ≠ none ∧
    (xdpPartition host maps frame = some .drop ↔
      maps.u32 XdpPartitionInjector.ENABLED_MAP ≠ 0 ∧
        (Matches4 addr4 port frame l3 ∨ Matches6 addr6 port frame l3)) ∧
    (port ≠ 0 → NonInitialFragment frame l3 → xdpPartition host maps frame = some .pass) := by
  intro port l3
  have hbody := decides_partitionBody h4 h6 hport frame
  have hdrop := xdpPartition_eq_drop_iff.trans hbody.drop
  have hsafe : xdpPartition host maps frame ≠ none := by
    unfold xdpPartition
    cases hx : partitionBody host maps frame with
    | ok action => exact nofun
    | err action => exact nofun
    | panic => exact absurd hx hbody.safe
  refine ⟨peeled_le frame 2 12, hsafe, hdrop, fun hany hfrag => ?_⟩
  cases hx : xdpPartition host maps frame with
  | none => exact absurd hx hsafe
  | some action =>
    cases action with
    | pass => rfl
    | drop => exact absurd (hdrop.mp hx).2 (not_matches_of_nonInitialFragment hany hfrag)

/-- The maps of a program that drops what comes from port 4660 of 10.0.0.1. -/
def peerMaps (host : Endian) : Bpf :=
  [.u32 XdpPartitionInjector.SRC_IP_MAP (fromNeBytes host #v[10, 0, 0, 1]),
    .u32 XdpPartitionInjector.SRC_PORT_MAP 0x1234,
    .u32 XdpPartitionInjector.ENABLED_MAP 1].foldl MapWrite.apply .zeroed

/-- A UDP datagram from the port 4660 of 10.0.0.1 behind one tag. -/
def taggedFrame : Frame :=
  List.replicate 12 0 ++ [0x81, 0x00, 0x00, 0x2A, 0x08, 0x00] ++
    [0x45, 0, 0, 28, 0, 0, 0, 0, 64, 17, 0, 0, 10, 0, 0, 1, 10, 0, 0, 2] ++
    [0x12, 0x34, 0x00, 0x50, 0, 8, 0, 0]

/-- It is dropped, so it is an IPv4 packet from the peer at 18. -/
theorem partition_verdict_tagged :
    tagsPeeled taggedFrame = 1 ∧
    xdpPartition .little (peerMaps .little) taggedFrame = some .drop ∧
    Matches4 #v[10, 0, 0, 1] 0x1234 taggedFrame 18 := by
  have hverdict := partition_verdict .little (peerMaps .little) #v[10, 0, 0, 1]
    (Vector.replicate 16 0) taggedFrame rfl rfl (by decide)
  have htags : tagsPeeled taggedFrame = 1 := by decide
  have hdrop : xdpPartition .little (peerMaps .little) taggedFrame = some .drop := by decide
  refine ⟨htags, hdrop, ?_⟩
  have hmatch := (hverdict.2.2.1.mp hdrop).2
  rw [htags] at hmatch
  exact hmatch.resolve_right fun hm => absurd hm.etherType (by decide)

end

end Blackswan.Kernel
