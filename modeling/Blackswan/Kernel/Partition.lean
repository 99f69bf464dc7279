import Mathlib.Tactic.SplitIfs
import Blackswan.Kernel.Setup

/-!
# The partition program

`xdpPartition` is the XDP program behind `XdpPartitionInjector`, for a host of either byte order.
The question is which peer it cuts off, given what `arm` writes to its maps.

1. `SourceAddr` says, from the wire format alone, what the network-layer source address of a frame
   is; a frame has at most one (`SourceAddr.unique`).
2. `sourceAddr_of_drop` shows that a dropped frame has a source address, and that it is the one in
   the map of its own family.
3. `mapHolds_iff_of_arm_new` shows what a first `arm` leaves in the two address maps: the peer's
   address in one, zeros in the other.
-/

namespace Blackswan.Kernel

open Lib Lib.Outcome

/-! ## The program -/

/-- The bytes from `data` to `data_end`. -/
abbrev Frame := List UInt8

inductive XdpAction where
  | pass
  | drop
  deriving DecidableEq, Repr

/-- Part of an XDP program: it goes on with a value (`ok`), returns from the program (`err`), or
reads outside of the frame (`panic`). -/
abbrev Xdp := Outcome XdpAction

def ETH_P_IP : UInt16 := 0x0800
def ETH_P_IPV6 : UInt16 := 0x86DD
def ETH_P_8021Q : UInt16 := 0x8100
def ETH_P_8021AD : UInt16 := 0x88A8

def IPPROTO_TCP : UInt8 := 6
def IPPROTO_UDP : UInt8 := 17
def IPPROTO_FRAGMENT : UInt8 := 44

/-- The source port, or nothing where the program has -1. -/
def extractSrcPort (host : Endian) (frame : Frame) (l4 : ℕ) (proto : UInt8) :
    Xdp (Option UInt16) :=
  if proto = IPPROTO_UDP then
    -- struct udphdr
    if l4 + 8 > frame.length then .ok none
    else (load16 host frame l4).map fun source => some (ntohs host source)
  else if proto = IPPROTO_TCP then
    -- struct tcphdr
    if l4 + 20 > frame.length then .ok none
    else (load16 host frame l4).map fun source => some (ntohs host source)
  else .ok none

def isVlan (host : Endian) (hProto : UInt16) : Bool :=
  hProto = htons host ETH_P_8021Q ∨ hProto = htons host ETH_P_8021AD

/-- A `struct vlan_hdr` at `l3`: the encapsulated protocol, and where that starts. -/
def vlanHdr (host : Endian) (frame : Frame) (l3 : ℕ) : Xdp (UInt16 × ℕ) :=
  if l3 + 4 > frame.length then .err .pass
  else (load16 host frame (l3 + 2)).map fun hProto => (hProto, l3 + 4)

/-- Up to two tags. -/
def peelVlan (host : Endian) (frame : Frame) (hProto : UInt16) (l3 : ℕ) : Xdp (UInt16 × ℕ) :=
  if isVlan host hProto then
    (vlanHdr host frame l3).bind fun (hProto, l3) =>
      if isVlan host hProto then vlanHdr host frame l3 else .ok (hProto, l3)
  else .ok (hProto, l3)

/-- The comparison at the end of the program, once both branches have met. -/
def comparePort (wantPort : UInt32) : Option UInt16 → Xdp XdpAction
  | none => .ok .pass
  | some srcPort => .ok (if srcPort = wantPort.toUInt16 then .drop else .pass)

/-- The IPv4 branch. Entry 0 of an array map always exists, so no lookup returns `NULL`. -/
def partitionV4 (host : Endian) (maps : Bpf) (frame : Frame) (l3 : ℕ) : Xdp XdpAction :=
  -- struct iphdr
  if l3 + 20 > frame.length then .ok .pass
  else (load8 frame l3).bind fun versionIhl =>
    let ihl := versionIhl.toNat % 16
    if ihl < 5 then .ok .pass
    else
      let l4 := l3 + ihl * 4
      if l4 > frame.length then .ok .pass
      else (load32 host frame (l3 + 12)).bind fun saddr =>
        if saddr ≠ maps.u32 XdpPartitionInjector.SRC_IP_MAP then .ok .pass
        else
          let wantPort := maps.u32 XdpPartitionInjector.SRC_PORT_MAP
          if wantPort = 0 then .ok .drop
          else (load16 host frame (l3 + 6)).bind fun fragOff =>
            if ntohs host fragOff &&& 0x1FFF ≠ 0 then .ok .pass
            else (load8 frame (l3 + 9)).bind fun protocol =>
              (extractSrcPort host frame l4 protocol).bind (comparePort wantPort)

/-- The loop over the bytes of `saddr`, up to the first difference. -/
def ip6Matches (frame : Frame) (saddr : ℕ) : List UInt8 → Xdp Bool
  | [] => .ok true
  | want :: rest => (load8 frame saddr).bind fun byte =>
      if byte ≠ want then .ok false else ip6Matches frame (saddr + 1) rest

/-- The transport header: behind one Fragment header, if there is one. -/
def skipFragment (host : Endian) (frame : Frame) (nexthdr : UInt8) (l4 : ℕ) : Xdp (UInt8 × ℕ) :=
  if nexthdr = IPPROTO_FRAGMENT then
    -- struct ipv6_frag_hdr
    if l4 + 8 > frame.length then .err .pass
    else (load16 host frame (l4 + 2)).bind fun fragOffAndFlags =>
      if ntohs host fragOffAndFlags >>> 3 ≠ 0 then .err .pass
      else (load8 frame l4).map fun nexthdr => (nexthdr, l4 + 8)
  else .ok (nexthdr, l4)

/-- The IPv6 branch. -/
def partitionV6 (host : Endian) (maps : Bpf) (frame : Frame) (l3 : ℕ) : Xdp XdpAction :=
  -- struct ipv6hdr
  if l3 + 40 > frame.length then .ok .pass
  else
    (ip6Matches frame (l3 + 8) (maps.bytes16 XdpPartitionInjector.SRC_IP6_MAP).toList).bind
      fun ip6Matches =>
        if ¬ ip6Matches then .ok .pass
        else
          let wantPort := maps.u32 XdpPartitionInjector.SRC_PORT_MAP
          if wantPort = 0 then .ok .drop
          else (load8 frame (l3 + 6)).bind fun nexthdr =>
            (skipFragment host frame nexthdr (l3 + 40)).bind fun (nexthdr, l4) =>
              (extractSrcPort host frame l4 nexthdr).bind (comparePort wantPort)

/-- The body of the program. -/
def partitionBody (host : Endian) (maps : Bpf) (frame : Frame) : Xdp XdpAction :=
  if maps.u32 XdpPartitionInjector.ENABLED_MAP = 0 then .ok .pass
  -- struct ethhdr
  else if 14 > frame.length then .ok .pass
  else (load16 host frame 12).bind fun hProto =>
    (peelVlan host frame hProto 14).bind fun (hProto, l3) =>
      if hProto = htons host ETH_P_IP then partitionV4 host maps frame l3
      else if hProto = htons host ETH_P_IPV6 then partitionV6 host maps frame l3
      else .ok .pass

/-- `xdp_partition`; nothing if it reads outside of the frame. -/
def xdpPartition (host : Endian) (maps : Bpf) (frame : Frame) : Option XdpAction :=
  match partitionBody host maps frame with
  | .ok action => some action
  | .err action => some action
  | .panic => none

/-! ## Where a frame comes from -/

/-- What follows the MAC addresses of a frame from `src`: VLAN tags, the EtherType and the header
of its family, with the address at its place in it. -/
inductive NetworkSource : Frame → IpAddr → Prop where
  | tagQ {rest : Frame} {src : IpAddr} (tci₀ tci₁ : UInt8) (h : NetworkSource rest src) :
    NetworkSource (0x81 :: 0x00 :: tci₀ :: tci₁ :: rest) src
  | tagAD {rest : Frame} {src : IpAddr} (tci₀ tci₁ : UInt8) (h : NetworkSource rest src) :
    NetworkSource (0x88 :: 0xA8 :: tci₀ :: tci₁ :: rest) src
  | v4 (header : Frame) (octets : Vector UInt8 4) (rest : Frame) (h : header.length = 12) :
    NetworkSource (0x08 :: 0x00 :: (header ++ (octets.toList ++ rest))) (.v4 octets)
  | v6 (header : Frame) (octets : Vector UInt8 16) (rest : Frame) (h : header.length = 8) :
    NetworkSource (0x86 :: 0xDD :: (header ++ (octets.toList ++ rest))) (.v6 octets)

/-- The network-layer source address of a frame. -/
def SourceAddr (frame : Frame) (src : IpAddr) : Prop := NetworkSource (frame.drop 12) src

theorem octets_unique {n : ℕ} {header header' rest rest' : Frame} {octets octets' : Vector UInt8 n}
    (hlen : header.length = header'.length)
    (h : header ++ (octets.toList ++ rest) = header' ++ (octets'.toList ++ rest')) :
    octets = octets' := by
  have hoctets := (List.append_inj h hlen).2
  have hlen' : octets.toList.length = octets'.toList.length := by simp
  exact Vector.toList_inj.mp (List.append_inj hoctets hlen').1

theorem NetworkSource.unique {frame : Frame} {src src' : IpAddr} (h : NetworkSource frame src)
    (h' : NetworkSource frame src') : src = src' := by
  induction h with
  | tagQ _ _ _ ih =>
    cases h' with
    | tagQ _ _ h' => exact ih h'
  | tagAD _ _ _ ih =>
    cases h' with
    | tagAD _ _ h' => exact ih h'
  | v4 header octets rest hlen =>
    generalize hframe : header ++ (octets.toList ++ rest) = payload at h'
    cases h' with
    | v4 header' octets' rest' hlen' =>
      rw [octets_unique (hlen.trans hlen'.symm) hframe]
  | v6 header octets rest hlen =>
    generalize hframe : header ++ (octets.toList ++ rest) = payload at h'
    cases h' with
    | v6 header' octets' rest' hlen' =>
      rw [octets_unique (hlen.trans hlen'.symm) hframe]

theorem SourceAddr.unique {frame : Frame} {src src' : IpAddr} (h : SourceAddr frame src)
    (h' : SourceAddr frame src') : src = src' := NetworkSource.unique h h'

/-! ## A dropped frame comes from the address in the map of its family -/

section
variable {host : Endian} {maps : Bpf} {frame : Frame}

theorem isVlan_iff {b₀ b₁ : UInt8} : isVlan host (fromNeBytes16 host b₀ b₁) ↔
    b₀ = 0x81 ∧ b₁ = 0x00 ∨ b₀ = 0x88 ∧ b₁ = 0xA8 := by
  have hq : htons host ETH_P_8021Q = fromNeBytes16 host 0x81 0x00 := htons_eq host (by decide)
  have had : htons host ETH_P_8021AD = fromNeBytes16 host 0x88 0xA8 := htons_eq host (by decide)
  rw [isVlan, decide_eq_true_iff, hq, had, fromNeBytes16_inj, fromNeBytes16_inj]

/-- The program stands behind an EtherType at `k`, which it has in `hProto`. -/
structure AtEtherType (host : Endian) (frame : Frame) (hProto : UInt16) (k : ℕ) (b₀ b₁ : UInt8) :
    Prop where
  drop : frame.drop k = b₀ :: b₁ :: frame.drop (k + 2)
  word : hProto = fromNeBytes16 host b₀ b₁

/-- A tag that is read is one that the frame has. -/
theorem vlanHdr_spec {hProto hProto' : UInt16} {k l3 : ℕ} {b₀ b₁ : UInt8}
    (hat : AtEtherType host frame hProto k b₀ b₁) (hvlan : isVlan host hProto)
    (h : vlanHdr host frame (k + 2) = .ok (hProto', l3)) :
    l3 = k + 4 + 2 ∧ (∃ c₀ c₁, AtEtherType host frame hProto' (k + 4) c₀ c₁) ∧
      ∀ src, NetworkSource (frame.drop (k + 4)) src → NetworkSource (frame.drop k) src := by
  unfold vlanHdr at h
  split_ifs at h with hlen
  obtain ⟨proto, hload, hres⟩ := Outcome.bind_eq_ok.mp h
  cases hres
  obtain ⟨c₀, c₁, hdrop, hword⟩ := drop_of_load16 hload
  refine ⟨rfl, ⟨c₀, c₁, hdrop, hword⟩, fun src hsrc => ?_⟩
  have htci : frame.drop (k + 2) = frame.get ⟨k + 2, by omega⟩ :: frame.get ⟨k + 3, by omega⟩ ::
      frame.drop (k + 4) := by
    rw [List.drop_eq_getElem_cons (by omega), List.drop_eq_getElem_cons (by omega)]
    rfl
  rw [hat.drop, htci]
  rw [hat.word, isVlan_iff] at hvlan
  rcases hvlan with ⟨rfl, rfl⟩ | ⟨rfl, rfl⟩
  · exact .tagQ _ _ hsrc
  · exact .tagAD _ _ hsrc

theorem peelVlan_spec {hProto hProto' : UInt16} {k l3 : ℕ} {b₀ b₁ : UInt8}
    (hat : AtEtherType host frame hProto k b₀ b₁)
    (h : peelVlan host frame hProto (k + 2) = .ok (hProto', l3)) :
    ∃ k' c₀ c₁, l3 = k' + 2 ∧ AtEtherType host frame hProto' k' c₀ c₁ ∧
      ∀ src, NetworkSource (frame.drop k') src → NetworkSource (frame.drop k) src := by
  unfold peelVlan at h
  split_ifs at h with hvlan
  · obtain ⟨⟨hProto₁, l3₁⟩, hone, h⟩ := Outcome.bind_eq_ok.mp h
    obtain ⟨rfl, ⟨c₀, c₁, hat₁⟩, hsrc₁⟩ := vlanHdr_spec hat hvlan hone
    dsimp only at h
    split_ifs at h with hvlan₁
    · obtain ⟨rfl, ⟨d₀, d₁, hat₂⟩, hsrc₂⟩ := vlanHdr_spec hat₁ hvlan₁ h
      exact ⟨_, d₀, d₁, rfl, hat₂, fun src hsrc => hsrc₁ src (hsrc₂ src hsrc)⟩
    · cases h
      exact ⟨_, c₀, c₁, rfl, hat₁, hsrc₁⟩
  · cases h
    exact ⟨k, b₀, b₁, rfl, hat, fun _ => id⟩

theorem onlyErr_vlanHdr (l3 : ℕ) : (vlanHdr host frame l3).OnlyErr .pass :=
  .ite (onlyErr_err _) (.bind (onlyErr_load16 _ _ _ _) fun _ => onlyErr_ok _ _)

theorem onlyErr_peelVlan (hProto : UInt16) (l3 : ℕ) :
    (peelVlan host frame hProto l3).OnlyErr .pass :=
  .ite (.bind (onlyErr_vlanHdr l3) fun _ => .ite (onlyErr_vlanHdr _) (onlyErr_ok _ _))
    (onlyErr_ok _ _)

theorem onlyErr_extractSrcPort (l4 : ℕ) (proto : UInt8) :
    (extractSrcPort host frame l4 proto).OnlyErr .pass := by
  have hport : ∀ size, (if l4 + size > frame.length then .ok none
      else (load16 host frame l4).map fun source => some (ntohs host source) :
        Xdp (Option UInt16)).OnlyErr .pass :=
    fun _ => .ite (onlyErr_ok _ _) (.bind (onlyErr_load16 _ _ _ _) fun _ => onlyErr_ok _ _)
  exact .ite (hport 8) (.ite (hport 20) (onlyErr_ok _ _))

theorem onlyErr_comparePort (wantPort : UInt32) (srcPort : Option UInt16) :
    (comparePort wantPort srcPort).OnlyErr .pass := by
  rcases srcPort with _ | _ <;> exact onlyErr_ok _ _

theorem onlyErr_partitionV4 (l3 : ℕ) : (partitionV4 host maps frame l3).OnlyErr .pass := by
  refine .ite (onlyErr_ok _ _) (.bind (onlyErr_load8 _ _ _) fun _ => ?_)
  refine .ite (onlyErr_ok _ _) (.ite (onlyErr_ok _ _) (.bind (onlyErr_load32 _ _ _ _) fun _ => ?_))
  refine .ite (onlyErr_ok _ _) (.ite (onlyErr_ok _ _) (.bind (onlyErr_load16 _ _ _ _) fun _ => ?_))
  refine .ite (onlyErr_ok _ _) (.bind (onlyErr_load8 _ _ _) fun protocol => ?_)
  exact .bind (onlyErr_extractSrcPort _ protocol) (onlyErr_comparePort _)

theorem onlyErr_ip6Matches (saddr : ℕ) (want : List UInt8) :
    (ip6Matches frame saddr want).OnlyErr .pass := by
  induction want generalizing saddr with
  | nil => exact onlyErr_ok _ _
  | cons w rest ih =>
    exact .bind (onlyErr_load8 _ frame saddr) fun _ => .ite (onlyErr_ok _ _) (ih (saddr + 1))

theorem onlyErr_skipFragment (nexthdr : UInt8) (l4 : ℕ) :
    (skipFragment host frame nexthdr l4).OnlyErr .pass := by
  refine .ite (.ite (onlyErr_err _) (.bind (onlyErr_load16 _ _ _ _) fun _ => ?_)) (onlyErr_ok _ _)
  exact .ite (onlyErr_err _) (.bind (onlyErr_load8 _ _ _) fun _ => onlyErr_ok _ _)

theorem onlyErr_partitionV6 (l3 : ℕ) : (partitionV6 host maps frame l3).OnlyErr .pass := by
  refine .ite (onlyErr_ok _ _) (.bind (onlyErr_ip6Matches _ _) fun _ => ?_)
  refine .ite (onlyErr_ok _ _) (.ite (onlyErr_ok _ _) (.bind (onlyErr_load8 _ _ _) fun _ => ?_))
  exact .bind (onlyErr_skipFragment _ _) fun ⟨nexthdr, l4⟩ =>
    .bind (onlyErr_extractSrcPort l4 nexthdr) (onlyErr_comparePort _)

/-- Nothing but `XDP_PASS` is returned from inside a header. -/
theorem onlyErr_partitionBody : (partitionBody host maps frame).OnlyErr .pass := by
  refine .ite (onlyErr_ok _ _) (.ite (onlyErr_ok _ _) (.bind (onlyErr_load16 _ _ _ _) fun _ => ?_))
  exact .bind (onlyErr_peelVlan _ 14) fun ⟨_, l3⟩ =>
    .ite (onlyErr_partitionV4 l3) (.ite (onlyErr_partitionV6 l3) (onlyErr_ok _ _))

theorem xdpPartition_eq_drop_iff :
    xdpPartition host maps frame = some .drop ↔ partitionBody host maps frame = .ok .drop := by
  unfold xdpPartition
  rcases h : partitionBody host maps frame with action | action | _
  · simp
  · simp [onlyErr_partitionBody action h]
  · simp

/-- The address map of the family of `src` holds `src`. -/
def MapHolds (host : Endian) (maps : Bpf) : IpAddr → Prop
  | .v4 octets => maps.u32 XdpPartitionInjector.SRC_IP_MAP = fromNeBytes host octets
  | .v6 octets => maps.bytes16 XdpPartitionInjector.SRC_IP6_MAP = octets

/-- A header whose address field starts at `n`, as the address and what is around it. -/
theorem drop_eq_header {l3 n : ℕ} {octets rest : Frame} (hlen : l3 + n ≤ frame.length)
    (h : frame.drop (l3 + n) = octets ++ rest) :
    ((frame.drop l3).take n).length = n ∧
      frame.drop l3 = (frame.drop l3).take n ++ (octets ++ rest) := by
  constructor
  · rw [List.length_take, List.length_drop]
    omega
  · rw [← h, ← List.drop_drop, List.take_append_drop]

/-- A drop comes from the branch that does not pass the frame. -/
theorem ite_pass_eq_drop {p : Prop} [Decidable p] {x : Xdp XdpAction} :
    (if p then .ok .pass else x) = .ok .drop ↔ ¬ p ∧ x = .ok .drop := by
  by_cases h : p
  · simp [h]
  · simp [h]

theorem source_of_partitionV4 {l3 : ℕ} (h : partitionV4 host maps frame l3 = .ok .drop) :
    ∃ header octets rest, header.length = 12 ∧ MapHolds host maps (.v4 octets) ∧
      frame.drop l3 = header ++ (octets.toList ++ rest) := by
  obtain ⟨hlen, h⟩ := ite_pass_eq_drop.mp h
  obtain ⟨versionIhl, -, h⟩ := bind_eq_ok.mp h
  obtain ⟨hihl, h⟩ := ite_pass_eq_drop.mp h
  obtain ⟨hl4, h⟩ := ite_pass_eq_drop.mp h
  obtain ⟨saddr, hload, h⟩ := bind_eq_ok.mp h
  -- Whatever comes after the address matched only decides between passing and dropping.
  obtain ⟨hip, -⟩ := ite_pass_eq_drop.mp h
  obtain ⟨octets, hdrop, hsaddr⟩ := drop_of_load32 hload
  obtain ⟨hheader, heq⟩ := drop_eq_header (by omega) hdrop
  refine ⟨_, octets, _, hheader, ?_, heq⟩
  rw [MapHolds, ← hsaddr]
  exact (not_not.mp hip).symm

theorem drop_of_ip6Matches {saddr : ℕ} {want : List UInt8}
    (h : ip6Matches frame saddr want = .ok true) :
    frame.drop saddr = want ++ frame.drop (saddr + want.length) := by
  induction want generalizing saddr with
  | nil => simp
  | cons w rest ih =>
    obtain ⟨byte, hload, h⟩ := bind_eq_ok.mp h
    by_cases hne : byte ≠ w
    · rw [if_pos hne] at h
      cases h
    rw [if_neg hne] at h
    rw [drop_of_load8 hload, not_not.mp hne, ih h, List.length_cons, List.cons_append,
      Nat.add_right_comm, Nat.add_assoc]

theorem source_of_partitionV6 {l3 : ℕ} (h : partitionV6 host maps frame l3 = .ok .drop) :
    ∃ header octets rest, header.length = 8 ∧ MapHolds host maps (.v6 octets) ∧
      frame.drop l3 = header ++ (octets.toList ++ rest) := by
  obtain ⟨hlen, h⟩ := ite_pass_eq_drop.mp h
  obtain ⟨matched, hmatch, h⟩ := bind_eq_ok.mp h
  rcases matched with _ | _
  · cases h
  · obtain ⟨hheader, heq⟩ := drop_eq_header (by omega) (drop_of_ip6Matches hmatch)
    exact ⟨_, _, _, hheader, rfl, heq⟩

/-- **A dropped frame** has a source address, and the map of its family holds that address. -/
theorem sourceAddr_of_drop (h : xdpPartition host maps frame = some .drop) :
    ∃ src, SourceAddr frame src ∧ MapHolds host maps src := by
  rw [xdpPartition_eq_drop_iff] at h
  obtain ⟨-, h⟩ := ite_pass_eq_drop.mp h
  obtain ⟨-, h⟩ := ite_pass_eq_drop.mp h
  obtain ⟨hProto, hload, h⟩ := bind_eq_ok.mp h
  obtain ⟨b₀, b₁, hdrop, hword⟩ := drop_of_load16 hload
  obtain ⟨⟨hProto', l3⟩, hpeel, h⟩ := bind_eq_ok.mp h
  obtain ⟨k, c₀, c₁, rfl, hat, hsrc⟩ := peelVlan_spec ⟨hdrop, hword⟩ hpeel
  have hip : htons host ETH_P_IP = fromNeBytes16 host 0x08 0x00 := htons_eq host (by decide)
  have hip6 : htons host ETH_P_IPV6 = fromNeBytes16 host 0x86 0xDD := htons_eq host (by decide)
  dsimp only at h
  rw [hat.word, hip, hip6] at h
  split_ifs at h with hv4 hv6
  · obtain ⟨header, octets, rest, hheader, hmap, hpayload⟩ := source_of_partitionV4 h
    obtain ⟨rfl, rfl⟩ := fromNeBytes16_inj.mp hv4
    refine ⟨.v4 octets, hsrc _ ?_, hmap⟩
    rw [hat.drop, hpayload]
    exact .v4 header octets rest hheader
  · obtain ⟨header, octets, rest, hheader, hmap, hpayload⟩ := source_of_partitionV6 h
    obtain ⟨rfl, rfl⟩ := fromNeBytes16_inj.mp hv6
    refine ⟨.v6 octets, hsrc _ ?_, hmap⟩
    rw [hat.drop, hpayload]
    exact .v6 header octets rest hheader
  · cases h

end

/-! ## What a first `arm` writes -/

theorem writeMaps_eq_ok {id : String} {env : XdpEnv} {writes : List MapWrite} {bpf bpf' : Bpf}
    (h : writeMaps id env writes bpf = (.ok (), bpf')) :
    bpf' = writes.foldl MapWrite.apply bpf := by
  induction writes generalizing bpf with
  | nil =>
    cases h
    rfl
  | cons write rest ih =>
    rw [writeMaps, MapWrite.run_eq] at h
    by_cases hok : env.access write.mapName = .ok
    · rw [setMap_ok hok] at h
      exact ih h
    · obtain ⟨e, he⟩ := setMap_refused id bpf hok
      rw [he] at h
      cases h

/-- A first `arm` that succeeds made every write. -/
theorem XdpFault.bpf_of_arm_ok {fault : XdpFault} {env : XdpEnv} {armed : Bool}
    (h : (fault.arm env ⟨none, armed⟩).1 = .ok ()) :
    (fault.arm env ⟨none, armed⟩).2.bpf =
      some ((fault.config ++ [MapWrite.u32 fault.switchMap fault.switchValue]).foldl
        MapWrite.apply .zeroed) := by
  unfold XdpFault.arm XdpFault.ensureLoaded at h ⊢
  rcases hl : fault.loadAndAttach env with e | fresh
  · rw [hl] at h
    cases h
  obtain rfl := XdpFault.loadAndAttach_eq_ok hl
  rw [hl] at h
  rcases hw : writeMaps fault.id env fault.config .zeroed with ⟨e | ⟨⟩, written⟩ <;>
    simp only [hw] at h ⊢
  · cases h
  obtain rfl := writeMaps_eq_ok hw
  by_cases hok : env.access (MapWrite.u32 fault.switchMap fault.switchValue).mapName = .ok
  · rw [setU32Map, setMap_ok hok, List.foldl_append]
    rfl
  · obtain ⟨e, he⟩ := setMap_refused fault.id (fault.config.foldl MapWrite.apply .zeroed) hok
    rw [setU32Map, he] at h
    cases h

/-- The unspecified address of the other family. -/
def IpAddr.otherUnspecified : IpAddr → IpAddr
  | .v4 _ => .v6 (Vector.replicate 16 0)
  | .v6 _ => .v4 (Vector.replicate 4 0)

/-- **The address maps after a first `arm`** hold the peer and, for the family it is not of, the
unspecified address. -/
theorem mapHolds_iff_of_arm_new {host : Endian} {id iface : String} {peer : IpAddr}
    {srcPort : UInt16} {env : XdpEnv} {bpf : Bpf}
    (harm : ((XdpPartitionInjector.new id iface peer srcPort).arm host env).1 = .ok ())
    (hbpf : ((XdpPartitionInjector.new id iface peer srcPort).arm host env).2.bpf = some bpf)
    (src : IpAddr) : MapHolds host bpf src ↔ src = peer ∨ src = peer.otherUnspecified := by
  have hwrites := (XdpFault.bpf_of_arm_ok harm).symm.trans hbpf
  cases hwrites
  have hzero : (0 : UInt32) = fromNeBytes host (Vector.replicate 4 0) := by
    rcases host with _ | _ <;> decide
  rcases peer with octets | octets <;> rcases src with octets' | octets' <;>
    simp [MapHolds, XdpPartitionInjector.fault, XdpPartitionInjector.new,
      XdpPartitionInjector.addressWrite, MapWrite.apply, IpAddr.otherUnspecified, Bpf.zeroed,
      XdpPartitionInjector.SRC_IP_MAP, XdpPartitionInjector.SRC_IP6_MAP,
      XdpPartitionInjector.SRC_PORT_MAP, XdpPartitionInjector.ENABLED_MAP, Function.update,
      hzero, (fromNeBytes_injective host).eq_iff, eq_comm]

/-- **Whom a partition cuts off.** After a first `arm` that succeeds, the program drops a frame only
if the frame comes from the peer, or from the unspecified address of the family the peer is not
of, whose map was never written. -/
theorem drop_source (host : Endian) (id iface : String) (peer : IpAddr) (srcPort : UInt16)
    (env : XdpEnv) (bpf : Bpf) (frame : Frame)
    (harm : ((XdpPartitionInjector.new id iface peer srcPort).arm host env).1 = .ok ())
    (hbpf : ((XdpPartitionInjector.new id iface peer srcPort).arm host env).2.bpf = some bpf)
    (hdrop : xdpPartition host bpf frame = some .drop) :
    ∃ src, SourceAddr frame src ∧ (src = peer ∨ src = peer.otherUnspecified) := by
  obtain ⟨src, hsrc, hmap⟩ := sourceAddr_of_drop hdrop
  exact ⟨src, hsrc, (mapHolds_iff_of_arm_new harm hbpf src).mp hmap⟩

/-- A frame with an IPv4 header and no VLAN tag, from an address that is the peer's. -/
theorem drop_source_peer :
    ∃ src, SourceAddr (List.replicate 12 0 ++ [0x08, 0x00, 0x45] ++ List.replicate 11 0 ++
        [10, 0, 0, 1] ++ List.replicate 4 0) src ∧
      (src = .v4 #v[10, 0, 0, 1] ∨ src = (IpAddr.v4 #v[10, 0, 0, 1]).otherUnspecified) :=
  drop_source .little "peer" "eth0" (.v4 #v[10, 0, 0, 1]) 0 .clear _ _ rfl rfl (by decide)

/-- A peer that is an IPv4 host, and a frame that an IPv6 host without an address sends: it is
dropped, and its source is not the peer. -/
theorem drop_unspecified :
    let armed := (XdpPartitionInjector.new "peer" "eth0" (.v4 #v[10, 0, 0, 1]) 0).arm .little
      .clear
    let frame : Frame := List.replicate 12 0 ++ [0x86, 0xDD] ++ List.replicate 40 0
    armed.1 = .ok () ∧ (∃ bpf, armed.2.bpf = some bpf ∧
      xdpPartition .little bpf frame = some .drop) ∧
      SourceAddr frame (.v6 (Vector.replicate 16 0)) ∧
      ¬ SourceAddr frame (.v4 #v[10, 0, 0, 1]) := by
  have hsrc : SourceAddr (List.replicate 12 0 ++ [0x86, 0xDD] ++ List.replicate 40 0)
      (.v6 (Vector.replicate 16 0)) :=
    .v6 (List.replicate 8 0) (Vector.replicate 16 0) (List.replicate 16 0) rfl
  refine ⟨rfl, ⟨_, rfl, by decide⟩, hsrc, fun hpeer => ?_⟩
  cases hsrc.unique hpeer

end Blackswan.Kernel
