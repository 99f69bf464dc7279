import Blackswan.Kernel.Corruption
import Blackswan.Kernel.PacketLoss
import Blackswan.Kernel.Verdict

/-!
# The object of an XDP fault between calls that succeed

A setup that fails halfway leaves an object whose maps are not the configured ones. As long as
every call succeeds there is no such object: its maps are then a function of the configuration and
of `is_armed` alone.

1. `object` is that function, and `Settled.arm` and `Settled.disarm` show that calls which succeed
   lead from one such object to another.
2. `pktloss_object`, `corrupt_object` and `partition_object` say what the three programs make of a
   frame when they find these maps.
-/

namespace Blackswan.Kernel

open Lib (Endian fromNeBytes)

/-! ## Its maps -/

namespace XdpFault

variable {fault : XdpFault} {env : XdpEnv} {hook : XdpHook}

/-- The configuration and the switch, in a fresh object. -/
def object (fault : XdpFault) (armed : Bool) : Bpf :=
  (fault.config ++ [MapWrite.u32 fault.switchMap (if armed then fault.switchValue else 0)]).foldl
    MapWrite.apply .zeroed

/-- Nothing is loaded yet, or the object is the one that belongs to the flag. -/
def Settled (fault : XdpFault) (hook : XdpHook) : Prop :=
  hook = ⟨none, false⟩ ∨ hook.bpf = some (fault.object hook.armed)

/-- The switch is written over. -/
theorem apply_object (fault : XdpFault) (armed armed' : Bool) :
    (MapWrite.u32 fault.switchMap (if armed' then fault.switchValue else 0)).apply
      (fault.object armed) = fault.object armed' := by
  unfold object
  rw [List.foldl_append, List.foldl_append]
  simp only [List.foldl_cons, List.foldl_nil, MapWrite.apply, Function.update_idem]

/-- A write to the switch of such an object that succeeds. -/
theorem setU32Map_object {armed : Bool} (armed' : Bool) {bpf : Bpf}
    (h : setU32Map (fault.object armed) fault.id fault.switchMap
      (if armed' then fault.switchValue else 0) env = (.ok (), bpf)) :
    bpf = fault.object armed' := by
  unfold setU32Map at h
  by_cases hok : env.access (MapWrite.u32 fault.switchMap
      (if armed' then fault.switchValue else 0)).mapName = .ok
  · rw [setMap_ok hok, apply_object] at h
    exact (congrArg Prod.snd h).symm
  · obtain ⟨e, he⟩ := setMap_refused fault.id (fault.object armed) hok
    rw [he] at h
    cases h

/-- An `arm` that succeeds sets up everything, at once or with an earlier one. -/
theorem Settled.arm (h : fault.Settled hook) (hok : (fault.arm env hook).1 = .ok ()) :
    (fault.arm env hook).2 = ⟨some (fault.object true), true⟩ := by
  obtain ⟨bpf, harm⟩ | ⟨e, bpf, harm⟩ := fault.armed_arm env hook
  · obtain rfl | hloaded := h
    · have hbpf := bpf_of_arm_ok hok
      rw [harm] at hbpf ⊢
      obtain rfl := Option.some.inj hbpf
      rfl
    · rw [XdpFault.arm, hloaded] at harm
      simp only [ensureLoaded] at harm
      rcases hset : setU32Map (fault.object hook.armed) fault.id fault.switchMap
        fault.switchValue env with ⟨e | ⟨⟩, bpf'⟩ <;> rw [hset] at harm
      · cases harm
      · rw [XdpFault.arm, hloaded]
        simp only [ensureLoaded, hset]
        rw [setU32Map_object true hset]
  · rw [harm] at hok
    cases hok

/-- A `disarm` that succeeds only turns the switch. -/
theorem Settled.disarm (h : fault.Settled hook) (hok : (fault.disarm env hook).1 = .ok ()) :
    (fault.disarm env hook).2 =
      ⟨hook.bpf.map fun _ => fault.object false, false⟩ := by
  obtain rfl | hloaded := h
  · rfl
  · unfold XdpFault.disarm at hok ⊢
    rw [hloaded] at hok ⊢
    dsimp only at hok ⊢
    rcases hset : setU32Map (fault.object hook.armed) fault.id fault.switchMap 0 env with
      ⟨e | ⟨⟩, bpf⟩ <;> rw [hset] at hok
    · cases hok
    · rw [setU32Map_object false hset]
      rfl

/-- A call that succeeds leaves a settled hook. -/
theorem Settled.call (h : fault.Settled hook) {c : XdpCall} (hok : (fault.call hook c).1 = .ok ()) :
    fault.Settled (fault.call hook c).2 := by
  cases c with
  | arm env =>
    rw [show fault.call hook (.arm env) = fault.arm env hook from rfl] at hok ⊢
    rw [h.arm hok]
    exact Or.inr rfl
  | disarm env =>
    rw [show fault.call hook (.disarm env) = fault.disarm env hook from rfl] at hok ⊢
    rw [h.disarm hok]
    cases hook.bpf with
    | none => exact Or.inl rfl
    | some _ => exact Or.inr rfl

theorem Settled.bpf_of_loaded (h : fault.Settled hook) (hne : hook.bpf ≠ none) :
    hook.bpf = some (fault.object hook.armed) := by
  obtain rfl | hloaded := h
  · exact absurd rfl hne
  · exact hloaded

theorem Settled.loaded_arm {α : Type} (h : fault.Settled hook)
    (hok : (fault.arm env hook).1 = .ok ()) (a : α) :
    ((fault.arm env hook).2.bpf.map fun _ => a) = some a := by
  rw [h.arm hok]
  rfl

theorem Settled.loaded_disarm {α : Type} (h : fault.Settled hook)
    (hok : (fault.disarm env hook).1 = .ok ()) (a : α) :
    ((fault.disarm env hook).2.bpf.map fun _ => a) = hook.bpf.map fun _ => a := by
  rw [h.disarm hok, Option.map_map]
  rfl

end XdpFault

/-! ## What the programs make of a frame -/

/-- Packet loss counts and drops while armed. -/
theorem pktloss_object (self : XdpPacketLossInjector) (armed : Bool) (count : UInt64) :
    xdpPktloss ((self.fault.object armed).u32 "drop_every_n") count =
      if armed ∧ self.dropEveryN ≠ 0 then (pktlossVerdict self.dropEveryN (count + 1), count + 1)
      else (.pass, count) := by
  have hswitch : (self.fault.object armed).u32 "drop_every_n" =
      if armed then self.dropEveryN else 0 := by
    simp [XdpFault.object, XdpPacketLossInjector.fault, MapWrite.apply]
  rw [hswitch, xdpPktloss]
  cases armed with
  | false => simp
  | true => by_cases hn : self.dropEveryN = 0 <;> simp [hn]

/-- Corruption counts and corrupts while armed. -/
theorem corrupt_object (self : XdpCorruptionInjector) (armed : Bool) (count : UInt64)
    (frame : Frame) :
    xdpCorrupt (self.fault.object armed) count frame =
      if armed ∧ self.corruptEveryN ≠ 0 then
        .ok (.pass, corrupted self.corruptEveryN self.offset self.mask (count + 1).toNat frame,
          count + 1)
      else .ok (.pass, frame, count) := by
  have hmaps : (self.fault.object armed).u32 XdpCorruptionInjector.EVERY_N_MAP =
        (if armed then self.corruptEveryN else 0) ∧
      (self.fault.object armed).u32 XdpCorruptionInjector.OFFSET_MAP = self.offset ∧
      (self.fault.object armed).u32 XdpCorruptionInjector.MASK_MAP = self.mask.toUInt32 := by
    simp [XdpFault.object, XdpCorruptionInjector.fault, MapWrite.apply,
      XdpCorruptionInjector.EVERY_N_MAP, XdpCorruptionInjector.OFFSET_MAP,
      XdpCorruptionInjector.MASK_MAP]
  obtain ⟨hevery, hoffset, hmask⟩ := hmaps
  by_cases hon : armed ∧ self.corruptEveryN ≠ 0
  · rw [if_pos hon.1] at hevery
    rw [if_pos hon, xdpCorrupt_on (hevery ▸ hon.2), hevery, hoffset, hmask, UInt8.toUInt8_toUInt32]
  · rw [if_neg hon, xdpCorrupt_off]
    rw [hevery]
    by_cases harmed : armed = true
    · rw [if_pos harmed]
      exact not_not.mp fun hne => hon ⟨harmed, hne⟩
    · rw [if_neg harmed]

/-- What the map of the IPv4 address holds: zeros for a peer of the other family. -/
def IpAddr.octets4 : IpAddr → Vector UInt8 4
  | .v4 octets => octets
  | .v6 _ => Vector.replicate 4 0

def IpAddr.octets6 : IpAddr → Vector UInt8 16
  | .v4 _ => Vector.replicate 16 0
  | .v6 octets => octets

/-- The frame is a packet from the peer, or from the unspecified address of the family the peer is
not of. -/
def FromPeerOrUnspecified (peer : IpAddr) (port : UInt16) (frame : Frame) : Prop :=
  Matches4 peer.octets4 port.toNat frame (14 + 4 * tagsPeeled frame) ∨
    Matches6 peer.octets6 port.toNat frame (14 + 4 * tagsPeeled frame)

/-- While armed the partition drops what comes from the peer, and also what comes from the
unspecified address of the other family. It reads nothing outside of the frame. -/
theorem partition_object (self : XdpPartitionInjector) (host : Endian) (armed : Bool)
    (frame : Frame) :
    ∃ action, xdpPartition host ((self.fault host).object armed) frame = some action ∧
      (action = .drop ↔ armed = true ∧ FromPeerOrUnspecified self.srcIp self.srcPort frame) := by
  have hzero : (0 : UInt32) = fromNeBytes host (Vector.replicate 4 0) := by
    cases host <;> decide
  have hmaps : (MapHolds host ((self.fault host).object armed) (.v4 self.srcIp.octets4)) ∧
      MapHolds host ((self.fault host).object armed) (.v6 self.srcIp.octets6) ∧
      ((self.fault host).object armed).u32 XdpPartitionInjector.SRC_PORT_MAP =
        self.srcPort.toUInt32 ∧
      ((self.fault host).object armed).u32 XdpPartitionInjector.ENABLED_MAP =
        if armed then 1 else 0 := by
    cases hpeer : self.srcIp <;>
      simp [XdpFault.object, XdpPartitionInjector.fault, XdpPartitionInjector.addressWrite, hpeer,
        MapWrite.apply, MapHolds, IpAddr.octets4, IpAddr.octets6, Bpf.zeroed,
        XdpPartitionInjector.SRC_IP_MAP, XdpPartitionInjector.SRC_IP6_MAP,
        XdpPartitionInjector.SRC_PORT_MAP, XdpPartitionInjector.ENABLED_MAP, Function.update, hzero]
  obtain ⟨h4, h6, hport, henabled⟩ := hmaps
  have hnat : self.srcPort.toUInt32.toNat = self.srcPort.toNat := UInt16.toNat_toUInt32 _
  have hbody := decides_partitionBody h4 h6 (by rw [hport, hnat]; exact self.srcPort.toNat_lt) frame
  rw [hport, hnat, henabled] at hbody
  have hdrop := xdpPartition_eq_drop_iff.trans hbody.drop
  have hon : (if armed = true then (1 : UInt32) else 0) ≠ 0 ↔ armed = true := by
    cases armed <;> decide
  cases haction : xdpPartition host ((self.fault host).object armed) frame with
  | none =>
    unfold xdpPartition at haction
    cases hx : partitionBody host ((self.fault host).object armed) frame with
    | panic => exact absurd hx hbody.safe
    | ok action =>
      rw [hx] at haction
      cases haction
    | err action =>
      rw [hx] at haction
      cases haction
  | some action =>
    refine ⟨action, rfl, ?_⟩
    rw [haction, Option.some.injEq, hon] at hdrop
    exact hdrop

end Blackswan.Kernel
