import Mathlib.Logic.Function.Basic
import Blackswan.Core
import Blackswan.Lib.Bytes

/-!
# The XDP injectors

Packet loss, corruption and partition are the same machine: load a BPF object, attach its program,
write the configuration maps once, and from then on toggle one map. `XdpFault` holds what differs
between them and `XdpHook` the state they share; each injector is its own structure and says which
program, maps and values it uses.

What happens outside the process, and so can fail, comes in as an `XdpEnv`, one per call. A map
write takes effect or fails and leaves the map as it was.
-/

namespace Blackswan.Kernel

open Lib (Endian fromNeBytes)

/-- `IpAddr`, by its octets. -/
inductive IpAddr where
  | v4 (octets : Vector UInt8 4)
  | v6 (octets : Vector UInt8 16)
  deriving DecidableEq, Repr

/-! ## A loaded object and its maps -/

/-- A loaded object: entry 0 of its array maps, by name. -/
structure Bpf where
  u32 : String → UInt32
  bytes16 : String → Vector UInt8 16

/-- Array maps start zeroed. -/
def Bpf.zeroed : Bpf := ⟨fun _ => 0, fun _ => Vector.replicate 16 0⟩

/-- How a write to a map goes: the map is not in the object, is of another type, or refuses. -/
inductive MapAccess where
  | ok
  | noMap
  | tryFrom (e : String)
  | set (e : String)
  deriving DecidableEq, Repr

def MapAccess.result (injectorId mapName : String) : MapAccess → Except HarnessError Unit
  | .ok => .ok ()
  | .noMap => .error (.armFailed injectorId s!"no map named {mapName}")
  | .tryFrom e => .error (.armFailed injectorId e)
  | .set e => .error (.armFailed injectorId e)

/-- What one call meets outside the process. -/
structure XdpEnv where
  bpfLoad : Except String Unit
  programMut : String → Option (Except String Unit)
  load : Except String Unit
  attach : String → Except String Unit
  access : String → MapAccess

/-- A write to one of the two kinds of maps. -/
inductive MapWrite where
  | u32 (mapName : String) (value : UInt32)
  | bytes16 (mapName : String) (value : Vector UInt8 16)
  deriving DecidableEq, Repr

def MapWrite.mapName : MapWrite → String
  | .u32 mapName _ => mapName
  | .bytes16 mapName _ => mapName

/-- The object after the write. -/
def MapWrite.apply (bpf : Bpf) : MapWrite → Bpf
  | .u32 mapName value => { bpf with u32 := Function.update bpf.u32 mapName value }
  | .bytes16 mapName value => { bpf with bytes16 := Function.update bpf.bytes16 mapName value }

/-- The common body of `set_u32_map` and `set_bytes16_map`. -/
def setMap (bpf : Bpf) (injectorId : String) (write : MapWrite) (env : XdpEnv) :
    Except HarnessError Unit × Bpf :=
  match (env.access write.mapName).result injectorId write.mapName with
  | .error e => (.error e, bpf)
  | .ok () => (.ok (), write.apply bpf)

def setU32Map (bpf : Bpf) (injectorId mapName : String) (value : UInt32) (env : XdpEnv) :
    Except HarnessError Unit × Bpf := setMap bpf injectorId (.u32 mapName value) env

def setBytes16Map (bpf : Bpf) (injectorId mapName : String) (value : Vector UInt8 16)
    (env : XdpEnv) : Except HarnessError Unit × Bpf :=
  setMap bpf injectorId (.bytes16 mapName value) env

def MapWrite.run (bpf : Bpf) (injectorId : String) (env : XdpEnv) :
    MapWrite → Except HarnessError Unit × Bpf
  | .u32 mapName value => setU32Map bpf injectorId mapName value env
  | .bytes16 mapName value => setBytes16Map bpf injectorId mapName value env

theorem MapWrite.run_eq (bpf : Bpf) (injectorId : String) (env : XdpEnv) (write : MapWrite) :
    write.run bpf injectorId env = setMap bpf injectorId write env := by
  rcases write with _ | _ <;> rfl

/-- One write after the other, up to the first that fails. -/
def writeMaps (injectorId : String) (env : XdpEnv) :
    List MapWrite → Bpf → Except HarnessError Unit × Bpf
  | [], bpf => (.ok (), bpf)
  | write :: rest, bpf =>
    match write.run bpf injectorId env with
    | (.error e, bpf') => (.error e, bpf')
    | (.ok (), bpf') => writeMaps injectorId env rest bpf'

/-! ## The machine the three injectors share -/

/-- What the injectors differ in: the program, the maps written once after attaching, and the map
that `arm` sets and `disarm` clears. -/
structure XdpFault where
  id : String
  iface : String
  programName : String
  config : List MapWrite
  switchMap : String
  switchValue : UInt32

/-- The fields `bpf` and `armed`. -/
structure XdpHook where
  bpf : Option Bpf
  armed : Bool

namespace XdpFault

/-- `ensure_loaded` up to `self.bpf = Some(bpf)`. -/
def loadAndAttach (fault : XdpFault) (env : XdpEnv) : Except HarnessError Bpf :=
  match env.bpfLoad with
  | .error e => .error (.armFailed fault.id e)
  | .ok () =>
    match env.programMut fault.programName with
    | none => .error (.armFailed fault.id s!"no program named {fault.programName} in object")
    | some (.error e) => .error (.armFailed fault.id e)
    | some (.ok ()) =>
      match env.load with
      | .error e => .error (.armFailed fault.id e)
      | .ok () =>
        match env.attach fault.iface with
        | .error e => .error (.armFailed fault.id e)
        | .ok () => .ok .zeroed

/-- `ensure_loaded`, which returns the object in `self.bpf`. The object is stored before the
configuration is written. -/
def ensureLoaded (fault : XdpFault) (env : XdpEnv) (bpf : Option Bpf) :
    Except HarnessError Bpf × Option Bpf :=
  match bpf with
  | some loaded => (.ok loaded, some loaded)
  | none =>
    match fault.loadAndAttach env with
    | .error e => (.error e, none)
    | .ok loaded =>
      match writeMaps fault.id env fault.config loaded with
      | (.error e, written) => (.error e, some written)
      | (.ok (), written) => (.ok written, some written)

def arm (fault : XdpFault) (env : XdpEnv) (hook : XdpHook) : Except HarnessError Unit × XdpHook :=
  match fault.ensureLoaded env hook.bpf with
  | (.error e, bpf) => (.error e, { hook with bpf := bpf })
  | (.ok loaded, _) =>
    match setU32Map loaded fault.id fault.switchMap fault.switchValue env with
    | (.error e, bpf) => (.error e, { hook with bpf := some bpf })
    | (.ok (), bpf) => (.ok (), ⟨some bpf, true⟩)

def disarm (fault : XdpFault) (env : XdpEnv) (hook : XdpHook) :
    Except HarnessError Unit × XdpHook :=
  match hook.bpf with
  | none => (.ok (), { hook with armed := false })
  | some loaded =>
    match setU32Map loaded fault.id fault.switchMap 0 env with
    | (.error e, bpf) => (.error e, { hook with bpf := some bpf })
    | (.ok (), bpf) => (.ok (), ⟨some bpf, false⟩)

/-- `arm` sets `is_armed` if it succeeds and leaves it otherwise. -/
theorem armed_arm (fault : XdpFault) (env : XdpEnv) (hook : XdpHook) :
    (∃ bpf, fault.arm env hook = (.ok (), ⟨some bpf, true⟩)) ∨
      ∃ e bpf, fault.arm env hook = (.error e, ⟨bpf, hook.armed⟩) := by
  unfold arm
  rcases fault.ensureLoaded env hook.bpf with ⟨e | loaded, bpf⟩
  · exact Or.inr ⟨e, bpf, rfl⟩
  · dsimp only
    rcases setU32Map loaded fault.id fault.switchMap fault.switchValue env with ⟨e | ⟨⟩, bpf'⟩
    · exact Or.inr ⟨e, some bpf', rfl⟩
    · exact Or.inl ⟨bpf', rfl⟩

theorem armed_disarm (fault : XdpFault) (env : XdpEnv) (hook : XdpHook) :
    (∃ bpf, fault.disarm env hook = (.ok (), ⟨bpf, false⟩)) ∨
      ∃ e bpf, fault.disarm env hook = (.error e, ⟨bpf, hook.armed⟩) := by
  unfold disarm
  rcases hook.bpf with _ | loaded
  · exact Or.inl ⟨none, rfl⟩
  · dsimp only
    rcases setU32Map loaded fault.id fault.switchMap 0 env with ⟨e | ⟨⟩, bpf⟩
    · exact Or.inr ⟨e, some bpf, rfl⟩
    · exact Or.inl ⟨some bpf, rfl⟩

end XdpFault

/-! ## Packet loss -/

structure XdpPacketLossInjector extends XdpHook where
  id : String
  iface : String
  dropEveryN : UInt32

namespace XdpPacketLossInjector

def new (id iface : String) (dropEveryN : UInt32) : XdpPacketLossInjector :=
  ⟨⟨none, false⟩, id, iface, dropEveryN⟩

def fault (self : XdpPacketLossInjector) : XdpFault where
  id := self.id
  iface := self.iface
  programName := "xdp_pktloss"
  config := []
  switchMap := "drop_every_n"
  switchValue := self.dropEveryN

def arm (self : XdpPacketLossInjector) (env : XdpEnv) :
    Except HarnessError Unit × XdpPacketLossInjector :=
  let res := self.fault.arm env self.toXdpHook
  (res.1, { self with toXdpHook := res.2 })

def disarm (self : XdpPacketLossInjector) (env : XdpEnv) :
    Except HarnessError Unit × XdpPacketLossInjector :=
  let res := self.fault.disarm env self.toXdpHook
  (res.1, { self with toXdpHook := res.2 })

end XdpPacketLossInjector

/-! ## Corruption -/

structure XdpCorruptionInjector extends XdpHook where
  id : String
  iface : String
  corruptEveryN : UInt32
  offset : UInt32
  mask : UInt8

namespace XdpCorruptionInjector

def OFFSET_MAP : String := "corrupt_offset"
def MASK_MAP : String := "corrupt_mask"

def new (id iface : String) (corruptEveryN offset : UInt32) (mask : UInt8) :
    XdpCorruptionInjector := ⟨⟨none, false⟩, id, iface, corruptEveryN, offset, mask⟩

def fault (self : XdpCorruptionInjector) : XdpFault where
  id := self.id
  iface := self.iface
  programName := "xdp_corrupt"
  config := [.u32 OFFSET_MAP self.offset, .u32 MASK_MAP self.mask.toUInt32]
  switchMap := "corrupt_every_n"
  switchValue := self.corruptEveryN

def arm (self : XdpCorruptionInjector) (env : XdpEnv) :
    Except HarnessError Unit × XdpCorruptionInjector :=
  let res := self.fault.arm env self.toXdpHook
  (res.1, { self with toXdpHook := res.2 })

def disarm (self : XdpCorruptionInjector) (env : XdpEnv) :
    Except HarnessError Unit × XdpCorruptionInjector :=
  let res := self.fault.disarm env self.toXdpHook
  (res.1, { self with toXdpHook := res.2 })

end XdpCorruptionInjector

/-! ## Partition -/

structure XdpPartitionInjector extends XdpHook where
  id : String
  iface : String
  srcIp : IpAddr
  srcPort : UInt16

namespace XdpPartitionInjector

def ENABLED_MAP : String := "partition_enabled"
def SRC_IP_MAP : String := "partition_src_ip"
def SRC_IP6_MAP : String := "partition_src_ip6"
def SRC_PORT_MAP : String := "partition_src_port"

def new (id iface : String) (srcIp : IpAddr) (srcPort : UInt16) : XdpPartitionInjector :=
  ⟨⟨none, false⟩, id, iface, srcIp, srcPort⟩

/-- The map of the peer's family gets its address, the other one is not written. -/
def addressWrite (host : Endian) : IpAddr → MapWrite
  | .v4 octets => .u32 SRC_IP_MAP (fromNeBytes host octets)
  | .v6 octets => .bytes16 SRC_IP6_MAP octets

def fault (self : XdpPartitionInjector) (host : Endian) : XdpFault where
  id := self.id
  iface := self.iface
  programName := "xdp_partition"
  config := [addressWrite host self.srcIp, .u32 SRC_PORT_MAP self.srcPort.toUInt32]
  switchMap := ENABLED_MAP
  switchValue := 1

def arm (self : XdpPartitionInjector) (host : Endian) (env : XdpEnv) :
    Except HarnessError Unit × XdpPartitionInjector :=
  let res := (self.fault host).arm env self.toXdpHook
  (res.1, { self with toXdpHook := res.2 })

def disarm (self : XdpPartitionInjector) (host : Endian) (env : XdpEnv) :
    Except HarnessError Unit × XdpPartitionInjector :=
  let res := (self.fault host).disarm env self.toXdpHook
  (res.1, { self with toXdpHook := res.2 })

end XdpPartitionInjector

end Blackswan.Kernel
