import Mathlib.Data.Finmap
import Blackswan.Fix.Injector
import Blackswan.Kernel.Cgroup
import Blackswan.Kernel.TimeSkew
import Blackswan.Kernel.Xdp
import Blackswan.Replay.Runner

/-!
# From a scenario config to injectors

`buildInjector` turns an entry of the config into the injector it names. A `LiveInjector` is such
an injector in its environment: what its successive calls will meet outside the process. It is the
`Box<dyn FaultInjector>` of the command line.

`armed_arm` and `armed_disarm` are all that the runner's guarantees need to know about the
injectors: a call that succeeds decides `is_armed`, a call that fails leaves it, except that a
clock-skew injector gives up its child even when `disarm` fails.
-/

namespace Blackswan.Cli

open Lib (Endian)
open Blackswan.Kernel Blackswan.Fix
open Replay (Registry)

/-! ## The config -/

inductive PressureModeConfig where
  | hard
  | soft
  deriving DecidableEq, Repr

inductive InjectorConfig where
  | xdpPacketLoss (iface : String) (dropEveryN : UInt32)
  | xdpCorruption (iface : String) (corruptEveryN offset : UInt32) (mask : UInt8)
  | xdpPartition (iface : String) (srcIp : IpAddr) (srcPort : UInt16)
  | cgroupMemoryPressure (pid : UInt32) (limitBytes : UInt64) (mode : PressureModeConfig)
  | timeSkew (argv : List String) (monotonicOffsetSecs boottimeOffsetSecs : Int64)
  | fixSilentReject (listenAddr upstreamAddr : String)
  | fixAckWithoutExecution (listenAddr upstreamAddr : String)
  | fixRateLimitThrottle (listenAddr upstreamAddr : String) (threshold : UInt64)
  | fixExecutionReportPriceMutation (listenAddr upstreamAddr mutatedPrice : String)
  deriving DecidableEq, Repr

/-- `Config`; the keys of a `HashMap` are distinct. -/
structure Config where
  name : String
  seed : UInt64
  injectors : AList fun _ : String => InjectorConfig
  schedule : List ScenarioStep

/-! ## The injectors -/

/-- The types that `build_injector` boxes. -/
inductive Injector (build : Build) where
  | xdpPacketLoss (injector : XdpPacketLossInjector)
  | xdpCorruption (injector : XdpCorruptionInjector)
  | xdpPartition (injector : XdpPartitionInjector)
  | cgroupMemoryPressure (injector : CgroupMemoryPressureInjector)
  | timeSkew (injector : TimeSkewInjector)
  | fix (injector : FixFaultInjector (FixAdapter build))

def buildInjector (build : Build) (id : String) : InjectorConfig → Injector build
  | .xdpPacketLoss iface dropEveryN => .xdpPacketLoss (.new id iface dropEveryN)
  | .xdpCorruption iface corruptEveryN offset mask =>
    .xdpCorruption (.new id iface corruptEveryN offset mask)
  | .xdpPartition iface srcIp srcPort => .xdpPartition (.new id iface srcIp srcPort)
  | .cgroupMemoryPressure pid limitBytes mode =>
    let mode := match mode with
      | .hard => PressureMode.hard
      | .soft => PressureMode.soft
    .cgroupMemoryPressure (.new id pid limitBytes mode)
  | .timeSkew argv monotonicOffsetSecs boottimeOffsetSecs =>
    .timeSkew (.new id argv monotonicOffsetSecs boottimeOffsetSecs)
  | .fixSilentReject listenAddr upstreamAddr =>
    .fix (.new id listenAddr upstreamAddr (.silentReject ⟨⟩))
  | .fixAckWithoutExecution listenAddr upstreamAddr =>
    .fix (.new id listenAddr upstreamAddr (.ackWithoutExecution ⟨⟩))
  | .fixRateLimitThrottle listenAddr upstreamAddr threshold =>
    .fix (.new id listenAddr upstreamAddr (.rateLimitThrottle (.new threshold)))
  | .fixExecutionReportPriceMutation listenAddr upstreamAddr mutatedPrice =>
    .fix (.new id listenAddr upstreamAddr
      (.executionReportPriceMutation ⟨mutatedPrice.toUTF8.toList⟩))

/-- What one call meets outside the process, whichever injector it is on. -/
structure CallEnv where
  xdp : XdpEnv
  cgroup : CgroupEnv
  timeSkew : TimeSkewEnv
  fix : FixEnv

namespace Injector

variable {build : Build}

def arm (host : Endian) (env : CallEnv) : Injector build → Except HarnessError Unit × Injector build
  | .xdpPacketLoss i => (i.arm env.xdp).map id .xdpPacketLoss
  | .xdpCorruption i => (i.arm env.xdp).map id .xdpCorruption
  | .xdpPartition i => (i.arm host env.xdp).map id .xdpPartition
  | .cgroupMemoryPressure i => (i.arm env.cgroup).map id .cgroupMemoryPressure
  | .timeSkew i => (i.arm env.timeSkew).map id .timeSkew
  | .fix i => (i.arm env.fix).map id .fix

def disarm (host : Endian) (env : CallEnv) :
    Injector build → Except HarnessError Unit × Injector build
  | .xdpPacketLoss i => (i.disarm env.xdp).map id .xdpPacketLoss
  | .xdpCorruption i => (i.disarm env.xdp).map id .xdpCorruption
  | .xdpPartition i => (i.disarm host env.xdp).map id .xdpPartition
  | .cgroupMemoryPressure i => (i.disarm env.cgroup).map id .cgroupMemoryPressure
  | .timeSkew i => (i.disarm env.timeSkew).map id .timeSkew
  | .fix i => i.disarm.map id .fix

def isArmed : Injector build → Bool
  | .xdpPacketLoss i => i.armed
  | .xdpCorruption i => i.armed
  | .xdpPartition i => i.armed
  | .cgroupMemoryPressure i => i.armed
  | .timeSkew i => i.isArmed
  | .fix i => i.isArmed

def IsTimeSkew : Injector build → Prop
  | .timeSkew _ => True
  | _ => False

/-- A call does not change what kind of injector this is. -/
theorem isTimeSkew_arm (host : Endian) (env : CallEnv) (i : Injector build) :
    (i.arm host env).2.IsTimeSkew ↔ i.IsTimeSkew := by
  rcases i with _ | _ | _ | _ | _ | _ <;> exact Iff.rfl

theorem isTimeSkew_disarm (host : Endian) (env : CallEnv) (i : Injector build) :
    (i.disarm host env).2.IsTimeSkew ↔ i.IsTimeSkew := by
  rcases i with _ | _ | _ | _ | _ | _ <;> exact Iff.rfl

/-- **`arm`** sets `is_armed` if it succeeds and leaves it otherwise. -/
theorem armed_arm (host : Endian) (env : CallEnv) (i : Injector build) :
    ((i.arm host env).1 = .ok () ∧ (i.arm host env).2.isArmed = true) ∨
      ∃ e, (i.arm host env).1 = .error e ∧ (i.arm host env).2.isArmed = i.isArmed := by
  -- the three XDP injectors share their machine
  have hxdp : ∀ (fault : XdpFault) (hook : XdpHook),
      ((fault.arm env.xdp hook).1 = .ok () ∧ (fault.arm env.xdp hook).2.armed = true) ∨
        ∃ e, (fault.arm env.xdp hook).1 = .error e ∧
          (fault.arm env.xdp hook).2.armed = hook.armed := by
    intro fault hook
    rcases fault.armed_arm env.xdp hook with ⟨bpf, h⟩ | ⟨e, bpf, h⟩
    · exact Or.inl (by rw [h]; exact ⟨rfl, rfl⟩)
    · exact Or.inr ⟨e, by rw [h]; exact ⟨rfl, rfl⟩⟩
  rcases i with i | i | i | i | i | i
  · exact hxdp i.fault i.toXdpHook
  · exact hxdp i.fault i.toXdpHook
  · exact hxdp (i.fault host) i.toXdpHook
  · exact i.armed_arm env.cgroup
  · exact i.armed_arm env.timeSkew
  · rcases i.arm_cases env.fix with h | ⟨e, h⟩
    · exact Or.inl (by simp [arm, isArmed, FixFaultInjector.isArmed, h])
    · exact Or.inr ⟨e, by simp [arm, isArmed, h]⟩

/-- **`disarm`** clears `is_armed` if it succeeds; if it fails, only a clock skew is cleared. -/
theorem armed_disarm (host : Endian) (env : CallEnv) (i : Injector build) :
    ((i.disarm host env).1 = .ok () ∧ (i.disarm host env).2.isArmed = false) ∨
      ∃ e, (i.disarm host env).1 = .error e ∧
        ((i.disarm host env).2.isArmed = true ↔ i.isArmed = true ∧ ¬ i.IsTimeSkew) := by
  have hxdp : ∀ (fault : XdpFault) (hook : XdpHook),
      ((fault.disarm env.xdp hook).1 = .ok () ∧ (fault.disarm env.xdp hook).2.armed = false) ∨
        ∃ e, (fault.disarm env.xdp hook).1 = .error e ∧
          ((fault.disarm env.xdp hook).2.armed = true ↔ hook.armed = true ∧ ¬ False) := by
    intro fault hook
    rcases fault.armed_disarm env.xdp hook with ⟨bpf, h⟩ | ⟨e, bpf, h⟩
    · exact Or.inl (by rw [h]; exact ⟨rfl, rfl⟩)
    · exact Or.inr ⟨e, by rw [h]; simp⟩
  rcases i with i | i | i | i | i | i
  · exact hxdp i.fault i.toXdpHook
  · exact hxdp i.fault i.toXdpHook
  · exact hxdp (i.fault host) i.toXdpHook
  · rcases i.armed_disarm env.cgroup with h | ⟨e, he, h⟩
    · exact Or.inl h
    · exact Or.inr ⟨e, he, by simp [disarm, isArmed, IsTimeSkew, h]⟩
  · have hclear := i.isArmed_disarm env.timeSkew
    rcases hres : (i.disarm env.timeSkew).1 with e | ⟨⟩
    · exact Or.inr ⟨e, hres, by simp [disarm, isArmed, IsTimeSkew, hclear]⟩
    · exact Or.inl ⟨hres, hclear⟩
  · exact Or.inl ⟨rfl, rfl⟩

theorem isArmed_buildInjector (id : String) (config : InjectorConfig) :
    (buildInjector build id config).isArmed = false := by
  rcases config with _ | _ | _ | _ | _ | _ | _ | _ | _ <;> rfl

theorem isTimeSkew_buildInjector (id : String) (config : InjectorConfig) :
    (buildInjector build id config).IsTimeSkew ↔
      ∃ argv monotonicOffsetSecs boottimeOffsetSecs,
        config = .timeSkew argv monotonicOffsetSecs boottimeOffsetSecs := by
  rcases config with _ | _ | _ | _ | _ | _ | _ | _ | _ <;> simp [buildInjector, IsTimeSkew]

end Injector

/-! ## Injectors in their environment -/

/-- An injector on a host, with what its calls from now on will meet: `env n` is for the `n`-th. -/
structure LiveInjector (build : Build) where
  host : Endian
  injector : Injector build
  env : ℕ → CallEnv

variable {build : Build}

namespace LiveInjector

def arm (self : LiveInjector build) : Except HarnessError Unit × LiveInjector build :=
  let res := self.injector.arm self.host (self.env 0)
  (res.1, ⟨self.host, res.2, fun n => self.env (n + 1)⟩)

def disarm (self : LiveInjector build) : Except HarnessError Unit × LiveInjector build :=
  let res := self.injector.disarm self.host (self.env 0)
  (res.1, ⟨self.host, res.2, fun n => self.env (n + 1)⟩)

end LiveInjector

instance : FaultInjector (LiveInjector build) where
  arm self _ := self.arm
  disarm self := self.disarm
  isArmed self := self.injector.isArmed

instance : SettlingInjector (LiveInjector build) where
  arm_ok self _ h := by
    rcases self.injector.armed_arm self.host (self.env 0) with ⟨-, harmed⟩ | ⟨e, he, -⟩
    · exact harmed
    · exact absurd (he.symm.trans h) (by simp)
  disarm_ok self h := by
    rcases self.injector.armed_disarm self.host (self.env 0) with ⟨-, harmed⟩ | ⟨e, he, -⟩
    · exact harmed
    · exact absurd (he.symm.trans h) (by simp)

/-- `cfg.injectors.into_iter().map(..).collect()`, on a host and with the environment of each. -/
def buildInjectors (build : Build) (host : Endian) (envs : String → ℕ → CallEnv) (cfg : Config) :
    Registry (LiveInjector build) :=
  (cfg.injectors.entries.map (.map id fun faultId ic =>
    (⟨host, buildInjector build faultId ic, envs faultId⟩ : LiveInjector build))).toFinmap

def buildScenarioAndInjectors (build : Build) (host : Endian) (envs : String → ℕ → CallEnv)
    (cfg : Config) : Scenario × Registry (LiveInjector build) :=
  (⟨cfg.name, cfg.seed, cfg.schedule⟩, buildInjectors build host envs cfg)

theorem lookup_buildInjectors (host : Endian) (envs : String → ℕ → CallEnv) (cfg : Config)
    (faultId : String) :
    (buildInjectors build host envs cfg).lookup faultId =
      (cfg.injectors.lookup faultId).map fun ic =>
        ⟨host, buildInjector build faultId ic, envs faultId⟩ := by
  rw [buildInjectors, Finmap.dlookup_list_toFinmap, List.dlookup_map₂]
  rfl

end Blackswan.Cli
