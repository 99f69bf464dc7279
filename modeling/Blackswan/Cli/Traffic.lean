import Blackswan.Cli.Execute
import Blackswan.Kernel.Object
import Blackswan.Lib.Machine

/-!
# A run and the traffic

What a scenario is for: what becomes of the frames that pass an interface while the run goes on.
The runner fires its steps one after the other, and between them frames arrive on the interfaces in
any order. The program that a frame meets is the one that was attached to its interface last: an
interface has room for one, `ensure_loaded` attaches when it loads, and `disarm` does not detach.

1. `governor` says from the fired steps alone which fault has an interface, and `Follows` what is
   then to become of each frame: that is the specification.
2. `Built.perform` says what a call that succeeds leaves of an injector, and `Built.receive` what
   its program makes of a frame.
3. `Wired` says which program is where, and `Exact` adds the counters and the log. `Wired.fire`,
   `Wired.frame` and `Exact.receive` show that every event keeps them.
4. `frames_follow_schedule` reads the fate of every frame off it, and `displaced_for_good` what
   becomes of a fault whose interface another one takes.
-/

namespace Blackswan.Cli

open Lib (Endian)
open Blackswan.Kernel Replay
open FaultInjector (isArmed)

variable {build : Build}

/-! ## The interfaces -/

/-- What an interface does with a second program: refuse it, or put it in the place of the first. -/
inductive AttachMode where
  | refuses
  | replaces
  deriving DecidableEq, Repr

namespace Injector

/-- The interface the program is attached to, from the setup on. -/
def attachedTo : Injector build → Option String
  | .xdpPacketLoss i => i.bpf.map fun _ => i.iface
  | .xdpCorruption i => i.bpf.map fun _ => i.iface
  | .xdpPartition i => i.bpf.map fun _ => i.iface
  | _ => none

/-- The program of the loaded object, on a frame and on its `packet_count`. Nothing if it touches a
byte outside of the frame. -/
def receive (host : Endian) (count : UInt64) (frame : Frame) :
    Injector build → Option (XdpAction × Frame × UInt64)
  | .xdpPacketLoss i => i.bpf.map fun maps =>
      let res := xdpPktloss (maps.u32 "drop_every_n") count
      (res.1, frame, res.2)
  | .xdpCorruption i => i.bpf.bind fun maps =>
      match xdpCorrupt maps count frame with
      | .ok res => some res
      | _ => none
  | .xdpPartition i => i.bpf.bind fun maps =>
      (Kernel.xdpPartition host maps frame).map fun action => (action, frame, count)
  | _ => none

end Injector

/-- A step that was fired, or a frame: the interface, the frame as it came, the verdict, and the
frame as it went on. -/
inductive WireEntry where
  | fired (step : ScenarioStep)
  | frame (iface : String) (input : Frame) (action : XdpAction) (output : Frame)
  deriving DecidableEq, Repr

/-- The runner fires its next step, or a frame arrives. -/
inductive WireEvent where
  | fire
  | frame (iface : String) (bytes : Frame)
  deriving DecidableEq, Repr

/-- The runner and how many steps it has fired, the fault whose program each interface has, the
`packet_count` of each object, and what happened, the latest first. -/
structure Wire (build : Build) where
  runner : Runner (LiveInjector build)
  fired : ℕ
  attached : String → Option String
  packetCount : String → UInt64
  log : List WireEntry

namespace Wire

def start (r : Runner (LiveInjector build)) : Wire build := ⟨r, 0, fun _ => none, fun _ => 0, []⟩

def interfaceOf (injectors : Registry (LiveInjector build)) (id : String) : Option String :=
  (injectors.lookup id).bind fun live => live.injector.attachedTo

/-- The interfaces after a call that leaves the program of `id` attached to `after`. An interface
that refuses a second program does not get to see such a call. -/
def attach (mode : AttachMode) (attached : String → Option String) (id : String) :
    Option String → Option String → Option (String → Option String)
  | none, some iface =>
    if mode = .refuses ∧ attached iface ≠ none then none
    else some (Function.update attached iface (some id))
  | _, _ => some attached

/-- The next step of the schedule. A call that fails ends the run. -/
def fire (mode : AttachMode) (w : Wire build) : Option (Wire build) :=
  match w.runner.schedule.steps[w.fired]? with
  | none => none
  | some step =>
    match w.runner.fireStep step with
    | (.ok (), runner) =>
      (attach mode w.attached step.faultId (interfaceOf w.runner.injectors step.faultId)
        (interfaceOf runner.injectors step.faultId)).map fun attached =>
          ⟨runner, w.fired + 1, attached, w.packetCount, .fired step :: w.log⟩
    | _ => none

def receive (w : Wire build) (iface : String) (frame : Frame) : Option (Wire build) :=
  match w.attached iface with
  | none => some { w with log := .frame iface frame .pass frame :: w.log }
  | some id =>
    (w.runner.injectors.lookup id).bind fun live =>
      (live.injector.receive live.host (w.packetCount id) frame).map fun (action, output, count) =>
        { w with
          packetCount := Function.update w.packetCount id count
          log := .frame iface frame action output :: w.log }

def step (mode : AttachMode) (w : Wire build) : WireEvent → Option (Wire build)
  | .fire => w.fire mode
  | .frame iface bytes => w.receive iface bytes

end Wire

/-! ## What is to become of the frames -/

namespace InjectorConfig

/-- The interface of an XDP fault. -/
def iface : InjectorConfig → Option String
  | .xdpPacketLoss iface _ => some iface
  | .xdpCorruption iface _ _ _ => some iface
  | .xdpPartition iface _ _ => some iface
  | _ => none

/-- What a counting fault counts to. -/
def everyN : InjectorConfig → UInt32
  | .xdpPacketLoss _ dropEveryN => dropEveryN
  | .xdpCorruption _ corruptEveryN _ _ => corruptEveryN
  | _ => 0

/-- What the fault does to a frame, which is the `nth` that it meets while armed. -/
def Treats (armed : Prop) (nth : ℕ) (input : Frame) (action : XdpAction) (output : Frame) :
    InjectorConfig → Prop
  | .xdpPacketLoss _ dropEveryN =>
      output = input ∧ (action = .drop ↔ armed ∧ dropEveryN.toNat ∣ nth)
  | .xdpCorruption _ corruptEveryN offset mask => action = .pass ∧
      (armed → output = corrupted corruptEveryN offset mask nth input) ∧ (¬ armed → output = input)
  | .xdpPartition _ srcIp srcPort =>
      output = input ∧ (action = .drop ↔ armed ∧ FromPeerOrUnspecified srcIp srcPort input)
  | _ => action = .pass ∧ output = input

end InjectorConfig

def Config.iface (cfg : Config) (id : String) : Option String :=
  (cfg.injectors.lookup id).bind InjectorConfig.iface

/-- The steps that were fired, in order. -/
def firedSteps (log : List WireEntry) : List ScenarioStep :=
  (log.filterMap fun
    | .fired step => some step
    | .frame .. => none).reverse

/-- The fault has had a step, and so its first `arm`. -/
def Begun (steps : List ScenarioStep) (id : String) : Prop := ∃ step ∈ steps, step.faultId = id

instance (steps : List ScenarioStep) (id : String) : Decidable (Begun steps id) :=
  inferInstanceAs (Decidable (∃ step ∈ steps, step.faultId = id))

/-- Of the faults of an interface, the one whose first step came last. The latest step is first. -/
def latestOn (cfg : Config) (iface : String) : List ScenarioStep → Option String
  | [] => none
  | step :: older =>
    if cfg.iface step.faultId = some iface ∧ ¬ Begun older step.faultId then
      some step.faultId
    else latestOn cfg iface older

/-- The fault that has the interface after these steps. -/
def governor (cfg : Config) (iface : String) (steps : List ScenarioStep) : Option String :=
  latestOn cfg iface steps.reverse

/-- How many frames a fault met on its interface while it was armed. -/
def seen (cfg : Config) (id : String) : List WireEntry → ℕ
  | [] => 0
  | .fired _ :: older => seen cfg id older
  | .frame iface _ _ _ :: older =>
    seen cfg id older +
      if governor cfg iface (firedSteps older) = some id ∧ ArmedBy (firedSteps older) id then 1
      else 0

/-- What becomes of a frame, by what happened before it. -/
def FrameFate (cfg : Config) (older : List WireEntry) (iface : String) (input : Frame)
    (action : XdpAction) (output : Frame) : Prop :=
  match governor cfg iface (firedSteps older) with
  | none => action = .pass ∧ output = input
  | some id => ∃ ic, cfg.injectors.lookup id = some ic ∧
      ic.Treats (ArmedBy (firedSteps older) id) (seen cfg id older + 1) input action output

/-- **The specification**: every frame has the fate that the schedule so far gives it. -/
def Follows (cfg : Config) : List WireEntry → Prop
  | [] => True
  | .fired _ :: older => Follows cfg older
  | .frame iface input action output :: older =>
    FrameFate cfg older iface input action output ∧ Follows cfg older

section
variable {cfg : Config} {iface : String} {steps : List ScenarioStep}

@[simp] theorem firedSteps_fired (step : ScenarioStep) (log : List WireEntry) :
    firedSteps (.fired step :: log) = firedSteps log ++ [step] := by
  simp [firedSteps]

@[simp] theorem firedSteps_frame (iface : String) (input : Frame) (action : XdpAction)
    (output : Frame) (log : List WireEntry) :
    firedSteps (.frame iface input action output :: log) = firedSteps log := by
  simp [firedSteps]

theorem begun_concat (steps : List ScenarioStep) (step : ScenarioStep) (id : String) :
    Begun (steps ++ [step]) id ↔ Begun steps id ∨ id = step.faultId := by
  simp [Begun, or_and_right, exists_or, eq_comm]

theorem begun_reverse (steps : List ScenarioStep) (id : String) :
    Begun steps.reverse id ↔ Begun steps id := by
  simp [Begun]

theorem governor_concat (cfg : Config) (iface : String) (steps : List ScenarioStep)
    (step : ScenarioStep) :
    governor cfg iface (steps ++ [step]) =
      if cfg.iface step.faultId = some iface ∧ ¬ Begun steps step.faultId then some step.faultId
      else governor cfg iface steps := by
  simp only [governor, List.reverse_append, List.reverse_singleton, List.singleton_append, latestOn,
    begun_reverse]

/-- It is a fault of this interface that has been armed. -/
theorem begun_of_governor {id : String} (h : governor cfg iface steps = some id) :
    cfg.iface id = some iface ∧ Begun steps id := by
  induction steps using List.reverseRecOn with
  | nil => cases h
  | append_singleton steps step ih =>
    rw [governor_concat] at h
    rw [begun_concat]
    split_ifs at h with hfirst
    · obtain rfl := Option.some.inj h
      exact ⟨hfirst.1, Or.inr rfl⟩
    · exact ⟨(ih h).1, Or.inl (ih h).2⟩

/-- A fault that does not have its interface although it has begun does not get it back. -/
theorem governor_append_ne {id : String} (hbegun : Begun steps id)
    (h : governor cfg iface steps ≠ some id) (more : List ScenarioStep) :
    governor cfg iface (steps ++ more) ≠ some id := by
  induction more using List.reverseRecOn with
  | nil =>
    rw [List.append_nil]
    exact h
  | append_singleton more step ih =>
    rw [← List.append_assoc, governor_concat]
    split_ifs with hfirst
    · -- only a fault that begins takes an interface
      intro heq
      obtain rfl := Option.some.inj heq
      obtain ⟨earlier, hmem, heq⟩ := hbegun
      exact hfirst.2 ⟨earlier, List.mem_append_left more hmem, heq⟩
    · exact ih

theorem begun_of_armedBy {id : String} (h : ArmedBy steps id) : Begun steps id := by
  unfold ArmedBy at h
  obtain ⟨step, hlast, -⟩ := Option.map_eq_some_iff.mp h
  have hmem := List.mem_filter.mp (List.mem_of_getLast? hlast)
  exact ⟨step, hmem.1, of_decide_eq_true hmem.2⟩

theorem seen_le_length (cfg : Config) (id : String) (log : List WireEntry) :
    seen cfg id log ≤ log.length := by
  induction log with
  | nil => exact Nat.le_refl 0
  | cons entry older ih =>
    cases entry with
    | fired step => exact Nat.le_succ_of_le ih
    | frame iface input action output =>
      rw [seen, List.length_cons]
      split_ifs <;> omega

end

/-! ## The injectors between calls that succeed -/

/-- The injector that the entry of `id` was built into, after calls that succeeded. -/
inductive Built (host : Endian) (id : String) : InjectorConfig → Injector build → Prop where
  | xdpPacketLoss {iface : String} {dropEveryN : UInt32} {hook : XdpHook}
    (h : (XdpPacketLossInjector.mk hook id iface dropEveryN).fault.Settled hook) :
    Built host id (.xdpPacketLoss iface dropEveryN) (.xdpPacketLoss ⟨hook, id, iface, dropEveryN⟩)
  | xdpCorruption {iface : String} {corruptEveryN offset : UInt32} {mask : UInt8} {hook : XdpHook}
    (h : (XdpCorruptionInjector.mk hook id iface corruptEveryN offset mask).fault.Settled hook) :
    Built host id (.xdpCorruption iface corruptEveryN offset mask)
      (.xdpCorruption ⟨hook, id, iface, corruptEveryN, offset, mask⟩)
  | xdpPartition {iface : String} {srcIp : IpAddr} {srcPort : UInt16} {hook : XdpHook}
    (h : ((XdpPartitionInjector.mk hook id iface srcIp srcPort).fault host).Settled hook) :
    Built host id (.xdpPartition iface srcIp srcPort)
      (.xdpPartition ⟨hook, id, iface, srcIp, srcPort⟩)
  | cgroupMemoryPressure {ic : InjectorConfig} {injector : CgroupMemoryPressureInjector}
    (h : ic.iface = none) : Built host id ic (.cgroupMemoryPressure injector)
  | timeSkew {ic : InjectorConfig} {injector : TimeSkewInjector} (h : ic.iface = none) :
    Built host id ic (.timeSkew injector)
  | fix {ic : InjectorConfig} {injector : Fix.FixFaultInjector (Fix.FixAdapter build)}
    (h : ic.iface = none) : Built host id ic (.fix injector)

section
variable {host : Endian} {id : String} {ic : InjectorConfig} {i : Injector build}

theorem built_buildInjector (host : Endian) (id : String) (ic : InjectorConfig) :
    Built host id ic (buildInjector build id ic) := by
  cases ic with
  | xdpPacketLoss => exact .xdpPacketLoss (Or.inl rfl)
  | xdpCorruption => exact .xdpCorruption (Or.inl rfl)
  | xdpPartition => exact .xdpPartition (Or.inl rfl)
  | cgroupMemoryPressure => exact .cgroupMemoryPressure rfl
  | timeSkew => exact .timeSkew rfl
  | fixSilentReject => exact .fix rfl
  | fixAckWithoutExecution => exact .fix rfl
  | fixRateLimitThrottle => exact .fix rfl
  | fixExecutionReportPriceMutation => exact .fix rfl

/-- **One call.** One that succeeds leaves the injector settled. -/
theorem Built.perform {live : LiveInjector build} (h : Built live.host id ic live.injector)
    {ctx : FaultContext} {action : StepAction}
    (hok : (Runner.perform ctx action live).1 = .ok ()) :
    Built live.host id ic (Runner.perform ctx action live).2.injector := by
  obtain ⟨host, injector, env⟩ := live
  cases h with
  | xdpPacketLoss h =>
    cases action with
    | arm => exact .xdpPacketLoss (h.call (c := .arm (env 0).xdp) hok)
    | disarm => exact .xdpPacketLoss (h.call (c := .disarm (env 0).xdp) hok)
  | xdpCorruption h =>
    cases action with
    | arm => exact .xdpCorruption (h.call (c := .arm (env 0).xdp) hok)
    | disarm => exact .xdpCorruption (h.call (c := .disarm (env 0).xdp) hok)
  | xdpPartition h =>
    cases action with
    | arm => exact .xdpPartition (h.call (c := .arm (env 0).xdp) hok)
    | disarm => exact .xdpPartition (h.call (c := .disarm (env 0).xdp) hok)
  | cgroupMemoryPressure h => cases action <;> exact .cgroupMemoryPressure h
  | timeSkew h => cases action <;> exact .timeSkew h
  | fix h => cases action <;> exact .fix h

theorem host_perform (ctx : FaultContext) (action : StepAction) (live : LiveInjector build) :
    (Runner.perform ctx action live).2.host = live.host := by
  cases action <;> rfl

/-- An `arm` that succeeds leaves the program attached, a `disarm` leaves it where it is. -/
theorem Built.attachedTo_perform {live : LiveInjector build}
    (h : Built live.host id ic live.injector) {ctx : FaultContext} {action : StepAction}
    (hok : (Runner.perform ctx action live).1 = .ok ()) :
    (Runner.perform ctx action live).2.injector.attachedTo =
      if action = .arm then ic.iface else live.injector.attachedTo := by
  obtain ⟨host, injector, env⟩ := live
  cases h with
  | xdpPacketLoss h =>
    cases action with
    | arm => exact h.loaded_arm hok _
    | disarm => exact h.loaded_disarm hok _
  | xdpCorruption h =>
    cases action with
    | arm => exact h.loaded_arm hok _
    | disarm => exact h.loaded_disarm hok _
  | xdpPartition h =>
    cases action with
    | arm => exact h.loaded_arm hok _
    | disarm => exact h.loaded_disarm hok _
  | cgroupMemoryPressure h =>
    cases action with
    | arm => exact h.symm
    | disarm => rfl
  | timeSkew h =>
    cases action with
    | arm => exact h.symm
    | disarm => rfl
  | fix h =>
    cases action with
    | arm => exact h.symm
    | disarm => rfl

/-- **One frame.** The program of an attached fault treats it as the entry of the fault says, and
counts it if the fault is armed and counts. -/
theorem Built.receive (h : Built host id ic i) (hattached : i.attachedTo ≠ none) (count : UInt64)
    (frame : Frame) {nth : ℕ} (hpos : 0 < nth) (hnth : ic.everyN ≠ 0 → nth = (count + 1).toNat) :
    ∃ action output count', i.receive host count frame = some (action, output, count') ∧
      ic.Treats (i.isArmed = true) nth frame action output ∧
      (i.isArmed = true → ic.everyN ≠ 0 → count' = count + 1) ∧
      (i.isArmed = false → count' = count) := by
  cases h with
  | @xdpPacketLoss iface n hook h =>
    have hbpf := h.bpf_of_loaded fun hnone => hattached (by simp [Injector.attachedTo, hnone])
    have hprogram := pktloss_object ⟨hook, id, iface, n⟩ hook.armed count
    simp only [Injector.receive, hbpf, Option.map_some, hprogram]
    by_cases hon : hook.armed = true ∧ n ≠ 0
    · rw [if_pos hon]
      refine ⟨_, frame, _, rfl, ⟨rfl, ?_⟩, fun _ _ => rfl, fun hoff => ?_⟩
      · rw [pktlossVerdict_eq_drop_iff, ← hnth hon.2]
        exact (and_iff_right hon.1).symm
      · exact absurd (hoff.symm.trans hon.1) Bool.false_ne_true
    · rw [if_neg hon]
      refine ⟨_, frame, _, rfl, ⟨rfl, ?_⟩, fun harmed hn => absurd ⟨harmed, hn⟩ hon, fun _ => rfl⟩
      refine iff_of_false nofun fun ⟨harmed, hdvd⟩ => hon ⟨harmed, ?_⟩
      rintro rfl
      exact hpos.ne' (Nat.eq_zero_of_zero_dvd hdvd)
  | @xdpCorruption iface n offset mask hook h =>
    have hbpf := h.bpf_of_loaded fun hnone => hattached (by simp [Injector.attachedTo, hnone])
    have hprogram := corrupt_object ⟨hook, id, iface, n, offset, mask⟩ hook.armed count frame
    simp only [Injector.receive, hbpf, Option.bind_some, hprogram]
    by_cases hon : hook.armed = true ∧ n ≠ 0
    · rw [if_pos hon]
      refine ⟨_, _, _, rfl, ⟨rfl, fun _ => ?_, fun hoff => absurd hon.1 hoff⟩, fun _ _ => rfl,
        fun hoff => ?_⟩
      · rw [hnth hon.2]
      · exact absurd (hoff.symm.trans hon.1) Bool.false_ne_true
    · rw [if_neg hon]
      refine ⟨_, _, _, rfl, ⟨rfl, fun harmed => ?_, fun _ => rfl⟩,
        fun harmed hn => absurd ⟨harmed, hn⟩ hon, fun _ => rfl⟩
      -- with zero in the map no frame is the one to corrupt
      have hzero : n = 0 := not_not.mp fun hne => hon ⟨harmed, hne⟩
      rw [corrupted, if_neg]
      rintro ⟨hdvd, -⟩
      rw [hzero] at hdvd
      exact hpos.ne' (Nat.eq_zero_of_zero_dvd hdvd)
  | @xdpPartition iface srcIp srcPort hook h =>
    have hbpf := h.bpf_of_loaded fun hnone => hattached (by simp [Injector.attachedTo, hnone])
    obtain ⟨action, haction, hdrop⟩ :=
      partition_object ⟨hook, id, iface, srcIp, srcPort⟩ host hook.armed frame
    simp only [Injector.receive, hbpf, Option.bind_some, haction, Option.map_some]
    exact ⟨action, frame, count, rfl, ⟨rfl, hdrop⟩, fun _ hn => absurd rfl hn, fun _ => rfl⟩
  | cgroupMemoryPressure h => exact absurd rfl hattached
  | timeSkew h => exact absurd rfl hattached
  | fix h => exact absurd rfl hattached

end

/-! ## The invariant -/

namespace Wire

variable {cfg : Config} {r : Runner (LiveInjector build)} {mode : AttachMode} {w w' : Wire build}

/-- The steps fired so far have been played. The injectors are settled, and those whose turn has
come are attached; the interfaces are as the specification has them. -/
structure Wired (cfg : Config) (r : Runner (LiveInjector build)) (w : Wire build) : Prop where
  schedule : w.runner.schedule = r.schedule
  played : r.play (r.schedule.steps.take w.fired) = (.ok (), w.runner)
  executed : Runner.Executed r.schedule w.runner w.fired
  built : ∀ id live, w.runner.injectors.lookup id = some live →
    ∃ ic, cfg.injectors.lookup id = some ic ∧ Built live.host id ic live.injector
  loaded : ∀ id live, w.runner.injectors.lookup id = some live →
    live.injector.attachedTo =
      if Begun (r.schedule.steps.take w.fired) id then cfg.iface id else none
  attached : ∀ iface, w.attached iface = governor cfg iface (r.schedule.steps.take w.fired)
  log : firedSteps w.log = r.schedule.steps.take w.fired

/-- On top of that, so are the counters and the log. -/
structure Exact (cfg : Config) (r : Runner (LiveInjector build)) (w : Wire build) : Prop
    extends Wired cfg r w where
  counted : ∀ id ic, cfg.injectors.lookup id = some ic → ic.everyN ≠ 0 →
    (w.packetCount id).toNat = seen cfg id w.log
  follows : Follows cfg w.log

/-- What a step that was fired has done. -/
theorem fire_eq_some (h : w.fire mode = some w') :
    ∃ step live, w.runner.schedule.steps[w.fired]? = some step ∧
      w.runner.injectors.lookup step.faultId = some live ∧
      (Runner.perform w.runner.ctx step.action live).1 = .ok () ∧
      ∃ attached, attach mode w.attached step.faultId live.injector.attachedTo
          (Runner.perform w.runner.ctx step.action live).2.injector.attachedTo = some attached ∧
        w' = ⟨(w.runner.call step.faultId step.action live).2, w.fired + 1, attached,
          w.packetCount, .fired step :: w.log⟩ := by
  unfold fire at h
  cases hstep : w.runner.schedule.steps[w.fired]? with
  | none =>
    rw [hstep] at h
    cases h
  | some step =>
    rw [hstep] at h
    dsimp only at h
    cases hlive : w.runner.injectors.lookup step.faultId with
    | none =>
      rw [Runner.fireStep, hlive] at h
      cases h
    | some live =>
      have hfire := Runner.fireStep_of_lookup hlive
      cases hres : (Runner.perform w.runner.ctx step.action live).1 with
      | error e =>
        rw [hfire, hres] at h
        cases h
      | ok _ =>
        rw [hfire, hres] at h
        obtain ⟨attached, hattached, rfl⟩ := Option.map_eq_some_iff.mp h
        refine ⟨step, live, rfl, hlive, hres, attached, ?_, rfl⟩
        have hafter : interfaceOf (w.runner.call step.faultId step.action live).2.injectors
            step.faultId =
            (Runner.perform w.runner.ctx step.action live).2.injector.attachedTo := by
          unfold interfaceOf
          rw [show (w.runner.call step.faultId step.action live).2.injectors.lookup step.faultId =
            some _ from Finmap.lookup_insert _]
          rfl
        rw [← hafter, ← hattached]
        unfold interfaceOf
        rw [hlive]
        rfl

theorem attach_self (mode : AttachMode) (attached : String → Option String) (id : String)
    (iface : Option String) : attach mode attached id iface iface = some attached := by
  cases iface <;> rfl

/-- The first step of a fault arms it. -/
theorem action_of_first {k : ℕ} {step : ScenarioStep} (hk : r.schedule.steps[k]? = some step)
    (hfirst : ¬ Begun (r.schedule.steps.take k) step.faultId) :
    step.action = .arm := by
  cases haction : step.action with
  | arm => rfl
  | disarm => exact absurd (begun_of_armedBy ((r.schedule.armedBy_take_iff hk).mpr haction)) hfirst

/-- **The interfaces after a step**: the first step of a fault takes the interface of the fault,
which must be free if it refuses a second program. -/
theorem Wired.attached_fire (h : Wired cfg r w) {step : ScenarioStep} {live : LiveInjector build}
    {attached : String → Option String} (hk : r.schedule.steps[w.fired]? = some step)
    (hlive : w.runner.injectors.lookup step.faultId = some live)
    (hok : (Runner.perform w.runner.ctx step.action live).1 = .ok ())
    (hattach : attach mode w.attached step.faultId live.injector.attachedTo
      (Runner.perform w.runner.ctx step.action live).2.injector.attachedTo = some attached)
    (iface : String) :
    (attached iface =
      if cfg.iface step.faultId = some iface ∧
          ¬ Begun (r.schedule.steps.take w.fired) step.faultId then
        some step.faultId
      else w.attached iface) ∧
    (mode = .refuses → cfg.iface step.faultId = some iface →
      ¬ Begun (r.schedule.steps.take w.fired) step.faultId →
        w.attached iface = none) := by
  obtain ⟨ic, hic, hbuilt⟩ := h.built _ live hlive
  have hiface : cfg.iface step.faultId = ic.iface := by rw [Config.iface, hic, Option.bind_some]
  have hloaded := h.loaded _ live hlive
  rw [hbuilt.attachedTo_perform hok] at hattach
  by_cases hfirst : Begun (r.schedule.steps.take w.fired) step.faultId
  · -- the program is attached already
    rw [if_pos hfirst, hiface] at hloaded
    rw [hloaded, ite_self, attach_self] at hattach
    rw [← Option.some.inj hattach, if_neg fun hnew => hnew.2 hfirst]
    exact ⟨rfl, fun _ _ hnew => absurd hfirst hnew⟩
  · rw [if_neg hfirst] at hloaded
    rw [if_pos (action_of_first hk hfirst), hloaded, ← hiface] at hattach
    cases hof : cfg.iface step.faultId with
    | none =>
      rw [hof, attach_self] at hattach
      rw [← Option.some.inj hattach]
      exact ⟨by rw [if_neg (by simp)], fun _ hnone => by cases hnone⟩
    | some taken =>
      rw [hof, attach] at hattach
      split_ifs at hattach with hrefused
      rw [← Option.some.inj hattach, Function.update_apply]
      constructor
      · by_cases hsame : iface = taken
        · rw [if_pos hsame, if_pos ⟨congrArg some hsame.symm, hfirst⟩]
        · rw [if_neg hsame, if_neg fun hnew => hsame (Option.some.inj hnew.1).symm]
      · intro hmode heq _
        obtain rfl := Option.some.inj heq
        exact not_not.mp fun hne => hrefused ⟨hmode, hne⟩

/-- **A step** keeps the interfaces as they are to be. -/
theorem Wired.fire (h : Wired cfg r w) (hfire : w.fire mode = some w') : Wired cfg r w' := by
  obtain ⟨step, live, hk, hlive, hok, attached, hattach, rfl⟩ := fire_eq_some hfire
  rw [h.schedule] at hk
  obtain ⟨ic, hic, hbuilt⟩ := h.built _ live hlive
  have htake := Runner.take_succ_of_getElem? hk
  have hlookup : ∀ id live', (w.runner.call step.faultId step.action live).2.injectors.lookup id =
      some live' → (id = step.faultId ∧ live' = (Runner.perform w.runner.ctx step.action live).2) ∨
        id ≠ step.faultId ∧ w.runner.injectors.lookup id = some live' := by
    intro id live' hlive'
    by_cases hid : id = step.faultId
    · subst hid
      rw [show (w.runner.call step.faultId step.action live).2.injectors.lookup step.faultId =
        some _ from Finmap.lookup_insert _] at hlive'
      exact Or.inl ⟨rfl, (Option.some.inj hlive').symm⟩
    · exact Or.inr ⟨hid, (Finmap.lookup_insert_of_ne _ hid).symm.trans hlive'⟩
  constructor
  · exact h.schedule
  · have hstep := Runner.fireStep_of_lookup hlive
    rw [hok] at hstep
    rw [htake, Runner.play_append_of_ok h.played, Runner.play_cons_ok hstep]
    rfl
  · exact h.executed.call hk hlive hok
  · intro id live' hlive'
    obtain ⟨rfl, rfl⟩ | ⟨-, hold⟩ := hlookup id live' hlive'
    · rw [host_perform]
      exact ⟨ic, hic, hbuilt.perform hok⟩
    · exact h.built id live' hold
  · intro id live' hlive'
    rw [htake]
    obtain ⟨rfl, rfl⟩ | ⟨hne, hold⟩ := hlookup id live' hlive'
    · rw [if_pos ((begun_concat _ _ _).mpr (Or.inr rfl)), hbuilt.attachedTo_perform hok,
        Config.iface, hic, Option.bind_some]
      by_cases haction : step.action = .arm
      · rw [if_pos haction]
      · -- what is disarmed has been armed before
        have hbegun := not_not.mp fun hfirst => haction (action_of_first hk hfirst)
        rw [if_neg haction, h.loaded _ live hlive, if_pos hbegun, Config.iface, hic,
          Option.bind_some]
    · have hbegun : Begun (r.schedule.steps.take w.fired ++ [step]) id ↔
          Begun (r.schedule.steps.take w.fired) id :=
        (begun_concat _ _ _).trans (or_iff_left hne)
      rw [h.loaded id live' hold]
      simp only [hbegun]
  · intro iface
    rw [htake, governor_concat, ← h.attached iface]
    exact (h.attached_fire hk hlive hok hattach iface).1
  · rw [firedSteps_fired, h.log, htake]

theorem Exact.fire (h : Exact cfg r w) (hfire : w.fire mode = some w') : Exact cfg r w' := by
  have hwired := h.toWired.fire hfire
  obtain ⟨step, live, -, -, -, attached, -, rfl⟩ := fire_eq_some hfire
  exact ⟨hwired, h.counted, h.follows⟩

/-- A frame changes the counters and the log only. -/
theorem receive_eq_some {iface : String} {frame : Frame} (h : w.receive iface frame = some w') :
    ∃ action output packetCount, w' = { w with
      packetCount := packetCount, log := .frame iface frame action output :: w.log } := by
  unfold receive at h
  cases hattached : w.attached iface with
  | none =>
    rw [hattached] at h
    exact ⟨.pass, frame, w.packetCount, (Option.some.inj h).symm⟩
  | some id =>
    rw [hattached] at h
    obtain ⟨live, -, h⟩ := Option.bind_eq_some_iff.mp h
    obtain ⟨⟨action, output, count⟩, -, rfl⟩ := Option.map_eq_some_iff.mp h
    exact ⟨action, output, _, rfl⟩

theorem Wired.frame (h : Wired cfg r w) {iface : String} {frame : Frame}
    (hreceive : w.receive iface frame = some w') : Wired cfg r w' := by
  obtain ⟨action, output, packetCount, rfl⟩ := receive_eq_some hreceive
  exact ⟨h.schedule, h.played, h.executed, h.built, h.loaded, h.attached,
    (firedSteps_frame ..).trans h.log⟩

/-- **A frame** can be received and keeps the invariant, if the counters have room. -/
theorem Exact.receive (h : Exact cfg r w) (hroom : w.log.length + 1 < 2 ^ 64) (iface : String)
    (frame : Frame) : ∃ w', w.receive iface frame = some w' ∧ Exact cfg r w' := by
  have hgovernor := h.attached iface
  rw [← h.log] at hgovernor
  unfold Wire.receive
  cases hattached : w.attached iface with
  | none =>
    rw [hattached] at hgovernor
    refine ⟨_, rfl, ⟨⟨h.schedule, h.played, h.executed, h.built, h.loaded, h.attached, ?_⟩,
      fun id ic hic hn => ?_, ?_, h.follows⟩⟩
    · rw [firedSteps_frame, h.log]
    · rw [seen, ← hgovernor, if_neg (by simp), h.counted id ic hic hn, Nat.add_zero]
    · rw [FrameFate, ← hgovernor]
      exact ⟨rfl, rfl⟩
  | some id =>
    rw [hattached] at hgovernor
    obtain ⟨hiface, hbegun⟩ := begun_of_governor hgovernor.symm
    rw [h.log] at hbegun
    obtain ⟨live, hlive⟩ : ∃ live, w.runner.injectors.lookup id = some live := by
      obtain ⟨step, hstep, rfl⟩ := hbegun
      exact Finmap.mem_iff.mp (h.executed.registered step (List.mem_of_mem_take hstep))
    obtain ⟨ic, hic, hbuilt⟩ := h.built id live hlive
    have hne : live.injector.attachedTo ≠ none := by
      rw [h.loaded id live hlive, if_pos hbegun, hiface]
      exact nofun
    have harmed : live.injector.isArmed = true ↔ ArmedBy (firedSteps w.log) id := by
      rw [h.log, ← h.executed.armed]
      unfold Registry.Armed
      rw [hlive]
      simp [isArmed]
    have hnth : ic.everyN ≠ 0 → seen cfg id w.log + 1 = (w.packetCount id + 1).toNat := by
      intro hn
      have hle := seen_le_length cfg id w.log
      rw [Lib.toNat_add_one (by rw [h.counted id ic hic hn]; omega), h.counted id ic hic hn]
    obtain ⟨action, output, count, hreceive, htreats, hcounts, hidle⟩ :=
      hbuilt.receive hne (w.packetCount id) frame (Nat.succ_pos _) hnth
    dsimp only
    rw [hlive, Option.bind_some, hreceive, Option.map_some]
    refine ⟨_, rfl, ⟨⟨h.schedule, h.played, h.executed, h.built, h.loaded, h.attached, ?_⟩,
      fun id' ic' hic' hn => ?_, ⟨?_, h.follows⟩⟩⟩
    · rw [firedSteps_frame, h.log]
    · show (Function.update w.packetCount id count id').toNat = _
      rw [seen, ← hgovernor, Function.update_apply]
      by_cases hid : id' = id
      · subst hid
        obtain rfl := Option.some.inj (hic.symm.trans hic')
        rw [if_pos rfl]
        cases hon : live.injector.isArmed with
        | true =>
          rw [hcounts hon hn, if_pos ⟨rfl, harmed.mp hon⟩, hnth hn]
        | false =>
          have hoff : ¬ ArmedBy (firedSteps w.log) id' := by
            rw [← harmed, hon]
            exact Bool.false_ne_true
          rw [hidle hon, if_neg fun hboth => hoff hboth.2, h.counted id' ic hic hn, Nat.add_zero]
      · rw [if_neg hid, if_neg fun hboth => hid (Option.some.inj hboth.1).symm,
          h.counted id' ic' hic' hn, Nat.add_zero]
    · rw [FrameFate, ← hgovernor]
      refine ⟨ic, hic, ?_⟩
      rw [← harmed]
      exact htreats

theorem wired_start {schedule : ValidatedSchedule} {host : Endian} {envs : String → ℕ → CallEnv}
    {ctx : FaultContext}
    (hreg : ∀ step ∈ schedule.steps, step.faultId ∈ buildInjectors build host envs cfg) :
    Wired cfg ⟨schedule, buildInjectors build host envs cfg, ctx, []⟩
      (start ⟨schedule, buildInjectors build host envs cfg, ctx, []⟩) := by
  have hlookup : ∀ id live, (buildInjectors build host envs cfg).lookup id = some live →
      ∃ ic, cfg.injectors.lookup id = some ic ∧
        live = ⟨host, buildInjector build id ic, envs id⟩ := by
    intro id live hlive
    rw [lookup_buildInjectors] at hlive
    obtain ⟨ic, hic, rfl⟩ := Option.map_eq_some_iff.mp hlive
    exact ⟨ic, hic, rfl⟩
  constructor
  · rfl
  · rfl
  · exact Runner.executed_zero hreg not_armed_buildInjectors
  · intro id live hlive
    obtain ⟨ic, hic, rfl⟩ := hlookup id live hlive
    exact ⟨ic, hic, built_buildInjector host id ic⟩
  · intro id live hlive
    obtain ⟨ic, -, rfl⟩ := hlookup id live hlive
    rw [if_neg fun hbegun => by obtain ⟨_, hmem, -⟩ := hbegun; cases hmem]
    cases ic <;> rfl
  · exact fun iface => rfl
  · rfl

/-! ## Runs -/

/-- Every event is logged. -/
theorem log_step {e : WireEvent} (h : w.step mode e = some w') :
    ∃ entry, w'.log = entry :: w.log := by
  cases e with
  | fire =>
    obtain ⟨step, -, -, -, -, -, -, rfl⟩ := fire_eq_some h
    exact ⟨.fired step, rfl⟩
  | frame iface bytes =>
    obtain ⟨action, output, -, rfl⟩ := receive_eq_some h
    exact ⟨.frame iface bytes action output, rfl⟩

theorem log_run {events : List WireEvent} (h : Lib.run (step mode) events w = some w') :
    ∃ newer, w'.log = newer ++ w.log := by
  refine Lib.run_invariant (fun w' => ∃ newer, w'.log = newer ++ w.log) ?_ ⟨[], rfl⟩ h
  rintro w₀ e w₁ ⟨newer, hnewer⟩ hstep
  obtain ⟨entry, hentry⟩ := log_step hstep
  exact ⟨entry :: newer, by rw [hentry, hnewer, List.cons_append]⟩

theorem Exact.step (h : Exact cfg r w) {e : WireEvent} (hroom : w.log.length + 1 < 2 ^ 64)
    (hstep : w.step mode e = some w') : Exact cfg r w' := by
  cases e with
  | fire => exact h.fire hstep
  | frame iface bytes =>
    obtain ⟨next, hnext, hexact⟩ := h.receive hroom iface bytes
    obtain rfl := Option.some.inj (hnext.symm.trans hstep)
    exact hexact

/-- **A run** keeps the invariant. -/
theorem Exact.run {events : List WireEvent} (h : Exact cfg r w)
    (hrun : Lib.run (Wire.step mode) events w = some w') (hroom : w'.log.length < 2 ^ 64) :
    Exact cfg r w' := by
  refine Lib.run_invariant (fun w => w.log.length < 2 ^ 64 → Exact cfg r w) ?_ (fun _ => h) hrun
    hroom
  intro w₀ e w₁ ih hstep hlt
  obtain ⟨entry, hentry⟩ := log_step hstep
  rw [hentry, List.length_cons] at hlt
  exact (ih (Nat.lt_of_succ_lt hlt)).step hlt hstep

/-- The interfaces are as they are to be over any number of frames, also if a counter wraps. -/
theorem Wired.step (h : Wired cfg r w) {e : WireEvent} (hstep : w.step mode e = some w') :
    Wired cfg r w' := by
  cases e with
  | fire => exact h.fire hstep
  | frame iface bytes => exact h.frame hstep

theorem Wired.run {events : List WireEvent} (h : Wired cfg r w)
    (hrun : Lib.run (Wire.step mode) events w = some w') : Wired cfg r w' :=
  Lib.run_invariant (Wired cfg r) (fun _ _ _ h hstep => h.step hstep) h hrun

/-- On a host that refuses a second program, whoever has begun has its interface. -/
def Alone (cfg : Config) (w : Wire build) : Prop :=
  ∀ id iface, cfg.iface id = some iface → Begun (firedSteps w.log) id → w.attached iface = some id

theorem Alone.fire (ha : Alone cfg w) (h : Wired cfg r w) (hfire : w.fire .refuses = some w') :
    Alone cfg w' := by
  obtain ⟨step, live, hk, hlive, hok, attached, hattach, rfl⟩ := fire_eq_some hfire
  rw [h.schedule] at hk
  intro id iface hiface hbegun
  obtain ⟨hafter, hfree⟩ := h.attached_fire hk hlive hok hattach iface
  show attached iface = some id
  rw [firedSteps_fired, begun_concat] at hbegun
  rw [← h.log] at hafter hfree
  rw [hafter]
  by_cases hold : Begun (firedSteps w.log) id
  · have hhas := ha id iface hiface hold
    rw [if_neg, hhas]
    rintro ⟨htaken, hfirst⟩
    rw [hfree rfl htaken hfirst] at hhas
    cases hhas
  · obtain rfl := hbegun.resolve_left hold
    rw [if_pos ⟨hiface, hold⟩]

theorem Alone.run {events : List WireEvent} (ha : Alone cfg w) (h : Wired cfg r w)
    (hrun : Lib.run (Wire.step .refuses) events w = some w') : Alone cfg w' := by
  refine (Lib.run_invariant (fun w => Wired cfg r w ∧ Alone cfg w) ?_ ⟨h, ha⟩ hrun).2
  rintro w₀ e w₁ ⟨h₀, ha₀⟩ hstep
  refine ⟨h₀.step hstep, ?_⟩
  cases e with
  | fire => exact ha₀.fire h₀ hstep
  | frame iface bytes =>
    obtain ⟨action, output, packetCount, rfl⟩ := receive_eq_some hstep
    intro id iface' hiface hbegun
    rw [firedSteps_frame] at hbegun
    exact ha₀ id iface' hiface hbegun

theorem alone_start (cfg : Config) (r : Runner (LiveInjector build)) : Alone cfg (start r) := by
  rintro id iface - ⟨step, hmem, -⟩
  cases hmem

end Wire

/-! ## The fate of the frames -/

theorem wired_of_new {cfg : Config} {host : Endian} {envs : String → ℕ → CallEnv}
    {schedule : ValidatedSchedule} {r : Runner (LiveInjector build)}
    (hnew : Runner.new schedule (buildInjectors build host envs cfg) ⟨cfg.seed⟩ = .ok r) :
    Wire.Wired cfg r (.start r) ∧ r.schedule = schedule := by
  obtain ⟨hreg, rfl⟩ := Runner.new_ok_iff.mp hnew
  exact ⟨Wire.wired_start hreg, rfl⟩

/-- **The schedule decides what becomes of every frame.** However frames on any interfaces come
between the steps of a run, as long as its calls succeed and the events stay below `2 ^ 64 - 1`:
the steps fired are the first ones of the schedule, each frame is treated as the fault that has its
interface asks, by whether the steps fired before it leave that fault armed and by how many frames
it met while armed, and every frame is dealt with without a read outside of it. A partition is
asked to drop what comes from its peer or from the unspecified address of the other family. -/
theorem frames_follow_schedule (mode : AttachMode) (host : Endian) (envs : String → ℕ → CallEnv)
    (cfg : Config) (events : List WireEvent) {schedule : ValidatedSchedule}
    {r : Runner (LiveInjector build)}
    (hvalid : ValidatedSchedule.validate ⟨cfg.name, cfg.seed, cfg.schedule⟩ = .ok schedule)
    (hnew : Runner.new schedule (buildInjectors build host envs cfg) ⟨cfg.seed⟩ = .ok r)
    {w : Wire build} (hrun : Lib.run (Wire.step mode) events (.start r) = some w)
    (hroom : w.log.length + 1 < 2 ^ 64) :
    firedSteps w.log = cfg.schedule.take w.fired ∧
      r.play (cfg.schedule.take w.fired) = (.ok (), w.runner) ∧
      Follows cfg w.log ∧
      ∀ iface frame, ∃ w', w.step mode (.frame iface frame) = some w' := by
  have hscenario := ValidatedSchedule.scenario_of_validate hvalid
  have hsteps : schedule.steps = cfg.schedule := by rw [ValidatedSchedule.steps, hscenario]
  obtain ⟨hstart, hschedule⟩ := wired_of_new hnew
  have hexact := Wire.Exact.run ⟨hstart, fun _ _ _ _ => rfl, trivial⟩ hrun
    (Nat.lt_of_succ_lt hroom)
  have hlog := hexact.log
  have hplayed := hexact.played
  rw [hschedule, hsteps] at hlog hplayed
  refine ⟨hlog, hplayed, hexact.follows, fun iface frame => ?_⟩
  obtain ⟨w', hw', -⟩ := hexact.receive hroom iface frame
  exact ⟨w', hw'⟩

theorem firedSteps_append (newer older : List WireEntry) :
    firedSteps (newer ++ older) = firedSteps older ++ firedSteps newer := by
  simp [firedSteps]

/-- **An interface is lost for good.** An XDP fault that has been armed and does not have its
interface any more does not get it back during the run, although its calls go on succeeding and
`is_armed` goes on following the schedule. It takes an interface that replaces programs: where a
second one is refused, the steps of two faults of one interface are never both fired. -/
theorem displaced_for_good (mode : AttachMode) (host : Endian) (envs : String → ℕ → CallEnv)
    (cfg : Config) (pre post : List WireEvent) (id iface : String) {schedule : ValidatedSchedule}
    {r : Runner (LiveInjector build)} {w₁ w₂ : Wire build}
    (hnew : Runner.new schedule (buildInjectors build host envs cfg) ⟨cfg.seed⟩ = .ok r)
    (hpre : Lib.run (Wire.step mode) pre (.start r) = some w₁)
    (hpost : Lib.run (Wire.step mode) post w₁ = some w₂)
    (hiface : cfg.iface id = some iface) (hbegun : Begun (firedSteps w₁.log) id)
    (hlost : w₁.attached iface ≠ some id) :
    mode = .replaces ∧ w₂.attached iface ≠ some id ∧
      (w₂.runner.injectors.Armed id ↔ ArmedBy (firedSteps w₂.log) id) := by
  obtain ⟨hstart, -⟩ := wired_of_new hnew
  obtain ⟨newer, hnewer⟩ := Wire.log_run hpost
  have hwired₁ := hstart.run hpre
  have hwired₂ := hwired₁.run hpost
  refine ⟨?_, ?_, ?_⟩
  · cases mode with
    | replaces => rfl
    | refuses =>
      exact absurd ((Wire.alone_start cfg r).run hstart hpre id iface hiface hbegun) hlost
  · rw [hwired₁.attached, ← hwired₁.log] at hlost
    rw [hwired₂.attached, ← hwired₂.log, hnewer, firedSteps_append]
    exact governor_append_ne hbegun hlost (firedSteps newer)
  · rw [hwired₂.log]
    exact hwired₂.executed.armed id

/-! ## Two faults on one interface -/

/-- Every second frame is lost, until a partition takes the interface. -/
def lossThenCut : Config where
  name := "loss-then-cut"
  seed := 1
  injectors := ⟨[⟨"loss", .xdpPacketLoss "eth0" 2⟩,
    ⟨"cut", .xdpPartition "eth0" (.v4 (Vector.replicate 4 10)) 0⟩], by simp⟩
  schedule := [⟨0, "loss", .arm⟩, ⟨10, "cut", .arm⟩, ⟨20, "loss", .disarm⟩, ⟨30, "loss", .arm⟩]

/-- The runner of that scenario, on a host where everything works. -/
def lossThenCutRunner : Runner (LiveInjector .release) :=
  ⟨⟨⟨lossThenCut.name, lossThenCut.seed, lossThenCut.schedule⟩, by decide⟩,
    buildInjectors .release .little (fun _ _ => .clear) lossThenCut, ⟨lossThenCut.seed⟩, []⟩

/-- The second frame is lost, the fourth is not: by then the interface has another program. -/
theorem frames_follow_lossThenCut :
    ∃ w, Lib.run (Wire.step .replaces) [.fire, .frame "eth0" [1], .frame "eth0" [2], .fire,
        .frame "eth0" [3], .frame "eth0" [4]] (.start lossThenCutRunner) = some w ∧
      w.log = [.frame "eth0" [4] .pass [4], .frame "eth0" [3] .pass [3],
        .fired ⟨10, "cut", .arm⟩, .frame "eth0" [2] .drop [2], .frame "eth0" [1] .pass [1],
        .fired ⟨0, "loss", .arm⟩] ∧
      Follows lossThenCut w.log := by
  have hvalid : ValidatedSchedule.validate
      ⟨lossThenCut.name, lossThenCut.seed, lossThenCut.schedule⟩ = _ :=
    ValidatedSchedule.validate_of_check (by decide)
  refine ⟨_, rfl, rfl, ?_⟩
  exact (frames_follow_schedule .replaces .little (fun _ _ => .clear) lossThenCut
    [.fire, .frame "eth0" [1], .frame "eth0" [2], .fire, .frame "eth0" [3], .frame "eth0" [4]]
    (r := lossThenCutRunner) hvalid rfl rfl (by decide)).2.2.1

/-- The fault that lost its interface is disarmed and armed again, and does not get it back. -/
theorem displaced_lossThenCut :
    ∃ w₁ w₂, Lib.run (Wire.step .replaces) [.fire, .fire] (.start lossThenCutRunner) = some w₁ ∧
      Lib.run (Wire.step .replaces) [.fire, .frame "eth0" [1], .fire] w₁ = some w₂ ∧
      w₂.attached "eth0" ≠ some "loss" ∧ w₂.runner.injectors.Armed "loss" := by
  have hnew : Runner.new lossThenCutRunner.schedule
      (buildInjectors .release .little (fun _ _ => .clear) lossThenCut) ⟨lossThenCut.seed⟩ =
    .ok lossThenCutRunner := rfl
  refine ⟨_, _, rfl, rfl, ?_⟩
  have hlost := displaced_for_good .replaces .little (fun _ _ => .clear) lossThenCut
    [.fire, .fire] [.fire, .frame "eth0" [1], .fire] "loss" "eth0" hnew rfl rfl rfl (by decide)
    (by decide)
  exact ⟨hlost.2.1, hlost.2.2.mpr (by decide)⟩

end Blackswan.Cli
