import Mathlib.Data.Finmap
import Blackswan.Lib.Loop
import Blackswan.Replay.Scheduler

/-!
# The runner

`Runner` ties a validated schedule to a registry of injectors. `runInner` is the loop behind
`run` and `run_realtime`: advance the clock by one tick, then arm or disarm for every step that
came due. `teardown` disarms whatever is still armed and is what `drop` calls.

The model records two things the source does not keep: the calls made on injectors, each with
the registry it was made in, and the time slept. A `HashMap` has no iteration order of its own,
so `teardown` takes the order in which `values_mut` visits the keys.
-/

namespace Blackswan.Replay

open Lib (Outcome Turn loop)
open FaultInjector (arm disarm isArmed)

/-- `HashMap<String, Box<dyn FaultInjector>>`. -/
abbrev Registry (I : Type) := Finmap fun _ : String => I

/-- A call of `arm` or `disarm`, with the registry it was made in. -/
structure Call (I : Type) where
  before : Registry I
  faultId : String
  action : StepAction
  result : Except HarnessError Unit

/-- `Runner`, with the calls made so far. -/
structure Runner (I : Type) where
  schedule : ValidatedSchedule
  injectors : Registry I
  ctx : FaultContext
  calls : List (Call I)

variable {I : Type}

/-- The loop of `Runner::new`: every step names a registered injector. -/
def checkRegistered (injectors : Registry I) : List ScenarioStep → Except HarnessError Unit
  | [] => .ok ()
  | step :: rest =>
    if step.faultId ∈ injectors then checkRegistered injectors rest
    else .error (.invalidScenario
      s!"step references fault_id {step.faultId} which has no registered injector")

theorem checkRegistered_ok_iff {injectors : Registry I} {steps : List ScenarioStep} :
    checkRegistered injectors steps = .ok () ↔ ∀ step ∈ steps, step.faultId ∈ injectors := by
  induction steps with
  | nil => simp [checkRegistered]
  | cons step rest ih =>
    rw [checkRegistered]
    by_cases h : step.faultId ∈ injectors <;> simp [h, ih]

namespace Runner

def new (schedule : ValidatedSchedule) (injectors : Registry I) (ctx : FaultContext) :
    Except HarnessError (Runner I) :=
  match checkRegistered injectors schedule.steps with
  | .error e => .error e
  | .ok () => .ok ⟨schedule, injectors, ctx, []⟩

/-- What `Runner::new` accepts, and the runner it makes. -/
theorem new_ok_iff {schedule : ValidatedSchedule} {injectors : Registry I} {ctx : FaultContext}
    {r : Runner I} :
    new schedule injectors ctx = .ok r ↔
      (∀ step ∈ schedule.steps, step.faultId ∈ injectors) ∧ r = ⟨schedule, injectors, ctx, []⟩ := by
  rw [← checkRegistered_ok_iff]
  unfold new
  rcases checkRegistered injectors schedule.steps with e | ⟨⟩
  · simp
  · simp [eq_comm]

variable [FaultInjector I]

/-- `match step.action { Arm => injector.arm(&ctx), Disarm => injector.disarm() }`. -/
def perform (ctx : FaultContext) (action : StepAction) (injector : I) :
    Except HarnessError Unit × I :=
  match action with
  | .arm => arm injector ctx
  | .disarm => disarm injector

/-- A call on the injector registered under `id`. -/
def call (r : Runner I) (id : String) (action : StepAction) (injector : I) :
    Except HarnessError Unit × Runner I :=
  let res := perform r.ctx action injector
  (res.1, { r with
    injectors := r.injectors.insert id res.2
    calls := r.calls ++ [⟨r.injectors, id, action, res.1⟩] })

/-- The body of `for step in due`, up to the recording of the step. A missing injector is the
`expect` on `get_mut`. -/
def fireStep (r : Runner I) (step : ScenarioStep) : Outcome HarnessError Unit × Runner I :=
  match r.injectors.lookup step.faultId with
  | none => (.panic, r)
  | some injector =>
    let res := r.call step.faultId step.action injector
    (.ofExcept res.1, res.2)

/-- `for step in due { .. }`: an error or a panic leaves the whole run. -/
def fireDue (now : UInt64) :
    List ScenarioStep → Trace → Runner I → Outcome HarnessError Trace × Runner I
  | [], trace, r => (.ok trace, r)
  | step :: rest, trace, r =>
    match r.fireStep step with
    | (.ok (), r') => fireDue now rest (trace.record step now) r'
    | (.err e, r') => (.err e, r')
    | (.panic, r') => (.panic, r')

/-! ## The run loop -/

/-- The variables of `run_inner`, and the time slept. -/
structure LoopState (I : Type) where
  scheduler : Scheduler
  trace : Trace
  runner : Runner I
  sleptNs : ℕ

/-- What `run_inner` returns, the runner it leaves, and the time slept. -/
structure RunEnd (I : Type) where
  outcome : Outcome HarnessError Trace
  runner : Runner I
  sleptNs : ℕ

/-- One evaluation of `while !scheduler.is_finished() { .. }`. -/
def pass (tickNs : UInt64) (realtime : Bool) (s : LoopState I) : Turn (LoopState I) (RunEnd I) :=
  if s.scheduler.isFinished then .done ⟨.ok s.trace, s.runner, s.sleptNs⟩
  else
    let sleptNs := if realtime then s.sleptNs + tickNs.toNat else s.sleptNs
    let adv := s.scheduler.advance tickNs
    match s.runner.fireDue adv.2.nowNs adv.1 s.trace with
    | (.ok trace, runner) => .again ⟨adv.2, trace, runner, sleptNs⟩
    | (.err e, runner) => .done ⟨.err e, runner, sleptNs⟩
    | (.panic, runner) => .done ⟨.panic, runner, sleptNs⟩

def start (r : Runner I) : LoopState I :=
  ⟨Scheduler.new r.schedule 0, Trace.new r.schedule.name r.schedule.seed, r, 0⟩

/-- `Runner::run_inner` with at most `fuel` evaluations of the loop condition. -/
def runInner (fuel : ℕ) (tickNs : UInt64) (realtime : Bool) (r : Runner I) :
    Option (RunEnd I) :=
  loop (pass tickNs realtime) fuel r.start

def run (fuel : ℕ) (tickNs : UInt64) (r : Runner I) : Option (RunEnd I) :=
  r.runInner fuel tickNs false

def runRealtime (fuel : ℕ) (tickNs : UInt64) (r : Runner I) : Option (RunEnd I) :=
  r.runInner fuel tickNs true

/-! ## Teardown -/

/-- The loop of `teardown` over the keys still to visit, with the first error so far. -/
def teardownLoop : List String → Option HarnessError → Runner I → Option HarnessError × Runner I
  | [], firstErr, r => (firstErr, r)
  | id :: rest, firstErr, r =>
    match r.injectors.lookup id with
    | none => teardownLoop rest firstErr r
    | some injector =>
      if isArmed injector then
        match r.call id .disarm injector with
        | (.ok (), r') => teardownLoop rest firstErr r'
        | (.error e, r') => teardownLoop rest (firstErr <|> some e) r'
      else teardownLoop rest firstErr r

/-- `Runner::teardown`, visiting the injectors in the given order. -/
def teardown (order : List String) (r : Runner I) : Except HarnessError Unit × Runner I :=
  match r.teardownLoop order none with
  | (none, r') => (.ok (), r')
  | (some e, r') => (.error e, r')

/-- `Drop for Runner`: the result of the teardown is ignored. -/
def drop (order : List String) (r : Runner I) : Runner I := (r.teardown order).2

end Runner

/-! ## The injector of the unit tests -/

/-- `CountingInjector`: every call succeeds and is counted. -/
structure CountingInjector where
  armed : Bool
  armCalls : ℕ
  disarmCalls : ℕ
  deriving DecidableEq, Repr

instance : FaultInjector CountingInjector where
  arm i _ := (.ok (), { i with armed := true, armCalls := i.armCalls + 1 })
  disarm i := (.ok (), { i with armed := false, disarmCalls := i.disarmCalls + 1 })
  isArmed i := i.armed

instance : LawfulInjector CountingInjector where
  arm_ok _ _ _ := rfl
  arm_error _ _ _ h := by cases h
  disarm_ok _ _ := rfl
  disarm_error _ _ h := by cases h

/-! ## Vocabulary for what a run leaves behind -/

/-- `order` visits every key of the map once. -/
def Iterates (order : List String) (injectors : Registry I) : Prop :=
  order.Nodup ∧ ∀ id, id ∈ order ↔ id ∈ injectors

/-- The injector registered under `id` reports `is_armed()`. -/
def Registry.Armed [FaultInjector I] (injectors : Registry I) (id : String) : Prop :=
  ∃ i, injectors.lookup id = some i ∧ isArmed i = true

end Blackswan.Replay
