import Blackswan.Replay.Schedule

/-!
# The scheduler and the trace

`Scheduler` walks a validated schedule against a virtual clock. `advance` moves the clock and
then the cursor, past every step that is due; the slice it returns is what the cursor passed.
`Trace` records the steps as they fired.
-/

namespace Blackswan.Replay

structure Scheduler where
  schedule : ValidatedSchedule
  clock : VirtualClock
  cursor : ℕ

/-- The `while` loop of `Scheduler::advance`: how far the cursor moves over the steps that
follow it. -/
def scanDue (now : UInt64) : List ScenarioStep → ℕ
  | [] => 0
  | step :: rest => if step.atNs ≤ now then scanDue now rest + 1 else 0

namespace Scheduler

def new (schedule : ValidatedSchedule) (startNs : UInt64) : Scheduler :=
  ⟨schedule, VirtualClock.new startNs, 0⟩

def nowNs (s : Scheduler) : UInt64 := s.clock.nowNs

/-- `Scheduler::advance`: the steps that came due, and the scheduler after the call. -/
def advance (s : Scheduler) (deltaNs : UInt64) : List ScenarioStep × Scheduler :=
  let clock := s.clock.advance deltaNs
  let moved := scanDue clock.nowNs (s.schedule.steps.drop s.cursor)
  ((s.schedule.steps.drop s.cursor).take moved, { s with clock, cursor := s.cursor + moved })

def isFinished (s : Scheduler) : Bool := decide (s.schedule.steps.length ≤ s.cursor)

end Scheduler

/-! ## What the cursor passes -/

/-- Everything the cursor passes is due. -/
theorem due_of_mem_take {now : UInt64} {steps : List ScenarioStep} {step : ScenarioStep}
    (h : step ∈ steps.take (scanDue now steps)) : step.atNs ≤ now := by
  induction steps with
  | nil => simp at h
  | cons s rest ih =>
    rw [scanDue] at h
    split_ifs at h with hs
    · rw [List.take_succ_cons, List.mem_cons] at h
      rcases h with rfl | h
      · exact hs
      · exact ih h
    · simp at h

/-- The cursor stops at a step that is not due. -/
theorem not_due_of_getElem? {now : UInt64} {steps : List ScenarioStep} {step : ScenarioStep}
    (h : steps[scanDue now steps]? = some step) : now < step.atNs := by
  induction steps with
  | nil => simp at h
  | cons s rest ih =>
    rw [scanDue] at h
    split_ifs at h with hs
    · rw [List.getElem?_cons_succ] at h
      exact ih h
    · rw [List.getElem?_cons_zero, Option.some.injEq] at h
      rw [← h]
      exact UInt64.not_le.mp hs

namespace Scheduler

variable (s : Scheduler) (deltaNs : UInt64)

@[simp] theorem advance_schedule : (s.advance deltaNs).2.schedule = s.schedule := rfl

@[simp] theorem advance_nowNs : (s.advance deltaNs).2.nowNs = s.nowNs + deltaNs := rfl

/-- The steps before the cursor, followed by those that came due, are the steps before the new
cursor. -/
theorem take_cursor_advance :
    s.schedule.steps.take (s.advance deltaNs).2.cursor =
      s.schedule.steps.take s.cursor ++ (s.advance deltaNs).1 :=
  List.take_add

theorem due_of_mem_advance {step : ScenarioStep} (h : step ∈ (s.advance deltaNs).1) :
    step.atNs ≤ s.nowNs + deltaNs := due_of_mem_take h

theorem not_due_advance {step : ScenarioStep}
    (h : s.schedule.steps[(s.advance deltaNs).2.cursor]? = some step) :
    s.nowNs + deltaNs < step.atNs := by
  have hdrop : (s.schedule.steps.drop s.cursor)[scanDue (s.nowNs + deltaNs)
      (s.schedule.steps.drop s.cursor)]? = some step := by
    rw [List.getElem?_drop]
    exact h
  exact not_due_of_getElem? hdrop

theorem isFinished_iff : s.isFinished = true ↔ s.schedule.steps.length ≤ s.cursor := by
  unfold isFinished; rw [decide_eq_true_eq]

end Scheduler

/-! ## Traces -/

structure TraceEvent where
  step : ScenarioStep
  wallNs : UInt64
  deriving DecidableEq, Repr

structure Trace where
  scenarioName : String
  seed : UInt64
  events : List TraceEvent
  deriving DecidableEq, Repr

namespace Trace

def new (scenarioName : String) (seed : UInt64) : Trace := ⟨scenarioName, seed, []⟩

def record (trace : Trace) (step : ScenarioStep) (wallNs : UInt64) : Trace :=
  { trace with events := trace.events ++ [⟨step, wallNs⟩] }

/-- `Trace::matches_schedule`: equal seeds and equal sequences of steps. -/
def matchesSchedule (self other : Trace) : Bool :=
  self.seed == other.seed &&
    self.events.map TraceEvent.step == other.events.map TraceEvent.step

/-- The steps of a trace, in the order they fired. -/
def steps (trace : Trace) : List ScenarioStep := trace.events.map TraceEvent.step

theorem matchesSchedule_iff (self other : Trace) :
    self.matchesSchedule other = true ↔ self.seed = other.seed ∧ self.steps = other.steps := by
  unfold matchesSchedule steps
  rw [Bool.and_eq_true, beq_iff_eq, beq_iff_eq]

end Trace

end Blackswan.Replay
