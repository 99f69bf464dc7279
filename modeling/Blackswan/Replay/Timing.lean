import Mathlib.Algebra.Order.Floor.Div
import Mathlib.GroupTheory.GroupAction.Ring
import Blackswan.Replay.Play

/-!
# When the steps fire

Bit-exact replay: a run whose calls succeed and whose clock does not wrap ends, and its trace
holds the steps of the schedule in order, each stamped with its own time rounded up to the next
tick.

`OnTime r tickNs k s` is the invariant after `k` passes: the clock shows `k` ticks, the step at
the cursor is still to come, and the recorded events carry the rounded times. `onTime_pass` is
the step lemma, `exists_terminates_of_fits` and `wallNs_of_terminates` the two halves of the
result.
-/

namespace Blackswan.Replay

open Lib (Outcome Turn Ends loop)

/-! ## Rounding up to a tick -/

/-- The first tick at or after `t`, and at least the first one. -/
def roundUp (tick t : ℕ) : ℕ := tick * max 1 (t ⌈/⌉ tick)

/-- A time in the `k + 1`st tick is rounded to its end; the first tick includes its start. -/
theorem roundUp_eq {tick t k : ℕ} (htick : 0 < tick) (hlow : k = 0 ∨ k * tick < t)
    (hhigh : t ≤ (k + 1) * tick) : roundUp tick t = (k + 1) * tick := by
  have hle : t ⌈/⌉ tick ≤ k + 1 := by
    rw [ceilDiv_le_iff_le_mul htick, Nat.mul_comm]
    exact hhigh
  have hmax : max 1 (t ⌈/⌉ tick) = k + 1 := by
    rcases hlow with rfl | hlow
    · omega
    · have hlt : ¬ t ⌈/⌉ tick ≤ k := by
        rw [ceilDiv_le_iff_le_mul htick, Nat.mul_comm]
        omega
      omega
  unfold roundUp
  rw [hmax, Nat.mul_comm]

/-- The end of the tick a time lies in is at most the time rounded up. -/
theorem succ_mul_le_roundUp {tick t k : ℕ} (htick : 0 < tick) (hlow : k = 0 ∨ k * tick < t) :
    (k + 1) * tick ≤ roundUp tick t := by
  unfold roundUp
  rw [Nat.mul_comm]
  refine Nat.mul_le_mul_left tick ?_
  rcases hlow with rfl | hlow
  · exact Nat.le_max_left _ _
  · have hlt : ¬ t ⌈/⌉ tick ≤ k := by
      rw [ceilDiv_le_iff_le_mul htick, Nat.mul_comm]
      omega
    omega

theorem roundUp_mono {tick a b : ℕ} (hab : a ≤ b) : roundUp tick a ≤ roundUp tick b := by
  unfold roundUp
  refine Nat.mul_le_mul_left tick (max_le_max (Nat.le_refl 1) ?_)
  rw [Nat.ceilDiv_eq_add_pred_div, Nat.ceilDiv_eq_add_pred_div]
  exact Nat.div_le_div_right (by omega)

theorem le_roundUp {tick : ℕ} (htick : 0 < tick) (t : ℕ) : t ≤ roundUp tick t :=
  Nat.le_trans ((ceilDiv_le_iff_le_mul htick).mp (Nat.le_refl _))
    (Nat.mul_le_mul_left tick (Nat.le_max_right _ _))

/-! ## The invariant -/

namespace Runner

variable {I : Type} [FaultInjector I]

/-- After `k` passes, with a clock that has not wrapped. -/
structure OnTime (r : Runner I) (tickNs : UInt64) (k : ℕ) (s : LoopState I) : Prop where
  ticked : Ticked r tickNs k s
  clock : s.scheduler.nowNs.toNat = k * tickNs.toNat
  wall : ∀ ev ∈ s.trace.events, ev.wallNs.toNat = roundUp tickNs.toNat ev.step.atNs.toNat

theorem onTime_start (r : Runner I) (tickNs : UInt64) : OnTime r tickNs 0 r.start where
  ticked := ticked_start r tickNs
  clock := by rw [Nat.zero_mul]; rfl
  wall := by
    intro ev hev
    cases hev

variable {r : Runner I} {tickNs : UInt64} {realtime : Bool} {k : ℕ} {s s' : LoopState I}

theorem OnTime.waiting (h : OnTime r tickNs k s) {step : ScenarioStep}
    (hstep : r.schedule.steps[s.scheduler.cursor]? = some step) :
    k = 0 ∨ k * tickNs.toNat < step.atNs.toNat := by
  rw [← h.clock, ← UInt64.lt_iff_toNat_lt]
  exact h.ticked.waiting step hstep

/-- Steps that come due are not earlier than the one at the cursor. -/
theorem cursor_le_of_mem_advance (ht : Tracks r s) {step due : ScenarioStep}
    (hstep : r.schedule.steps[s.scheduler.cursor]? = some step)
    (hdue : due ∈ (s.scheduler.advance tickNs).1) : step.atNs ≤ due.atNs := by
  have hmem : due ∈ r.schedule.steps.drop s.scheduler.cursor := by
    have hd := List.mem_of_mem_take hdue
    rwa [ht.schedule] at hd
  obtain ⟨hlt, rfl⟩ := List.getElem?_eq_some_iff.mp hstep
  rw [List.drop_eq_getElem_cons hlt, List.mem_cons] at hmem
  rcases hmem with rfl | hmem
  · exact UInt64.le_refl _
  · have hpair := r.schedule.steps_pairwise.drop (i := s.scheduler.cursor)
    rw [List.drop_eq_getElem_cons hlt, List.pairwise_cons] at hpair
    exact hpair.1 due hmem

/-- The next tick of an unfinished run does not wrap the clock. -/
theorem OnTime.clock_succ (h : OnTime r tickNs k s) (htick : 1 ≤ tickNs.toNat)
    (hfit : ∀ step ∈ r.schedule.steps, roundUp tickNs.toNat step.atNs.toNat < 2 ^ 64)
    (hf : s.scheduler.isFinished = false) :
    (s.scheduler.nowNs + tickNs).toNat = (k + 1) * tickNs.toNat := by
  obtain ⟨step, hstep⟩ := exists_waiting h.ticked.tracks hf
  have hle := succ_mul_le_roundUp htick (h.waiting hstep)
  have hlt := hfit step (List.mem_of_getElem? hstep)
  rw [Nat.add_mul, Nat.one_mul] at hle ⊢
  rw [UInt64.toNat_add, h.clock, Nat.mod_eq_of_lt (by omega)]

/-- **Step lemma.** A pass that goes on has moved everything by one tick. -/
theorem onTime_pass (h : OnTime r tickNs k s) (htick : 1 ≤ tickNs.toNat)
    (hfit : ∀ step ∈ r.schedule.steps, roundUp tickNs.toNat step.atNs.toNat < 2 ^ 64)
    (hp : pass tickNs realtime s = .again s') : OnTime r tickNs (k + 1) s' := by
  obtain ⟨hf, hsched, -, htrace⟩ := pass_eq_again hp
  have hclock := h.clock_succ htick hfit hf
  constructor
  · exact ticked_pass h.ticked hp
  · rw [hsched, Scheduler.advance_nowNs]
    exact hclock
  · intro ev hev
    rw [htrace] at hev
    rcases List.mem_append.mp hev with hev | hev
    · exact h.wall ev hev
    · -- an event of this pass: its step is due now and was not due before
      obtain ⟨due, hdue, rfl⟩ := List.mem_map.mp hev
      obtain ⟨step, hstep⟩ := exists_waiting h.ticked.tracks hf
      have hlow := UInt64.le_iff_toNat_le.mp (cursor_le_of_mem_advance h.ticked.tracks hstep hdue)
      have hhigh := UInt64.le_iff_toNat_le.mp (s.scheduler.due_of_mem_advance tickNs hdue)
      rw [hclock] at hhigh
      show (s.scheduler.nowNs + tickNs).toNat = roundUp tickNs.toNat due.atNs.toNat
      rw [hclock, roundUp_eq htick _ hhigh]
      rcases h.waiting hstep with h0 | hw
      · exact Or.inl h0
      · exact Or.inr (by omega)

/-- The clock reaches the last step, rounded up, in a whole number of ticks. -/
theorem exists_terminates_of_fits (realtime : Bool) (htick : 1 ≤ tickNs.toNat)
    (hfit : ∀ step ∈ r.schedule.steps, roundUp tickNs.toNat step.atNs.toNat < 2 ^ 64) :
    ∃ e, r.Terminates tickNs realtime e := by
  rcases hlast : r.schedule.steps.getLast? with _ | last
  · refine exists_terminates 1 Nat.one_ne_zero fun step hstep => ?_
    rw [List.getLast?_eq_none_iff.mp hlast] at hstep
    cases hstep
  · refine exists_terminates (max 1 (last.atNs.toNat ⌈/⌉ tickNs.toNat)) (by omega) ?_
    intro step hstep
    have hle := UInt64.le_iff_toNat_le.mp (r.schedule.atNs_le_last hlast hstep)
    have hround := le_roundUp htick last.atNs.toNat
    have hlt := hfit last (List.mem_of_getLast? hlast)
    unfold roundUp at hround hlt
    rw [Nat.mul_comm, Nat.mod_eq_of_lt hlt]
    exact Nat.le_trans hle hround

theorem wallNs_of_terminates {e : RunEnd I} (htick : 1 ≤ tickNs.toNat)
    (hfit : ∀ step ∈ r.schedule.steps, roundUp tickNs.toNat step.atNs.toNat < 2 ^ 64)
    (h : r.Terminates tickNs realtime e) :
    ∀ trace, e.outcome = .ok trace → ∀ ev ∈ trace.events,
      ev.wallNs.toNat = roundUp tickNs.toNat ev.step.atNs.toNat := by
  obtain ⟨bound, hb⟩ := h
  refine Ends.invariant (fun s => ∃ k, OnTime r tickNs k s)
    (fun e => ∀ trace, e.outcome = .ok trace → ∀ ev ∈ trace.events,
      ev.wallNs.toNat = roundUp tickNs.toNat ev.step.atNs.toNat) ?_ ?_
    ⟨0, onTime_start r tickNs⟩ ⟨bound, hb bound (Nat.le_refl bound)⟩
  · rintro s s' ⟨k, hk⟩ hp
    exact ⟨k + 1, onTime_pass hk htick hfit hp⟩
  · rintro s e ⟨k, hk⟩ hp trace htrace
    rcases pass_eq_done hp with ⟨-, ho, -⟩ | ⟨hne, ho, -⟩
    · rw [ho] at htrace
      cases htrace
      exact hk.wall
    · rw [htrace] at ho
      exact absurd ho.symm hne

end Runner

/-! ## Replaying a schedule -/

open Runner

/-- A validated scenario, a registry that `Runner::new` accepts and whose calls succeed, and a
tick size at which the last step, rounded up, still fits the clock. -/
structure ReplaySetup (I : Type) [FaultInjector I] where
  scenario : Scenario
  schedule : ValidatedSchedule
  injectors : Registry I
  ctx : FaultContext
  runner : Runner I
  tickNs : UInt64
  validated : ValidatedSchedule.validate scenario = .ok schedule
  accepted : Runner.new schedule injectors ctx = .ok runner
  succeed : CallsSucceed ctx injectors scenario.steps
  tick_pos : 1 ≤ tickNs.toNat
  fits : ∀ last, scenario.steps.getLast? = some last →
    tickNs.toNat * (last.atNs.toNat ⌈/⌉ tickNs.toNat) < 2 ^ 64

namespace ReplaySetup

variable {I J : Type} [FaultInjector I] [FaultInjector J]

theorem runner_eq (a : ReplaySetup I) : a.runner = ⟨a.schedule, a.injectors, a.ctx, []⟩ :=
  (new_ok_iff.mp a.accepted).2

theorem schedule_steps (a : ReplaySetup I) : a.schedule.steps = a.scenario.steps :=
  congrArg Scenario.steps (ValidatedSchedule.scenario_of_validate a.validated)

theorem schedule_name (a : ReplaySetup I) : a.schedule.name = a.scenario.name :=
  congrArg Scenario.name (ValidatedSchedule.scenario_of_validate a.validated)

theorem schedule_seed (a : ReplaySetup I) : a.schedule.seed = a.scenario.seed :=
  congrArg Scenario.seed (ValidatedSchedule.scenario_of_validate a.validated)

/-- The bound on the last step bounds every step, since the steps are sorted. -/
theorem roundUp_lt (a : ReplaySetup I) :
    ∀ step ∈ a.runner.schedule.steps, roundUp a.tickNs.toNat step.atNs.toNat < 2 ^ 64 := by
  intro step hstep
  rw [a.runner_eq] at hstep
  replace hstep : step ∈ a.schedule.steps := hstep
  rcases hlast : a.schedule.steps.getLast? with _ | last
  · rw [List.getLast?_eq_none_iff.mp hlast] at hstep
    cases hstep
  · have hle := UInt64.le_iff_toNat_le.mp (a.schedule.atNs_le_last hlast hstep)
    have hfit := a.fits last (by rw [← a.schedule_steps]; exact hlast)
    have htick := a.tickNs.toNat_lt
    refine Nat.lt_of_le_of_lt (roundUp_mono hle) ?_
    unfold roundUp
    rw [← Nat.mul_max_mul_left, Nat.mul_one]
    exact max_lt htick hfit

theorem play_eq (a : ReplaySetup I) :
    (a.runner.play a.runner.schedule.steps).1 = .ok () ∧
      (a.runner.play a.runner.schedule.steps).2.callLog = callsOf a.scenario.steps := by
  have hreg := (new_ok_iff.mp a.accepted).1
  have hok := a.succeed
  rw [← a.schedule_steps] at hok ⊢
  rw [a.runner_eq]
  exact play_of_callsSucceed (r := ⟨a.schedule, a.injectors, a.ctx, []⟩) hreg hok

/-- The injectors after the play: each has had the calls of its own steps. -/
theorem lookup_play_eq (a : ReplaySetup I) (id : String) :
    (a.runner.play a.runner.schedule.steps).2.injectors.lookup id =
      (a.injectors.lookup id).map (calledWith a.ctx (actionsOf a.scenario.steps id)) := by
  rw [lookup_play a.play_eq.1 id, a.runner_eq, ← a.schedule_steps]

/-- What a run of the setup that ended has returned. -/
theorem outcome_of_terminates (a : ReplaySetup I) {realtime : Bool} {e : RunEnd I}
    (h : a.runner.Terminates a.tickNs realtime e) :
    ∃ trace, e.outcome = .ok trace ∧ trace.scenarioName = a.scenario.name ∧
      trace.seed = a.scenario.seed ∧ trace.steps = a.scenario.steps ∧
      e.runner.callLog = callsOf a.scenario.steps ∧
      ∀ id, e.runner.injectors.lookup id =
        (a.injectors.lookup id).map (calledWith a.ctx (actionsOf a.scenario.steps id)) := by
  obtain ⟨bound, hb⟩ := h
  have hp := play_of_runInner (hb bound (Nat.le_refl bound))
  obtain ⟨hok, hlog⟩ := a.play_eq
  have ho := hp.outcome
  rw [hok] at ho
  rcases he : e.outcome with trace | _ | _
  · obtain ⟨hname, hseed, hsteps⟩ := hp.trace trace he
    rw [a.runner_eq] at hname hseed hsteps
    rw [hp.runner]
    exact ⟨trace, rfl, hname.trans a.schedule_name, hseed.trans a.schedule_seed,
      hsteps.trans a.schedule_steps, hlog, a.lookup_play_eq⟩
  · rw [he] at ho; cases ho
  · rw [he] at ho; cases ho

/-- **Bit-exact replay.** A run ends, without the `expect`, in a trace of exactly the schedule's
steps in order, each at its own time rounded up to a tick. It has made one call per step in that
order, and every injector is left as the `arm`s and `disarm`s of its own steps make it. Two runs
match exactly when their seeds and their step lists are equal. -/
theorem run_replays_schedule (a : ReplaySetup I) (b : ReplaySetup J) (ra rb : Bool) :
    (∃ e trace, a.runner.Terminates a.tickNs ra e ∧ e.outcome = .ok trace ∧
      trace.scenarioName = a.scenario.name ∧ trace.seed = a.scenario.seed ∧
      trace.steps = a.scenario.steps ∧
      (∀ ev ∈ trace.events, ev.wallNs.toNat =
        a.tickNs.toNat * max 1 (ev.step.atNs.toNat ⌈/⌉ a.tickNs.toNat)) ∧
      e.runner.callLog = callsOf a.scenario.steps ∧
      ∀ id, e.runner.injectors.lookup id =
        (a.injectors.lookup id).map (calledWith a.ctx (actionsOf a.scenario.steps id))) ∧
    ∀ ea eb ta tb, a.runner.Terminates a.tickNs ra ea → b.runner.Terminates b.tickNs rb eb →
      ea.outcome = .ok ta → eb.outcome = .ok tb →
        (ta.matchesSchedule tb = true ↔
          a.scenario.seed = b.scenario.seed ∧ a.scenario.steps = b.scenario.steps) := by
  constructor
  · obtain ⟨e, he⟩ := exists_terminates_of_fits ra a.tick_pos a.roundUp_lt
    obtain ⟨trace, ho, hname, hseed, hsteps, hlog, hinjectors⟩ := a.outcome_of_terminates he
    exact ⟨e, trace, he, ho, hname, hseed, hsteps,
      wallNs_of_terminates a.tick_pos a.roundUp_lt he trace ho, hlog, hinjectors⟩
  · intro ea eb ta tb hea heb hta htb
    obtain ⟨ta', ho, -, hseed, hsteps, -⟩ := a.outcome_of_terminates hea
    obtain ⟨tb', ho', -, hseed', hsteps', -⟩ := b.outcome_of_terminates heb
    rw [hta] at ho
    rw [htb] at ho'
    cases ho
    cases ho'
    rw [Trace.matchesSchedule_iff, hseed, hsteps, hseed', hsteps']

/-- The scenario of the unit test: one fault, armed at 1000 ns and disarmed at 5000 ns. -/
def pktLossScenario : Scenario where
  name := "test"
  seed := 1
  steps := [⟨1000, "pkt-loss", .arm⟩, ⟨5000, "pkt-loss", .disarm⟩]

/-- The unit test's run of `pktLossScenario`, with ticks of 500 ns. -/
def pktLossSetup : ReplaySetup CountingInjector where
  scenario := pktLossScenario
  schedule := ⟨pktLossScenario, by decide⟩
  injectors := (∅ : Registry CountingInjector).insert "pkt-loss" ⟨false, 0, 0⟩
  ctx := ⟨1⟩
  runner := ⟨⟨pktLossScenario, by decide⟩,
    (∅ : Registry CountingInjector).insert "pkt-loss" ⟨false, 0, 0⟩, ⟨1⟩, []⟩
  tickNs := 500
  validated := ValidatedSchedule.validate_of_check _
  accepted := new_ok_iff.mpr ⟨by decide, rfl⟩
  succeed := callsSucceed_counting _ _ _
  tick_pos := by decide
  fits := by
    intro last hlast
    cases hlast
    decide

/-- The unit test: the trace is the schedule, and the injector was armed once, disarmed once and
is not armed any more. -/
theorem run_replays_pktLoss :
    ∃ e trace, pktLossSetup.runner.Terminates 500 true e ∧ e.outcome = .ok trace ∧
      trace.steps = pktLossScenario.steps ∧
      (∀ ev ∈ trace.events, ev.wallNs.toNat = 500 * max 1 (ev.step.atNs.toNat ⌈/⌉ 500)) ∧
      e.runner.callLog = [("pkt-loss", .arm), ("pkt-loss", .disarm)] ∧
      e.runner.injectors.lookup "pkt-loss" = some ⟨false, 1, 1⟩ := by
  obtain ⟨⟨e, trace, he, ho, -, -, hsteps, hwall, hlog, hinjectors⟩, -⟩ :=
    run_replays_schedule pktLossSetup pktLossSetup true false
  refine ⟨e, trace, he, ho, hsteps, hwall, hlog, ?_⟩
  have hstart : pktLossSetup.injectors.lookup "pkt-loss" = some ⟨false, 0, 0⟩ :=
    Finmap.lookup_insert _
  rw [hinjectors, hstart]
  rfl

end ReplaySetup

end Blackswan.Replay
