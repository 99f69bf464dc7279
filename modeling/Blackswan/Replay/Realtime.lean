import Blackswan.Replay.Isolation

/-!
# Runs in real time

`run_realtime` is `run` with a sleep of one tick before every pass. The result is the same; what it
adds is that the schedule's times elapse for real, so that a live system has a chance to meet the
faults.

1. `runRealtime_eq_run`: the sleep changes neither the outcome nor the runner.
2. `Slept` is the invariant after `k` passes: `k` ticks have been slept, and the steps that were
   performed are those whose time has come.
3. `runRealtime_keeps_time` reads off when each call is made and how long the whole run takes.
-/

namespace Blackswan.Replay

open Lib (Outcome Turn Ends loop)

/-- The time of the last step, rounded up to a tick. -/
def endsAt (tick : ℕ) (steps : List ScenarioStep) : ℕ :=
  (steps.getLast?.map fun step => roundUp tick step.atNs.toNat).getD 0

namespace Runner

variable {I : Type} [FaultInjector I]

/-! ## The same run -/

variable {r : Runner I} {tickNs : UInt64} {realtime : Bool} {s s' : LoopState I} {e : RunEnd I}

/-- The same variables, whatever was slept. -/
def SameButSlept (s u : LoopState I) : Prop :=
  u.scheduler = s.scheduler ∧ u.trace = s.trace ∧ u.runner = s.runner

/-- A pass does the same in both modes. -/
theorem pass_mode {u : LoopState I} (h : SameButSlept s u) (mode mode' : Bool) :
    (∀ s', pass tickNs mode s = .again s' →
      ∃ u', pass tickNs mode' u = .again u' ∧ SameButSlept s' u') ∧
    ∀ e, pass tickNs mode s = .done e →
      ∃ q, pass tickNs mode' u = .done q ∧ q.outcome = e.outcome ∧ q.runner = e.runner := by
  obtain ⟨hsched, htrace, hrunner⟩ := h
  unfold pass
  rw [hsched, htrace, hrunner]
  by_cases hf : s.scheduler.isFinished = true
  · rw [if_pos hf, if_pos hf]
    refine ⟨fun s' hs => (by cases hs), fun e he => ?_⟩
    cases he
    exact ⟨_, rfl, rfl, rfl⟩
  · rw [if_neg hf, if_neg hf]
    dsimp only
    rcases s.runner.fireDue (s.scheduler.advance tickNs).2.nowNs (s.scheduler.advance tickNs).1
      s.trace with ⟨_ | _ | _, r'⟩
    · refine ⟨fun s' hs => ?_, fun e he => (by cases he)⟩
      cases hs
      exact ⟨_, rfl, rfl, rfl, rfl⟩
    · refine ⟨fun s' hs => (by cases hs), fun e he => ?_⟩
      cases he
      exact ⟨_, rfl, rfl, rfl⟩
    · refine ⟨fun s' hs => (by cases hs), fun e he => ?_⟩
      cases he
      exact ⟨_, rfl, rfl, rfl⟩

theorem runInner_mode {mode : Bool} (mode' : Bool) {fuel : ℕ}
    (h : r.runInner fuel tickNs mode = some e) :
    ∃ q, r.runInner fuel tickNs mode' = some q ∧ q.outcome = e.outcome ∧ q.runner = e.runner := by
  refine Lib.loop_simulates SameButSlept (fun _ _ => False)
    (fun q : RunEnd I => q.outcome = e.outcome ∧ q.runner = e.runner) ?_ ?_ ?_ ?_ ⟨rfl, rfl, rfl⟩ h
  · exact fun s s' u hsame hp => Or.inl ((pass_mode hsame mode mode').1 s' hp)
  · exact fun s s' q hq _ => hq
  · exact fun s u hsame hp => (pass_mode hsame mode mode').2 e hp
  · exact fun s q hq _ => hq.elim

/-- The sleep changes neither the outcome nor the runner, and no run ends because of it. -/
theorem runRealtime_eq_run (r : Runner I) (fuel : ℕ) (tickNs : UInt64) :
    (r.runRealtime fuel tickNs).map (fun e => (e.outcome, e.runner)) =
      (r.run fuel tickNs).map fun e => (e.outcome, e.runner) := by
  unfold runRealtime run
  rcases hrun : r.runInner fuel tickNs false with _ | e
  · rcases hreal : r.runInner fuel tickNs true with _ | q
    · rfl
    · obtain ⟨e, he, -⟩ := runInner_mode false hreal
      rw [hrun] at he
      cases he
  · obtain ⟨q, hq, ho, hr⟩ := runInner_mode true hrun
    rw [hq, Option.map_some, Option.map_some, ho, hr]

/-! ## The calls of a play -/

/-- A play calls in the order of the steps, up to the call that fails. -/
def Logs (r : Runner I) (steps : List ScenarioStep) :
    Outcome HarnessError Unit × Runner I → Prop
  | (.ok (), r') => r'.callLog = r.callLog ++ callsOf steps
  | (.err _, r') => ∃ n < steps.length, r'.callLog = r.callLog ++ callsOf (steps.take (n + 1))
  | (.panic, _) => True

theorem play_logs (r : Runner I) (steps : List ScenarioStep) : Logs r steps (r.play steps) := by
  induction steps generalizing r with
  | nil => exact (List.append_nil _).symm
  | cons step rest ih =>
    rcases hi : r.injectors.lookup step.faultId with _ | i
    · have hfire : r.fireStep step = (.panic, r) := by rw [fireStep, hi]
      rw [play_cons_panic hfire]
      trivial
    · have hfire := fireStep_of_lookup hi
      have hcall : (r.call step.faultId step.action i).2.callLog =
          r.callLog ++ callsOf [step] := by
        simp [callLog, callsOf, call]
      rcases hres : (perform r.ctx step.action i).1 with e | ⟨⟩ <;> rw [hres] at hfire
      · rw [play_cons_err hfire]
        exact ⟨0, Nat.zero_lt_succ _, hcall⟩
      · rw [play_cons_ok hfire]
        have hrest := ih (r.call step.faultId step.action i).2
        generalize (r.call step.faultId step.action i).2.play rest = p at hrest ⊢
        rcases p with ⟨⟨⟩ | err | _, r'⟩
        · show r'.callLog = _
          rw [show r'.callLog = _ from hrest, hcall, List.append_assoc]
          rfl
        · obtain ⟨n, hn, hlog⟩ := hrest
          refine ⟨n + 1, Nat.succ_lt_succ hn, ?_⟩
          rw [hlog, hcall, List.append_assoc]
          rfl
        · trivial

theorem callLog_of_play {steps : List ScenarioStep} {r' : Runner I}
    (h : r.play steps = (.ok (), r')) : r'.callLog = r.callLog ++ callsOf steps := by
  have hlogs := play_logs r steps
  rw [h] at hlogs
  exact hlogs

/-! ## The time slept -/

theorem slept_again (h : pass tickNs true s = .again s') :
    s'.sleptNs = s.sleptNs + tickNs.toNat := by
  unfold pass at h
  by_cases hf : s.scheduler.isFinished = true
  · rw [if_pos hf] at h
    cases h
  · rw [if_neg hf] at h
    simp only [if_true] at h
    split at h <;> cases h
    rfl

theorem slept_done (h : pass tickNs true s = .done e) :
    e.sleptNs = if s.scheduler.isFinished then s.sleptNs else s.sleptNs + tickNs.toNat := by
  unfold pass at h
  by_cases hf : s.scheduler.isFinished = true
  · rw [if_pos hf] at h ⊢
    cases h
    rfl
  · rw [if_neg hf] at h ⊢
    simp only [if_true] at h
    split at h <;> cases h <;> rfl

/-- After `k` passes: `k` ticks have been slept, the steps before the cursor are due, and the last
step was still to come one tick before. -/
structure Slept (r : Runner I) (tickNs : UInt64) (k : ℕ) (s : LoopState I) : Prop where
  onTime : OnTime r tickNs k s
  slept : s.sleptNs = k * tickNs.toNat
  fresh : k = 0 → s.scheduler.cursor = 0
  passed : ∀ step ∈ r.schedule.steps.take s.scheduler.cursor,
    step.atNs.toNat ≤ k * tickNs.toNat
  late : ∀ j, k = j + 1 → ∃ last, r.schedule.steps.getLast? = some last ∧
    (j = 0 ∨ j * tickNs.toNat < last.atNs.toNat)

theorem slept_start (r : Runner I) (tickNs : UInt64) : Slept r tickNs 0 r.start where
  onTime := onTime_start r tickNs
  slept := (Nat.zero_mul _).symm
  fresh := fun _ => rfl
  passed := by
    intro step hstep
    cases hstep
  late := by
    intro j hj
    cases hj

omit [FaultInjector I] in
/-- The steps from the cursor on are not earlier than the one at the cursor. -/
theorem cursor_le_of_mem_drop {c : ℕ} (hc : c < r.schedule.steps.length) {step : ScenarioStep}
    (hstep : step ∈ r.schedule.steps.drop c) :
    r.schedule.steps[c].atNs.toNat ≤ step.atNs.toNat := by
  have hpair := r.schedule.steps_pairwise.sublist (List.drop_sublist c _)
  rw [List.drop_eq_getElem_cons hc] at hstep hpair
  rcases List.mem_cons.mp hstep with rfl | hstep
  · exact Nat.le_refl _
  · exact UInt64.le_iff_toNat_le.mp ((List.pairwise_cons.mp hpair).1 step hstep)

section
variable {k : ℕ} (htick : 1 ≤ tickNs.toNat)
  (hfit : ∀ step ∈ r.schedule.steps, roundUp tickNs.toNat step.atNs.toNat < 2 ^ 64)
include htick hfit

/-- What comes due in the next pass is rounded up to the next tick. -/
theorem Slept.roundUp_due (h : Slept r tickNs k s) (hf : s.scheduler.isFinished = false)
    {due : ScenarioStep} (hdue : due ∈ (s.scheduler.advance tickNs).1) :
    roundUp tickNs.toNat due.atNs.toNat = (k + 1) * tickNs.toNat := by
  obtain ⟨step, hstep⟩ := exists_waiting h.onTime.ticked.tracks hf
  have hlow := UInt64.le_iff_toNat_le.mp
    (cursor_le_of_mem_advance h.onTime.ticked.tracks hstep hdue)
  have hhigh := UInt64.le_iff_toNat_le.mp (s.scheduler.due_of_mem_advance tickNs hdue)
  rw [h.onTime.clock_succ htick hfit hf] at hhigh
  refine roundUp_eq htick ?_ hhigh
  rcases h.onTime.waiting hstep with h0 | hw
  · exact Or.inl h0
  · exact Or.inr (by omega)

theorem slept_pass (h : Slept r tickNs k s) (hp : pass tickNs true s = .again s') :
    Slept r tickNs (k + 1) s' := by
  obtain ⟨hf, hsched, -, -⟩ := pass_eq_again hp
  have htake := s.scheduler.take_cursor_advance tickNs
  rw [h.onTime.ticked.tracks.schedule, ← hsched] at htake
  constructor
  · exact onTime_pass h.onTime htick hfit hp
  · rw [slept_again hp, h.slept, Nat.succ_mul]
  · intro hk
    cases hk
  · intro step hstep
    rw [htake] at hstep
    rcases List.mem_append.mp hstep with hstep | hstep
    · exact Nat.le_trans (h.passed step hstep) (Nat.mul_le_mul_right _ (Nat.le_succ k))
    · rw [← h.roundUp_due htick hfit hf hstep]
      exact le_roundUp htick _
  · intro j hj
    obtain rfl : k = j := Nat.succ.inj hj
    obtain ⟨step, hstep⟩ := exists_waiting h.onTime.ticked.tracks hf
    have hmem := List.mem_of_getElem? hstep
    rcases hlast : r.schedule.steps.getLast? with _ | last
    · rw [List.getLast?_eq_none_iff.mp hlast] at hmem
      cases hmem
    · have hle := UInt64.le_iff_toNat_le.mp (r.schedule.atNs_le_last hlast hmem)
      refine ⟨last, rfl, ?_⟩
      rcases h.onTime.waiting hstep with h0 | hw
      · exact Or.inl h0
      · exact Or.inr (by omega)

omit hfit in
/-- The steps that were performed are those whose time, rounded up, has been slept. -/
theorem Slept.performed (h : Slept r tickNs k s) :
    r.schedule.steps.take s.scheduler.cursor =
      r.schedule.steps.filter fun step =>
        decide (roundUp tickNs.toNat step.atNs.toNat ≤ s.sleptNs) := by
  have hbefore : ∀ step ∈ r.schedule.steps.take s.scheduler.cursor,
      decide (roundUp tickNs.toNat step.atNs.toNat ≤ s.sleptNs) = true := by
    intro step hstep
    rw [decide_eq_true_eq, h.slept]
    rcases k with _ | j
    · rw [h.fresh rfl, List.take_zero] at hstep
      cases hstep
    · have hlow : j = 0 ∨ j * tickNs.toNat < (j + 1) * tickNs.toNat := by
        rw [Nat.succ_mul]
        omega
      calc roundUp tickNs.toNat step.atNs.toNat
          ≤ roundUp tickNs.toNat ((j + 1) * tickNs.toNat) := roundUp_mono (h.passed step hstep)
        _ = (j + 1) * tickNs.toNat := roundUp_eq htick hlow (Nat.le_refl _)
  have hafter : ∀ step ∈ r.schedule.steps.drop s.scheduler.cursor,
      ¬ decide (roundUp tickNs.toNat step.atNs.toNat ≤ s.sleptNs) = true := by
    intro step hstep
    rw [decide_eq_true_eq, h.slept, Nat.not_le]
    have hlt : s.scheduler.cursor < r.schedule.steps.length := by
      rw [← not_le, ← List.drop_eq_nil_iff]
      exact List.ne_nil_of_mem hstep
    have hle := cursor_le_of_mem_drop hlt hstep
    have hround := succ_mul_le_roundUp htick (k := k) (t := step.atNs.toNat) (by
      rcases h.onTime.waiting (List.getElem?_eq_getElem hlt) with h0 | hw
      · exact Or.inl h0
      · exact Or.inr (by omega))
    rw [Nat.succ_mul] at hround
    omega
  conv_rhs => rw [← List.take_append_drop s.scheduler.cursor r.schedule.steps]
  rw [List.filter_append, List.filter_eq_self.mpr hbefore, List.filter_eq_nil_iff.mpr hafter,
    List.append_nil]

/-- Between any two passes. -/
theorem exists_slept (h : Lib.Passes (pass tickNs true) r.start s) : ∃ k, Slept r tickNs k s := by
  induction h with
  | refl => exact ⟨0, slept_start r tickNs⟩
  | again _ hp ih =>
    obtain ⟨k, hk⟩ := ih
    exact ⟨k + 1, slept_pass htick hfit hk hp⟩

/-- The pass after which the run ends: nothing is left, or one of the steps that came due fails. -/
theorem Slept.done (h : Slept r tickNs k s) (hp : pass tickNs true s = .done e)
    (hpanic : e.outcome ≠ .panic) :
    ∃ j, e.runner.callLog = r.callLog ++ callsOf (r.schedule.steps.take j) ∧
      e.sleptNs = endsAt tickNs.toNat (r.schedule.steps.take j) := by
  have htracks := h.onTime.ticked.tracks
  have hlog := callLog_of_play htracks.played
  have hslept := slept_done hp
  rw [h.slept] at hslept
  rcases pass_eq_done hp with ⟨hf, -, hr⟩ | ⟨hne, ho, hr⟩
  · refine ⟨s.scheduler.cursor, by rw [hr, hlog], ?_⟩
    rw [hslept, if_pos hf]
    have hall : r.schedule.steps.take s.scheduler.cursor = r.schedule.steps := by
      have hlen := s.scheduler.isFinished_iff.mp hf
      rw [htracks.schedule] at hlen
      exact List.take_of_length_le hlen
    rcases k with _ | j
    · rw [h.fresh rfl, Nat.zero_mul]
      rfl
    · obtain ⟨last, hlast, hlow⟩ := h.late j rfl
      have hpassed := h.passed last (by rw [hall]; exact List.mem_of_getLast? hlast)
      rw [hall, endsAt, hlast, Option.map_some, Option.getD_some]
      exact (roundUp_eq htick hlow hpassed).symm
  · have hf : s.scheduler.isFinished = false := by
      rw [Bool.eq_false_iff]
      intro hf
      rw [Scheduler.advance_due, s.scheduler.isFinished_iff_rest.mp hf, List.take_nil] at hne
      exact hne rfl
    have hlogs := play_logs s.runner (s.scheduler.advance tickNs).1
    generalize s.runner.play (s.scheduler.advance tickNs).1 = p at hlogs hne ho hr
    rcases p with ⟨⟨⟩ | err | _, r'⟩
    · exact absurd rfl hne
    · obtain ⟨n, hn, hcalls⟩ := hlogs
      -- the steps up to the failing one
      have htake : r.schedule.steps.take (s.scheduler.cursor + (n + 1)) =
          r.schedule.steps.take s.scheduler.cursor ++
            (s.scheduler.advance tickNs).1.take (n + 1) := by
        have hdue := hn
        rw [Scheduler.advance_due, List.length_take, lt_min_iff] at hdue
        rw [Scheduler.advance_due, List.take_take, Nat.min_eq_left hdue.1, List.take_add,
          Scheduler.rest, htracks.schedule]
      refine ⟨s.scheduler.cursor + (n + 1), ?_, ?_⟩
      · rw [hr, hcalls, hlog, htake, callsOf, callsOf, callsOf, List.map_append,
          List.append_assoc]
      · rw [hslept, if_neg (by simp [hf]), htake, endsAt, List.take_succ_eq_append_getElem hn,
          ← List.append_assoc, List.getLast?_concat, Option.map_some, Option.getD_some,
          h.roundUp_due htick hfit hf (List.getElem_mem hn), Nat.succ_mul]
    · rcases he : e.outcome with trace | err | _ <;> rw [he] at ho <;> cases ho
      exact absurd he hpanic

end

end Runner

/-! ## Keeping time -/

open Runner

section
variable {I : Type} [FaultInjector I] {scenario : Scenario} {schedule : ValidatedSchedule}
  {injectors : Registry I} {ctx : FaultContext} {r : Runner I} {tickNs : UInt64}

/-- A run in real time that has ended slept for the last step it called for. -/
theorem calls_and_slept (hreg : ∀ step ∈ schedule.steps, step.faultId ∈ injectors)
    (htick : 1 ≤ tickNs.toNat)
    (hfit : ∀ step ∈ schedule.steps, roundUp tickNs.toNat step.atNs.toNat < 2 ^ 64)
    {fuel : ℕ} {e : RunEnd I}
    (hrun : (⟨schedule, injectors, ctx, []⟩ : Runner I).runInner fuel tickNs true = some e) :
    ∃ j, e.runner.callLog = callsOf (schedule.steps.take j) ∧
      e.sleptNs = endsAt tickNs.toNat (schedule.steps.take j) := by
  have hpanic : e.outcome ≠ .panic := by
    rcases failing_call hreg hrun with ⟨trace, ho⟩ | ⟨err, c, ho, -⟩ <;> rw [ho] <;>
      exact fun h => by cases h
  revert hpanic
  refine Ends.invariant (fun s => ∃ k, Slept ⟨schedule, injectors, ctx, []⟩ tickNs k s)
    (fun e => e.outcome ≠ .panic → ∃ j, e.runner.callLog = callsOf (schedule.steps.take j) ∧
      e.sleptNs = endsAt tickNs.toNat (schedule.steps.take j)) ?_ ?_
    ⟨0, slept_start _ tickNs⟩ ⟨fuel, hrun⟩
  · rintro s s' ⟨k, hk⟩ hp
    exact ⟨k + 1, slept_pass htick hfit hk hp⟩
  · rintro s e ⟨k, hk⟩ hp hne
    refine Slept.done htick ?_ hk hp hne
    exact hfit

/-- **A run in real time keeps the schedule's time.** It returns what `run` returns and leaves the
runner `run` leaves, whatever the tick. Now let the tick not be zero and the times, rounded up to a
tick, fit the clock. Then, whenever the run stands between two passes, the calls made are those of
the steps whose time, rounded up to a tick, has been slept: no call comes early, and none is late by
a tick. And the run takes as long as the last step it calls for, whether or not that call fails. -/
theorem runRealtime_keeps_time (hvalid : ValidatedSchedule.validate scenario = .ok schedule)
    (hnew : Runner.new schedule injectors ctx = .ok r) (tickNs : UInt64) :
    (∀ fuel, (r.runRealtime fuel tickNs).map (fun e => (e.outcome, e.runner)) =
      (r.run fuel tickNs).map fun e => (e.outcome, e.runner)) ∧
    (1 ≤ tickNs.toNat →
      (∀ step ∈ scenario.steps, roundUp tickNs.toNat step.atNs.toNat < 2 ^ 64) →
      (∀ s, Lib.Passes (pass tickNs true) r.start s →
        s.runner.callLog = callsOf (scenario.steps.filter fun step =>
          decide (roundUp tickNs.toNat step.atNs.toNat ≤ s.sleptNs))) ∧
      ∃ bound e j, (∀ fuel ≥ bound, r.runRealtime fuel tickNs = some e) ∧
        e.runner.callLog = callsOf (scenario.steps.take j) ∧
        e.sleptNs = endsAt tickNs.toNat (scenario.steps.take j)) := by
  obtain rfl := ValidatedSchedule.scenario_of_validate hvalid
  obtain ⟨hreg, rfl⟩ := new_ok_iff.mp hnew
  refine ⟨fun fuel => runRealtime_eq_run _ fuel tickNs, fun htick hfit => ⟨fun s hs => ?_, ?_⟩⟩
  · have hslept : ∃ k, Slept ⟨schedule, injectors, ctx, []⟩ tickNs k s :=
      exists_slept htick hfit hs
    obtain ⟨k, hk⟩ := hslept
    rw [callLog_of_play hk.onTime.ticked.tracks.played, hk.performed htick]
    rfl
  · have hends : ∃ e, Terminates ⟨schedule, injectors, ctx, []⟩ tickNs true e :=
      exists_terminates_of_fits true htick hfit
    obtain ⟨e, bound, hbound⟩ := hends
    have hrun := hbound bound (Nat.le_refl bound)
    obtain ⟨j, hlog, hslept⟩ := calls_and_slept hreg htick hfit hrun
    exact ⟨bound, e, j, hbound, hlog, hslept⟩

/-- The overlapping faults in ticks of 700 ns: the run takes 4200 ns. -/
theorem runRealtime_overlap :
    ∃ bound e, (∀ fuel ≥ bound, overlapSetup.runner.runRealtime fuel 700 = some e) ∧
      e.runner.callLog = callsOf overlapScenario.steps ∧ e.sleptNs = 4200 := by
  obtain ⟨bound, e, j, hrun, hlog, hslept⟩ :=
    ((runRealtime_keeps_time overlapSetup.validated overlapSetup.accepted 700).2
      overlapSetup.tick_pos overlapSetup.roundUp_lt).2
  obtain ⟨-, -, -, -, -, hall, -⟩ := overlapSetup.outcome_of_terminates ⟨bound, hrun⟩
  -- every call succeeds, so the last step called for is the last one there is
  have hlen : overlapSetup.scenario.steps.length ≤ j := by
    have hcalls := congrArg List.length (hall.symm.trans hlog)
    simp only [callsOf, List.length_map, List.length_take] at hcalls
    omega
  refine ⟨bound, e, hrun, hall, ?_⟩
  rw [hslept, List.take_of_length_le hlen]
  decide

end

end Blackswan.Replay
