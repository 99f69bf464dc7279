import Blackswan.Replay.Advance
import Blackswan.Replay.Halting

/-!
# The faults of a scenario do not disturb each other

A scenario interleaves the steps of several faults. `ValidatedSchedule.only` keeps the steps of
some of them, and the run of what is kept follows the run of the whole. This is about the runner:
the injectors are taken to be independent, what a call returns depending on the earlier calls on
the same injector only. Two FIX faults that listen on one address, or two XDP faults of one
interface, are not.

1. `valid_only`: what is kept of a validated schedule is valid.
2. `play_projects`: the whole play, seen from the faults that are kept, is their own play.
3. `Sim` and `Ended` relate the passes of the two runs; the kept steps come due in the same pass,
   and the run of what is kept may end first.
4. `run_isolates_faults` and `run_succeeds_iff` put this together by `Lib.loop_simulates`.
-/

namespace Blackswan.Replay

open Lib (Outcome Turn loop)

/-! ## What is kept of a schedule -/

/-- The step is on a fault that is kept. -/
def kept (keep : String → Bool) (step : ScenarioStep) : Bool := keep step.faultId

/-- The scenario with the steps of some faults only. -/
def onlySteps (keep : String → Bool) (scenario : Scenario) : Scenario :=
  { scenario with steps := scenario.steps.filter (kept keep) }

theorem actionsOf_filter (keep : String → Bool) (steps : List ScenarioStep) (id : String) :
    actionsOf (steps.filter (kept keep)) id = if keep id then actionsOf steps id else [] := by
  unfold actionsOf
  rw [List.filter_filter]
  by_cases hid : keep id = true
  · rw [if_pos hid]
    congr 1
    refine List.filter_congr fun step _ => ?_
    by_cases hstep : step.faultId = id <;> simp [kept, hstep, hid]
  · rw [if_neg hid, List.map_eq_nil_iff, List.filter_eq_nil_iff]
    intro step _
    by_cases hstep : step.faultId = id <;> simp [kept, hstep, hid]

theorem valid_only (keep : String → Bool) {steps : List ScenarioStep}
    (h : checkSteps ∅ 0 steps = .ok ()) :
    checkSteps ∅ 0 (steps.filter (kept keep)) = .ok () := by
  rw [checkSteps_iff] at h ⊢
  obtain ⟨⟨hlow, hsorted⟩, halt⟩ := h
  refine ⟨⟨fun step hstep => hlow step (List.mem_of_mem_filter hstep), hsorted.filter _⟩, ?_⟩
  intro id
  rw [actionsOf_filter]
  split_ifs
  · exact halt id
  · exact alternatesFrom_nil _

/-- A validated schedule with the steps of some faults only. -/
def ValidatedSchedule.only (keep : String → Bool) (schedule : ValidatedSchedule) :
    ValidatedSchedule :=
  ⟨onlySteps keep schedule.scenario, valid_only keep schedule.valid⟩

theorem ValidatedSchedule.validate_only (keep : String → Bool) {scenario : Scenario}
    {schedule : ValidatedSchedule} (h : validate scenario = .ok schedule) :
    validate (onlySteps keep scenario) = .ok (schedule.only keep) := by
  obtain rfl := scenario_of_validate h
  exact validate_of_check (valid_only keep schedule.valid)

/-- The events of some faults only. -/
def Trace.only (keep : String → Bool) (trace : Trace) : Trace :=
  { trace with events := trace.events.filter fun event => kept keep event.step }

theorem filter_stamped (keep : String → Bool) (steps : List ScenarioStep) (now : UInt64) :
    (steps.map fun step => (⟨step, now⟩ : TraceEvent)).filter (fun event => kept keep event.step) =
      (steps.filter (kept keep)).map fun step => ⟨step, now⟩ := by
  rw [List.filter_map]
  rfl

/-- What is kept of a sorted list comes due with the whole list. -/
theorem due_filter (keep : String → Bool) (now : UInt64) {steps : List ScenarioStep}
    (hsorted : steps.Pairwise fun a b => a.atNs ≤ b.atNs) :
    (steps.filter (kept keep)).take (scanDue now (steps.filter (kept keep))) =
        (steps.take (scanDue now steps)).filter (kept keep) ∧
      (steps.filter (kept keep)).drop (scanDue now (steps.filter (kept keep))) =
        (steps.drop (scanDue now steps)).filter (kept keep) := by
  obtain ⟨htake, hdrop⟩ := scanDue_split now hsorted
  obtain ⟨htake', hdrop'⟩ := scanDue_split now (hsorted.filter (kept keep))
  rw [htake, hdrop, htake', hdrop']
  exact ⟨List.filter_comm _ _ _, List.filter_comm _ _ _⟩

namespace Scheduler

/-- The steps after the cursor. -/
def rest (s : Scheduler) : List ScenarioStep := s.schedule.steps.drop s.cursor

variable (s : Scheduler) (tickNs : UInt64)

theorem rest_pairwise : s.rest.Pairwise fun a b => a.atNs ≤ b.atNs :=
  s.schedule.steps_pairwise.sublist (List.drop_sublist _ _)

theorem isFinished_iff_rest : s.isFinished = true ↔ s.rest = [] := by
  rw [s.isFinished_iff, rest, List.drop_eq_nil_iff]

theorem advance_due : (s.advance tickNs).1 = s.rest.take (scanDue (s.nowNs + tickNs) s.rest) := rfl

theorem rest_advance :
    (s.advance tickNs).2.rest = s.rest.drop (scanDue (s.nowNs + tickNs) s.rest) := by
  unfold rest
  rw [List.drop_drop]
  rfl

end Scheduler

namespace Runner

variable {I : Type} [FaultInjector I]

/-! ## The play, seen from the faults that are kept -/

/-- `t` is `r` as far as the faults that are kept can tell. -/
structure Alike (keep : String → Bool) (r t : Runner I) : Prop where
  ctx : t.ctx = r.ctx
  lookup : ∀ id, keep id = true → t.injectors.lookup id = r.injectors.lookup id
  log : t.callLog = r.callLog.filter fun c => keep c.1

variable {keep : String → Bool} {r r' t : Runner I} {step : ScenarioStep} {i : I}

/-- A call on a fault that is kept, made on both sides. -/
theorem Alike.call (h : Alike keep r t) (hkeep : keep step.faultId = true) :
    Alike keep (r.call step.faultId step.action i).2 (t.call step.faultId step.action i).2 where
  ctx := h.ctx
  lookup := by
    intro id hid
    show (t.injectors.insert _ _).lookup id = (r.injectors.insert _ _).lookup id
    rw [h.ctx]
    by_cases hsame : id = step.faultId
    · subst hsame
      rw [Finmap.lookup_insert, Finmap.lookup_insert]
    · rw [Finmap.lookup_insert_of_ne _ hsame, Finmap.lookup_insert_of_ne _ hsame]
      exact h.lookup id hid
  log := by
    have hlog := h.log
    unfold callLog at hlog ⊢
    simp [Runner.call, hlog, hkeep]

/-- A call on a fault that is not kept. -/
theorem Alike.skip (h : Alike keep r t) (hskip : keep step.faultId = false) :
    Alike keep (r.call step.faultId step.action i).2 t where
  ctx := h.ctx
  lookup := by
    intro id hid
    have hne : id ≠ step.faultId := by
      rintro rfl
      rw [hskip] at hid
      cases hid
    show t.injectors.lookup id = (r.injectors.insert _ _).lookup id
    rw [Finmap.lookup_insert_of_ne _ hne]
    exact h.lookup id hid
  log := by
    have hlog := h.log
    unfold callLog at hlog ⊢
    simp [Runner.call, hlog, hskip]

theorem mem_play {steps : List ScenarioStep} {id : String} (h : id ∈ r.injectors) :
    id ∈ (r.play steps).2.injectors := by
  induction steps generalizing r with
  | nil => exact h
  | cons step rest ih =>
    rcases hi : r.injectors.lookup step.faultId with _ | i
    · have hfire : r.fireStep step = (.panic, r) := by rw [fireStep, hi]
      rw [play_cons_panic hfire]
      exact h
    · have hfire := fireStep_of_lookup hi
      have hmem : id ∈ (r.call step.faultId step.action i).2.injectors :=
        Finmap.mem_insert.mpr (Or.inr h)
      rcases hres : (perform r.ctx step.action i).1 with e | ⟨⟩ <;> rw [hres] at hfire
      · rw [play_cons_err hfire]
        exact hmem
      · rw [play_cons_ok hfire]
        exact ih hmem

/-- How the play of the whole and the play of what is kept end: alike, unless the whole is stopped
by a call on another fault. -/
def Projects (keep : String → Bool) :
    Outcome HarnessError Unit × Runner I → Outcome HarnessError Unit × Runner I → Prop
  | (.ok (), r'), q => ∃ t', q = (.ok (), t') ∧ Alike keep r' t'
  | (.err e, r'), q => ∃ c, r'.calls.getLast? = some c ∧
      (keep c.faultId = true → ∃ t', q = (.err e, t') ∧ Alike keep r' t')
  | (.panic, _), _ => False

theorem play_projects {steps : List ScenarioStep}
    (hreg : ∀ step ∈ steps, step.faultId ∈ r.injectors) (h : Alike keep r t) :
    Projects keep (r.play steps) (t.play (steps.filter (kept keep))) := by
  induction steps generalizing r t with
  | nil => exact ⟨t, rfl, h⟩
  | cons step rest ih =>
    obtain ⟨i, hi⟩ := Finmap.mem_iff.mp (hreg step List.mem_cons_self)
    have hfire := fireStep_of_lookup hi
    have hreg' : ∀ s ∈ rest, s.faultId ∈ (r.call step.faultId step.action i).2.injectors :=
      fun s hs => Finmap.mem_insert.mpr (Or.inr (hreg s (List.mem_cons_of_mem step hs)))
    by_cases hkeep : keep step.faultId = true
    · -- the same call is made on both sides
      have hfire' := fireStep_of_lookup ((h.lookup _ hkeep).trans hi)
      have hfilter : (step :: rest).filter (kept keep) = step :: rest.filter (kept keep) :=
        List.filter_cons_of_pos hkeep
      rw [h.ctx] at hfire'
      rcases hres : (perform r.ctx step.action i).1 with e | ⟨⟩ <;> rw [hres] at hfire hfire'
      · rw [hfilter, play_cons_err hfire, play_cons_err hfire']
        exact ⟨_, List.getLast?_concat, fun _ => ⟨_, rfl, h.call hkeep⟩⟩
      · rw [hfilter, play_cons_ok hfire, play_cons_ok hfire']
        exact ih hreg' (h.call hkeep)
    · -- the call is made on one side only
      have hskip : keep step.faultId = false := Bool.eq_false_iff.mpr hkeep
      have hfilter : (step :: rest).filter (kept keep) = rest.filter (kept keep) :=
        List.filter_cons_of_neg hkeep
      rcases hres : (perform r.ctx step.action i).1 with e | ⟨⟩ <;> rw [hres] at hfire
      · rw [play_cons_err hfire]
        exact ⟨_, List.getLast?_concat, fun hk => absurd hk hkeep⟩
      · rw [hfilter, play_cons_ok hfire]
        exact ih hreg' (h.skip hskip)

/-! ## One pass of both runs -/

variable {tickNs : UInt64} {realtime : Bool} {s s' u : LoopState I} {e q : RunEnd I}

/-- Both runs have made the same number of passes. -/
structure Sim (keep : String → Bool) (s u : LoopState I) : Prop where
  registered : ∀ step ∈ s.scheduler.rest, step.faultId ∈ s.runner.injectors
  clock : u.scheduler.nowNs = s.scheduler.nowNs
  rest : u.scheduler.rest = s.scheduler.rest.filter (kept keep)
  runner : Alike keep s.runner u.runner
  trace : u.trace = s.trace.only keep

/-- The run of what is kept has ended, and the whole has no step of it left. -/
structure Ended (keep : String → Bool) (s : LoopState I) (q : RunEnd I) : Prop where
  registered : ∀ step ∈ s.scheduler.rest, step.faultId ∈ s.runner.injectors
  rest : s.scheduler.rest.filter (kept keep) = []
  runner : Alike keep s.runner q.runner
  outcome : q.outcome = .ok (s.trace.only keep)

omit [FaultInjector I] in
theorem Sim.due (h : Sim keep s u) (tickNs : UInt64) :
    (u.scheduler.advance tickNs).1 = (s.scheduler.advance tickNs).1.filter (kept keep) ∧
      (u.scheduler.advance tickNs).2.rest =
        (s.scheduler.advance tickNs).2.rest.filter (kept keep) := by
  rw [Scheduler.advance_due, Scheduler.advance_due, Scheduler.rest_advance,
    Scheduler.rest_advance, h.rest, h.clock]
  exact due_filter keep _ s.scheduler.rest_pairwise

theorem mem_rest_of_mem_due {s : Scheduler} {step : ScenarioStep}
    (h : step ∈ (s.advance tickNs).1) : step ∈ s.rest :=
  List.mem_of_mem_take h

theorem registered_again (hp : pass tickNs realtime s = .again s')
    (h : ∀ step ∈ s.scheduler.rest, step.faultId ∈ s.runner.injectors) :
    ∀ step ∈ s'.scheduler.rest, step.faultId ∈ s'.runner.injectors := by
  obtain ⟨-, hsched, hplay, -⟩ := pass_eq_again hp
  intro step hstep
  rw [hsched, Scheduler.rest_advance] at hstep
  rw [show s'.runner = _ from (congrArg Prod.snd hplay).symm]
  exact mem_play (h step (List.mem_of_mem_drop hstep))

/-- The due steps of the whole, played on both sides. -/
theorem projects_due (tickNs : UInt64)
    (hreg : ∀ step ∈ s.scheduler.rest, step.faultId ∈ s.runner.injectors)
    (h : Alike keep s.runner t) :
    Projects keep (s.runner.play (s.scheduler.advance tickNs).1)
      (t.play ((s.scheduler.advance tickNs).1.filter (kept keep))) :=
  play_projects (fun step hstep => hreg step (mem_rest_of_mem_due hstep)) h

/-- Both sides play the kept steps that came due. -/
theorem Sim.again (h : Sim keep s u) (hp : pass tickNs realtime s = .again s')
    (hf : u.scheduler.isFinished = false) :
    ∃ u', pass tickNs realtime u = .again u' ∧ Sim keep s' u' := by
  have hreg := registered_again hp h.registered
  obtain ⟨-, hsched, hplay, htrace⟩ := pass_eq_again hp
  obtain ⟨hdue, hrest⟩ := h.due tickNs
  have hproj := projects_due tickNs h.registered h.runner
  rw [hplay, ← hdue] at hproj
  obtain ⟨t', ht, halike⟩ := hproj
  obtain ⟨sleptNs, hpass⟩ := pass_of_unfinished tickNs realtime hf
  rw [ht] at hpass
  refine ⟨_, hpass, hreg, ?_, ?_, halike, ?_⟩
  · rw [hsched, Scheduler.advance_nowNs, Scheduler.advance_nowNs, h.clock]
  · rw [hsched]
    exact hrest
  · rw [htrace, h.trace, hdue, h.clock]
    simp only [Trace.only, List.filter_append, filter_stamped]

/-- A pass of the whole with no kept step left changes nothing for them. -/
theorem alike_of_again (hreg : ∀ step ∈ s.scheduler.rest, step.faultId ∈ s.runner.injectors)
    (hrest : s.scheduler.rest.filter (kept keep) = []) (h : Alike keep s.runner t)
    (hp : pass tickNs realtime s = .again s') :
    Alike keep s'.runner t ∧ s'.scheduler.rest.filter (kept keep) = [] ∧
      s'.trace.only keep = s.trace.only keep := by
  obtain ⟨-, hsched, hplay, htrace⟩ := pass_eq_again hp
  have hnone : (s.scheduler.advance tickNs).1.filter (kept keep) = [] := by
    rw [List.filter_eq_nil_iff] at hrest ⊢
    exact fun step hstep => hrest step (mem_rest_of_mem_due hstep)
  have hproj := projects_due tickNs hreg h
  rw [hplay, hnone] at hproj
  obtain ⟨t', ht, halike⟩ := hproj
  obtain rfl : t = t' := congrArg Prod.snd ht
  refine ⟨halike, ?_, ?_⟩
  · rw [List.filter_eq_nil_iff] at hrest ⊢
    intro step hstep
    rw [hsched, Scheduler.rest_advance] at hstep
    exact hrest step (List.mem_of_mem_drop hstep)
  · rw [htrace]
    simp only [Trace.only, List.filter_append, filter_stamped, hnone, List.map_nil,
      List.append_nil]

/-- What the run of the kept steps ends in, when the whole ends in `e`. -/
structure Kept (keep : String → Bool) (e q : RunEnd I) : Prop where
  outcome : q.outcome = e.outcome.map (Trace.only keep)
  runner : Alike keep e.runner q.runner

/-- The run was not stopped by a call on a fault that is not kept. -/
def StoppedWithin (keep : String → Bool) (e : RunEnd I) : Prop :=
  ∀ err, e.outcome = .err err → ∀ c, e.runner.calls.getLast? = some c → keep c.faultId = true

/-- A pass in which the whole stops: it was finished, or both sides meet the failing call. -/
theorem done_cases (hreg : ∀ step ∈ s.scheduler.rest, step.faultId ∈ s.runner.injectors)
    (h : Alike keep s.runner t) (hp : pass tickNs realtime s = .done e)
    (hstop : StoppedWithin keep e) :
    (s.scheduler.rest = [] ∧ e.outcome = .ok s.trace ∧ e.runner = s.runner) ∨
      ∃ err t', e.outcome = .err err ∧ Alike keep e.runner t' ∧
        t.play ((s.scheduler.advance tickNs).1.filter (kept keep)) = (.err err, t') := by
  rcases pass_eq_done hp with ⟨hf, ho, hr⟩ | ⟨hne, ho, hr⟩
  · exact Or.inl ⟨(s.scheduler.isFinished_iff_rest).mp hf, ho, hr⟩
  · have hproj := projects_due tickNs hreg h
    rcases hplay : s.runner.play (s.scheduler.advance tickNs).1 with ⟨⟨⟩ | err | _, r'⟩ <;>
      rw [hplay] at hne ho hr hproj
    · exact absurd rfl hne
    · have houtcome : e.outcome = .err err := by
        rcases he : e.outcome with trace | err' | _ <;> rw [he] at ho <;> cases ho
        rfl
      obtain ⟨c, hc, hkept⟩ := hproj
      obtain rfl : e.runner = r' := hr
      obtain ⟨t', ht, halike⟩ := hkept (hstop err houtcome c hc)
      exact Or.inr ⟨err, t', houtcome, halike, ht⟩
    · exact hproj.elim

theorem Sim.done (h : Sim keep s u) (hp : pass tickNs realtime s = .done e)
    (hstop : StoppedWithin keep e) : ∃ q, pass tickNs realtime u = .done q ∧ Kept keep e q := by
  rcases done_cases h.registered h.runner hp hstop with
    ⟨hrest, ho, hr⟩ | ⟨err, t', ho, halike, hplay⟩
  · have hf : u.scheduler.isFinished = true := by
      rw [u.scheduler.isFinished_iff_rest, h.rest, hrest]
      rfl
    refine ⟨_, pass_of_finished hf, ?_, ?_⟩
    · rw [ho, h.trace]
      rfl
    · rw [hr]
      exact h.runner
  · rw [← (h.due tickNs).1] at hplay
    have hf : u.scheduler.isFinished = false := by
      rw [Bool.eq_false_iff]
      intro hf
      -- a finished scheduler has nothing due, and playing nothing does not fail
      rw [Scheduler.advance_due, (u.scheduler.isFinished_iff_rest).mp hf, List.take_nil] at hplay
      cases hplay
    obtain ⟨sleptNs, hpass⟩ := pass_of_unfinished tickNs realtime hf
    rw [hplay] at hpass
    refine ⟨_, hpass, ?_, halike⟩
    rw [ho]
    rfl

theorem Ended.done (h : Ended keep s q) (hp : pass tickNs realtime s = .done e)
    (hstop : StoppedWithin keep e) : Kept keep e q := by
  rcases done_cases h.registered h.runner hp hstop with
    ⟨-, ho, hr⟩ | ⟨err, t', -, -, hplay⟩
  · refine ⟨?_, ?_⟩
    · rw [h.outcome, ho]
      rfl
    · rw [hr]
      exact h.runner
  · have hnone : (s.scheduler.advance tickNs).1.filter (kept keep) = [] := by
      have hrest := h.rest
      rw [List.filter_eq_nil_iff] at hrest ⊢
      exact fun step hstep => hrest step (mem_rest_of_mem_due hstep)
    rw [hnone] at hplay
    cases hplay

/-- **The run of what is kept follows the run of the whole.** -/
theorem runInner_only {fuel : ℕ} (hrun : r.runInner fuel tickNs realtime = some e)
    (hstop : StoppedWithin keep e) (hsim : Sim keep r.start t.start) :
    ∃ q, t.runInner fuel tickNs realtime = some q ∧ Kept keep e q := by
  refine Lib.loop_simulates (Sim keep) (Ended keep) (Kept keep e) ?_ ?_ ?_ ?_ hsim hrun
  · intro s s' u h hp
    rcases hf : u.scheduler.isFinished with _ | _
    · exact Or.inl (h.again hp hf)
    · have hrest := (u.scheduler.isFinished_iff_rest).mp hf
      rw [h.rest] at hrest
      obtain ⟨halike, hrest', htrace⟩ := alike_of_again h.registered hrest h.runner hp
      refine Or.inr ⟨_, pass_of_finished hf, registered_again hp h.registered, hrest', halike, ?_⟩
      rw [h.trace, htrace]
  · intro s s' q h hp
    obtain ⟨halike, hrest', htrace⟩ := alike_of_again h.registered h.rest h.runner hp
    refine ⟨registered_again hp h.registered, hrest', halike, ?_⟩
    rw [h.outcome, htrace]
  · exact fun s u h hp => h.done hp hstop
  · exact fun s q h hp => h.done hp hstop

end Runner

/-! ## Runs of parts of a scenario -/

open Runner

section
variable {I : Type} [FaultInjector I] {scenario : Scenario} {schedule : ValidatedSchedule}
  {injectors injectors' : Registry I} {ctx : FaultContext} {r : Runner I} {fuel : ℕ}
  {tickNs : UInt64} {realtime : Bool} {e : RunEnd I}

omit [FaultInjector I] in
theorem sim_start (keep : String → Bool) (hreg : ∀ step ∈ schedule.steps, step.faultId ∈ injectors)
    (hsame : ∀ id, keep id = true → injectors'.lookup id = injectors.lookup id) :
    Sim keep (start ⟨schedule, injectors, ctx, []⟩)
      (start ⟨schedule.only keep, injectors', ctx, []⟩) where
  registered := hreg
  clock := rfl
  rest := rfl
  runner := ⟨rfl, hsame, rfl⟩
  trace := rfl

omit [FaultInjector I] in
theorem new_only (keep : String → Bool) (hreg : ∀ step ∈ schedule.steps, step.faultId ∈ injectors)
    (hsame : ∀ id, keep id = true → injectors'.lookup id = injectors.lookup id) :
    Runner.new (schedule.only keep) injectors' ctx =
      .ok ⟨schedule.only keep, injectors', ctx, []⟩ := by
  refine new_ok_iff.mpr ⟨fun step hstep => ?_, rfl⟩
  obtain ⟨hstep, hkeep⟩ := List.mem_filter.mp hstep
  obtain ⟨i, hi⟩ := Finmap.mem_iff.mp (hreg step hstep)
  exact Finmap.mem_iff.mpr ⟨i, (hsame _ hkeep).trans hi⟩

/-- A run that ends has succeeded, or its last call failed. -/
theorem failing_call (hreg : ∀ step ∈ schedule.steps, step.faultId ∈ injectors)
    (hend : runInner fuel tickNs realtime ⟨schedule, injectors, ctx, []⟩ = some e) :
    (∃ trace, e.outcome = .ok trace) ∨
      ∃ err c, e.outcome = .err err ∧ e.runner.calls.getLast? = some c := by
  have hplayed := play_of_runInner hend
  have hr : e.runner = (play schedule.steps ⟨schedule, injectors, ctx, []⟩).2 := hplayed.runner
  have ho : e.outcome.map (fun _ => ()) = (play schedule.steps ⟨schedule, injectors, ctx, []⟩).1 :=
    hplayed.outcome
  have halike : Alike (fun _ => true) (⟨schedule, injectors, ctx, []⟩ : Runner I)
      ⟨schedule, injectors, ctx, []⟩ := ⟨rfl, fun _ _ => rfl, rfl⟩
  have hproj := play_projects hreg halike
  generalize play schedule.steps ⟨schedule, injectors, ctx, []⟩ = p at hproj hr ho
  rcases p with ⟨⟨⟩ | err | _, r'⟩
  · rcases he : e.outcome with trace | err | _ <;> rw [he] at ho <;> cases ho
    exact Or.inl ⟨trace, rfl⟩
  · rcases he : e.outcome with trace | err | _ <;> rw [he] at ho <;> cases ho
    obtain ⟨c, hc, -⟩ := hproj
    exact Or.inr ⟨err, c, rfl, hr ▸ hc⟩
  · exact hproj.elim

/-- **Independent faults do not disturb each other.** Take the steps of some faults out of a
scenario, and any registry with their injectors. If the run of the whole ends, other than by a
failing call on a fault that was left out, so does the run of the part, no later, with the same
outcome: its trace is the part's share of the whole trace, down to the time stamps, the same calls
are made on the part's injectors, and they end up in the same state. -/
theorem run_isolates_faults (keep : String → Bool)
    (hvalid : ValidatedSchedule.validate scenario = .ok schedule)
    (hnew : Runner.new schedule injectors ctx = .ok r)
    (hsame : ∀ id, keep id = true → injectors'.lookup id = injectors.lookup id)
    (hend : r.runInner fuel tickNs realtime = some e) (hstop : StoppedWithin keep e) :
    ∃ part r' q, ValidatedSchedule.validate (onlySteps keep scenario) = .ok part ∧
      Runner.new part injectors' ctx = .ok r' ∧ r'.runInner fuel tickNs realtime = some q ∧
      q.outcome = e.outcome.map (Trace.only keep) ∧
      q.runner.callLog = (e.runner.callLog.filter fun c => keep c.1) ∧
      ∀ id, keep id = true → q.runner.injectors.lookup id = e.runner.injectors.lookup id := by
  obtain ⟨hreg, rfl⟩ := new_ok_iff.mp hnew
  obtain ⟨q, hq, hkept⟩ := runInner_only hend hstop (sim_start keep hreg hsame)
  exact ⟨_, _, q, ValidatedSchedule.validate_only keep hvalid, new_only keep hreg hsame, hq,
    hkept.outcome, hkept.runner.log, hkept.runner.lookup⟩

/-- Two faults that overlap. -/
def overlapScenario : Scenario where
  name := "overlap"
  seed := 7
  steps := [⟨1000, "pkt-loss", .arm⟩, ⟨2000, "corrupt", .arm⟩, ⟨3000, "pkt-loss", .disarm⟩,
    ⟨4000, "corrupt", .disarm⟩]

/-- Their run with ticks of 700 ns. -/
def overlapSetup : ReplaySetup CountingInjector where
  scenario := overlapScenario
  schedule := ⟨overlapScenario, by decide⟩
  injectors := ((∅ : Registry CountingInjector).insert "pkt-loss" ⟨false, 0, 0⟩).insert "corrupt"
    ⟨false, 0, 0⟩
  ctx := ⟨7⟩
  runner := ⟨⟨overlapScenario, by decide⟩,
    ((∅ : Registry CountingInjector).insert "pkt-loss" ⟨false, 0, 0⟩).insert "corrupt"
      ⟨false, 0, 0⟩, ⟨7⟩, []⟩
  tickNs := 700
  validated := ValidatedSchedule.validate_of_check _
  accepted := new_ok_iff.mpr ⟨by decide, rfl⟩
  succeed := callsSucceed_counting _ _ _
  tick_pos := by decide
  fits := by
    intro last hlast
    cases hlast
    decide

theorem run_isolates_pktLoss :
    ∃ fuel part r' q, ValidatedSchedule.validate
        (onlySteps (fun id => id == "pkt-loss") overlapScenario) = .ok part ∧
      Runner.new part overlapSetup.injectors ⟨7⟩ = .ok r' ∧
      r'.runInner fuel 700 false = some q ∧
      q.runner.callLog = [("pkt-loss", .arm), ("pkt-loss", .disarm)] := by
  obtain ⟨e, he⟩ := exists_terminates_of_fits false overlapSetup.tick_pos overlapSetup.roundUp_lt
  obtain ⟨trace, ho, -, -, -, hlog, -⟩ := overlapSetup.outcome_of_terminates he
  obtain ⟨fuel, hfuel⟩ := he
  have hstop : StoppedWithin (fun id => id == "pkt-loss") e := by
    intro err herr
    rw [ho] at herr
    cases herr
  obtain ⟨part, r', q, hpart, hr', hq, -, hcalls, -⟩ :=
    run_isolates_faults (fun id => id == "pkt-loss") overlapSetup.validated overlapSetup.accepted
      (fun _ _ => rfl) (hfuel fuel (Nat.le_refl fuel)) hstop
  refine ⟨fuel, part, r', q, hpart, hr', hq, ?_⟩
  rw [hcalls, hlog]
  decide

/-- **A scenario of independent faults succeeds exactly if each of them does on its own**, at the
same tick size and with the same injectors. -/
theorem run_succeeds_iff (hvalid : ValidatedSchedule.validate scenario = .ok schedule)
    (hnew : Runner.new schedule injectors ctx = .ok r)
    (hend : r.runInner fuel tickNs realtime = some e) :
    (∃ trace, e.outcome = .ok trace) ↔
      ∀ id, ∃ part r' q trace,
        ValidatedSchedule.validate (onlySteps (fun key => key == id) scenario) = .ok part ∧
        Runner.new part injectors ctx = .ok r' ∧ r'.runInner fuel tickNs realtime = some q ∧
        q.outcome = .ok trace := by
  obtain ⟨hreg, rfl⟩ := new_ok_iff.mp hnew
  -- the run of one fault, as far as it is the whole run that stops it
  have hpart : ∀ id, StoppedWithin (fun key => key == id) e → ∃ part r' q,
      ValidatedSchedule.validate (onlySteps (fun key => key == id) scenario) = .ok part ∧
        Runner.new part injectors ctx = .ok r' ∧ r'.runInner fuel tickNs realtime = some q ∧
        q.outcome = e.outcome.map (Trace.only fun key => key == id) := by
    intro id hstop
    obtain ⟨q, hq, hkept⟩ := runInner_only hend hstop (sim_start _ hreg fun _ _ => rfl)
    exact ⟨_, _, q, ValidatedSchedule.validate_only _ hvalid, new_only _ hreg fun _ _ => rfl, hq,
      hkept.outcome⟩
  constructor
  · rintro ⟨trace, ho⟩ id
    have hstop : StoppedWithin (fun key => key == id) e := by
      intro err herr
      rw [ho] at herr
      cases herr
    obtain ⟨part, r', q, hvalid', hnew', hq, hoq⟩ := hpart id hstop
    rw [ho] at hoq
    exact ⟨part, r', q, _, hvalid', hnew', hq, hoq⟩
  · intro h
    rcases failing_call hreg hend with hok | ⟨err, c, ho, hc⟩
    · exact hok
    · -- the fault of the failing call fails on its own, too
      have hstop : StoppedWithin (fun key => key == c.faultId) e := by
        intro _ _ c' hc'
        rw [hc] at hc'
        cases hc'
        exact beq_self_eq_true _
      obtain ⟨part, r', q, hvalid', hnew', hq, hoq⟩ := hpart c.faultId hstop
      obtain ⟨part₁, r₁, q₁, trace, hvalid₁, hnew₁, hq₁, hoq₁⟩ := h c.faultId
      cases hvalid'.symm.trans hvalid₁
      cases hnew'.symm.trans hnew₁
      cases hq.symm.trans hq₁
      rw [ho, hoq₁] at hoq
      cases hoq

theorem run_succeeds_corrupt :
    ∃ fuel part r' q trace, ValidatedSchedule.validate
        (onlySteps (fun key => key == "corrupt") overlapScenario) = .ok part ∧
      Runner.new part overlapSetup.injectors ⟨7⟩ = .ok r' ∧
      r'.runInner fuel 700 true = some q ∧ q.outcome = .ok trace := by
  obtain ⟨e, he⟩ := exists_terminates_of_fits true overlapSetup.tick_pos overlapSetup.roundUp_lt
  obtain ⟨trace, ho, -⟩ := overlapSetup.outcome_of_terminates he
  obtain ⟨fuel, hfuel⟩ := he
  exact ⟨fuel, (run_succeeds_iff overlapSetup.validated overlapSetup.accepted
    (hfuel fuel (Nat.le_refl fuel))).mp ⟨trace, ho⟩ "corrupt"⟩

end

end Blackswan.Replay
