import Blackswan.Replay.Halting

/-!
# What a run leaves armed, and what dropping the runner does about it

`validate` computes a set of armed faults from the steps alone. This module ties that set to the
injectors' own `is_armed` along a run, and follows the runner into `drop`.

1. `Executed.call` is the step lemma: a call that succeeds moves the armed injectors as the step
   moves the set of `validate`.
2. `play_cases` is the run lemma: a play ends with all steps executed, or at its first failing call.
3. `exists_tornDown` says what the loop of `teardown` does, in whatever order it visits the map.
-/

namespace Blackswan.Replay

open Lib (Outcome)
open FaultInjector (arm disarm isArmed)

variable {I : Type}

/-! ## Armed injectors of a registry -/

/-- Every map has an iteration order. -/
theorem exists_iterates (injectors : Registry I) : ∃ order, Iterates order injectors := by
  refine ⟨injectors.keys.toList, Finset.nodup_toList _, fun id => ?_⟩
  rw [Finset.mem_toList, Finmap.mem_keys]

variable [FaultInjector I]

theorem Registry.armed_insert (injectors : Registry I) (key id : String) (i : I) :
    Registry.Armed (injectors.insert key i) id ↔
      if id = key then isArmed i = true else injectors.Armed id := by
  unfold Registry.Armed
  by_cases h : id = key
  · subst h
    simp
  · rw [Finmap.lookup_insert_of_ne _ h, if_neg h]

theorem Registry.not_armed_empty (id : String) : ¬ Registry.Armed (∅ : Registry I) id := by
  rintro ⟨i, hi, -⟩
  rw [Finmap.lookup_empty] at hi
  cases hi

theorem Registry.mem_of_armed {injectors : Registry I} {id : String} (h : injectors.Armed id) :
    id ∈ injectors := by
  obtain ⟨i, hi, -⟩ := h
  exact Finmap.mem_iff.mpr ⟨i, hi⟩

namespace Runner

/-! ## The run -/

variable {schedule : ValidatedSchedule} {r r' : Runner I} {k : ℕ} {step : ScenarioStep} {i : I}

/-- The calls made so far are those of the first `k` steps, each in a registry where exactly the
faults its earlier steps leave armed are armed. -/
structure History (schedule : ValidatedSchedule) (r : Runner I) (k : ℕ) : Prop where
  registered : ∀ step ∈ schedule.steps, step.faultId ∈ r.injectors
  log : r.callLog = callsOf (schedule.steps.take k)
  before : ∀ j c, r.calls[j]? = some c →
    c.faultId ∈ c.before ∧ ∀ id, c.before.Armed id ↔ ArmedBy (schedule.steps.take j) id

/-- The first `k` steps have been executed, all of them successfully. -/
structure Executed (schedule : ValidatedSchedule) (r : Runner I) (k : ℕ) : Prop
    extends History schedule r k where
  results : ∀ c ∈ r.calls, c.result = .ok ()
  armed : ∀ id, r.injectors.Armed id ↔ ArmedBy (schedule.steps.take k) id

theorem take_succ_of_getElem? (hk : schedule.steps[k]? = some step) :
    schedule.steps.take (k + 1) = schedule.steps.take k ++ [step] := by
  rw [List.take_add_one, hk]; rfl

theorem History.length_calls (h : History schedule r k) (hk : k ≤ schedule.steps.length) :
    r.calls.length = k := by
  have hlen := congrArg List.length h.log
  simpa [callLog, callsOf, hk] using hlen

/-- Every arm is made on an unarmed injector and every disarm on an armed one. -/
theorem History.armed_before_iff (h : History schedule r k) {c : Call I} (hc : c ∈ r.calls) :
    c.faultId ∈ c.before ∧ (c.before.Armed c.faultId ↔ c.action = .disarm) := by
  obtain ⟨j, hj⟩ := List.getElem?_of_mem hc
  obtain ⟨hmem, harmed⟩ := h.before j c hj
  refine ⟨hmem, (harmed c.faultId).trans ?_⟩
  -- call `j` is the call of step `j`
  have hlog := congrArg (fun l => l[j]?) h.log
  simp only [callLog, callsOf, List.getElem?_map, hj, Option.map_some] at hlog
  rcases hs : (schedule.steps.take k)[j]? with _ | s
  · rw [hs] at hlog
    cases hlog
  · rw [hs, Option.map_some, Option.some.injEq, Prod.mk.injEq] at hlog
    have hstep : schedule.steps[j]? = some s := by
      rw [List.getElem?_take] at hs
      split_ifs at hs
      exact hs
    rw [hlog.1, hlog.2]
    exact schedule.armedBy_take_iff hstep

theorem executed_zero {injectors : Registry I} {ctx : FaultContext}
    (hreg : ∀ step ∈ schedule.steps, step.faultId ∈ injectors)
    (hunarmed : ∀ id, ¬ injectors.Armed id) :
    Executed schedule ⟨schedule, injectors, ctx, []⟩ 0 where
  registered := hreg
  log := rfl
  before := fun j c hc => by simp at hc
  results := fun c hc => by cases hc
  armed := fun id => by simp [not_armedBy_nil, hunarmed id]

/-- Whatever the next step's call returns, it is the next call of the history. -/
theorem Executed.history_call (h : Executed schedule r k) (hk : schedule.steps[k]? = some step)
    (hi : r.injectors.lookup step.faultId = some i) :
    History schedule (r.call step.faultId step.action i).2 (k + 1) := by
  have hlt : k < schedule.steps.length := (List.getElem?_eq_some_iff.mp hk).1
  constructor
  · intro s hs
    exact Finmap.mem_insert.mpr (Or.inr (h.registered s hs))
  · have hlog := h.log
    unfold callLog callsOf at hlog ⊢
    rw [take_succ_of_getElem? hk, List.map_append, ← hlog]
    simp [call]
  · intro j c hc
    have hlen := h.length_calls hlt.le
    simp only [call] at hc
    rcases Nat.lt_or_ge j r.calls.length with hj | hj
    · rw [List.getElem?_append_left hj] at hc
      exact h.before j c hc
    · -- the call just made
      obtain ⟨hj', rfl⟩ : j = k ∧ c = ⟨r.injectors, step.faultId, step.action, _⟩ := by
        rw [List.getElem?_append_right hj, List.getElem?_singleton] at hc
        split_ifs at hc with h0
        exact ⟨by omega, (Option.some.inj hc).symm⟩
      subst hj'
      exact ⟨Finmap.mem_iff.mpr ⟨i, hi⟩, h.armed⟩

theorem isArmed_perform [SettlingInjector I] {ctx : FaultContext} {action : StepAction}
    (h : (perform ctx action i).1 = .ok ()) :
    isArmed (perform ctx action i).2 = true ↔ action = .arm := by
  rcases action with _ | _
  · simp [perform, SettlingInjector.arm_ok i ctx h]
  · simp [perform, SettlingInjector.disarm_ok i h]

/-- **One step.** A call that succeeds leaves one more step executed. -/
theorem Executed.call [SettlingInjector I] (h : Executed schedule r k)
    (hk : schedule.steps[k]? = some step) (hi : r.injectors.lookup step.faultId = some i)
    (hok : (perform r.ctx step.action i).1 = .ok ()) :
    Executed schedule (r.call step.faultId step.action i).2 (k + 1) where
  toHistory := h.history_call hk hi
  results := by
    intro c hc
    rcases List.mem_append.mp hc with hc | hc
    · exact h.results c hc
    · rw [List.mem_singleton.mp hc]
      exact hok
  armed := by
    intro id
    rw [take_succ_of_getElem? hk, armedBy_concat]
    show Registry.Armed (r.injectors.insert _ _) id ↔ _
    rw [Registry.armed_insert, isArmed_perform hok, h.armed id]

/-- The run stops at step `j`: the steps before it are executed in `before`, its own call fails. -/
structure StopsAt (schedule : ValidatedSchedule) (j : ℕ) (step : ScenarioStep) (i : I)
    (before : Runner I) (e : HarnessError) : Prop where
  executed : Executed schedule before j
  reached : schedule.steps[j]? = some step
  lookup : before.injectors.lookup step.faultId = some i
  failed : (perform before.ctx step.action i).1 = .error e

/-- **A whole play.** All steps are executed, or the play stops at the first failing call. -/
theorem play_cases [SettlingInjector I] (h : Executed schedule r k)
    (hk : k ≤ schedule.steps.length) :
    (∃ r', r.play (schedule.steps.drop k) = (.ok (), r') ∧
      Executed schedule r' schedule.steps.length) ∨
    ∃ j step i before e, StopsAt schedule j step i before e ∧ k ≤ j ∧
      r.play ((schedule.steps.drop k).take (j - k)) = (.ok (), before) ∧
      r.play (schedule.steps.drop k) =
        (.err e, (before.call step.faultId step.action i).2) := by
  induction hn : schedule.steps.length - k generalizing r k with
  | zero =>
    obtain rfl : k = schedule.steps.length := by omega
    rw [List.drop_length]
    exact Or.inl ⟨r, rfl, h⟩
  | succ n ih =>
    have hlt : k < schedule.steps.length := by omega
    have hstep := List.getElem?_eq_getElem hlt
    rw [← List.getElem_cons_drop hlt]
    obtain ⟨i, hi⟩ := Finmap.mem_iff.mp (h.registered _ (List.getElem_mem hlt))
    have hf := fireStep_of_lookup hi
    rcases hp : (perform r.ctx schedule.steps[k].action i).1 with e | ⟨⟩
    · rw [hp] at hf
      rw [play_cons_err hf]
      refine Or.inr ⟨k, _, i, r, e, ⟨h, hstep, hi, hp⟩, Nat.le_refl k, ?_, rfl⟩
      rw [Nat.sub_self]
      rfl
    · rw [hp] at hf
      rw [play_cons_ok hf]
      rcases ih (h.call hstep hi hp) hlt (by omega) with
        hdone | ⟨j, step, i', before, e, hstop, hj, hbefore, hplay⟩
      · exact Or.inl hdone
      · refine Or.inr ⟨j, step, i', before, e, hstop, by omega, ?_, hplay⟩
        rw [show j - k = j - (k + 1) + 1 by omega, List.take_succ_cons, play_cons_ok hf]
        exact hbefore

/-- A run that ends has executed all steps, or stopped at its first failing call. -/
theorem run_cases [SettlingInjector I] (h : Executed r.schedule r 0) {fuel : ℕ} {tickNs : UInt64}
    {realtime : Bool} {e : RunEnd I} (hend : r.runInner fuel tickNs realtime = some e) :
    (∃ trace, e.outcome = .ok trace ∧
      Executed r.schedule e.runner r.schedule.steps.length) ∨
    ∃ j step i before err, StopsAt r.schedule j step i before err ∧ e.outcome = .err err ∧
      e.runner = (before.call step.faultId step.action i).2 ∧
      r.play (r.schedule.steps.take j) = (.ok (), before) := by
  have hplayed := play_of_runInner hend
  have hrunner := hplayed.runner
  have houtcome := hplayed.outcome
  rcases play_cases h (Nat.zero_le _) with
    ⟨r', hp, hex⟩ | ⟨j, step, i, before, err, hstop, -, hbefore, hp⟩
  · rw [List.drop_zero] at hp
    rw [hp] at hrunner houtcome
    rcases ho : e.outcome with trace | e' | _ <;> rw [ho] at houtcome
    · exact Or.inl ⟨trace, rfl, hrunner ▸ hex⟩
    · cases houtcome
    · cases houtcome
  · rw [List.drop_zero] at hp
    rw [hp] at hrunner houtcome
    rcases ho : e.outcome with trace | e' | _ <;> rw [ho] at houtcome
    · cases houtcome
    · cases houtcome
      exact Or.inr ⟨j, step, i, before, err, hstop, rfl, hrunner, hbefore⟩
    · cases houtcome

/-- A failing call of a lawful injector moves no `is_armed`. -/
theorem StopsAt.armed_call [LawfulInjector I] {j : ℕ} {before : Runner I} {e : HarnessError}
    (h : StopsAt schedule j step i before e) (id : String) :
    (before.call step.faultId step.action i).2.injectors.Armed id ↔
      ArmedBy (schedule.steps.take j) id := by
  have hsame : isArmed (perform before.ctx step.action i).2 = isArmed i := by
    have hfailed := h.failed
    rcases ha : step.action with _ | _ <;> rw [ha] at hfailed
    · exact LawfulInjector.arm_error i before.ctx e hfailed
    · exact LawfulInjector.disarm_error i e hfailed
  rw [← h.executed.armed id]
  show Registry.Armed (before.injectors.insert _ _) id ↔ _
  rw [Registry.armed_insert, hsame]
  by_cases hid : id = step.faultId
  · subst hid
    simp [Registry.Armed, h.lookup]
  · rw [if_neg hid]

/-! ## The teardown -/

/-- What the loop of `teardown` has done after visiting `order`: `disarms` are its calls. -/
structure TornDown (order : List String) (r r' : Runner I) (disarms : List (Call I)) : Prop where
  calls : r'.calls = r.calls ++ disarms
  nodup : (disarms.map Call.faultId).Nodup
  mem : ∀ id, id ∈ disarms.map Call.faultId ↔ id ∈ order ∧ r.injectors.Armed id
  called : ∀ c ∈ disarms, c.action = .disarm ∧ ∃ i, r.injectors.lookup c.faultId = some i ∧
    isArmed i = true ∧ c.result = (disarm i).1 ∧
    r'.injectors.lookup c.faultId = some (disarm i).2
  frame : ∀ id, id ∉ disarms.map Call.faultId →
    r'.injectors.lookup id = r.injectors.lookup id

variable {order : List String} {disarms : List (Call I)} {id : String}

theorem tornDown_nil (r : Runner I) : TornDown [] r r [] where
  calls := (List.append_nil _).symm
  nodup := List.nodup_nil
  mem := by simp
  called := by simp
  frame := fun _ _ => rfl

/-- An injector that is not armed is passed over. -/
theorem TornDown.skip (h : TornDown order r r' disarms) (hid : ¬ r.injectors.Armed id) :
    TornDown (id :: order) r r' disarms where
  calls := h.calls
  nodup := h.nodup
  called := h.called
  frame := h.frame
  mem := by
    intro id'
    rw [h.mem, List.mem_cons]
    constructor
    · rintro ⟨ho, ha⟩
      exact ⟨Or.inr ho, ha⟩
    · rintro ⟨rfl | ho, ha⟩
      · exact absurd ha hid
      · exact ⟨ho, ha⟩

/-- The visit of an armed injector: its `disarm` is called, the others keep their state. -/
theorem TornDown.visit (h : TornDown order (r.call id .disarm i).2 r' disarms)
    (hi : r.injectors.lookup id = some i) (harmed : isArmed i = true) (hid : id ∉ order) :
    TornDown (id :: order) r r' (⟨r.injectors, id, .disarm, (disarm i).1⟩ :: disarms) := by
  have hothers : ∀ id', id' ≠ id →
      (r.call id .disarm i).2.injectors.lookup id' = r.injectors.lookup id' :=
    fun id' hne => Finmap.lookup_insert_of_ne _ hne
  have hnot : id ∉ disarms.map Call.faultId := fun hmem => hid ((h.mem id).mp hmem).1
  constructor
  · rw [h.calls]
    simp [call, perform]
  · exact List.nodup_cons.mpr ⟨hnot, h.nodup⟩
  · intro id'
    rw [List.map_cons, List.mem_cons, List.mem_cons, h.mem]
    by_cases heq : id' = id
    · subst heq
      simp only [true_or, true_and, true_iff]
      exact ⟨i, hi, harmed⟩
    · simp only [heq, false_or, Registry.Armed, hothers id' heq]
  · intro c hc
    rcases List.mem_cons.mp hc with rfl | hc
    · refine ⟨rfl, i, hi, harmed, rfl, ?_⟩
      rw [h.frame id hnot]
      exact Finmap.lookup_insert _
    · have hne : c.faultId ≠ id := fun heq => hnot (heq ▸ List.mem_map_of_mem hc)
      have hcalled := h.called c hc
      rw [hothers _ hne] at hcalled
      exact hcalled
  · intro id' hid'
    rw [List.map_cons, List.mem_cons, not_or] at hid'
    rw [h.frame id' hid'.2, hothers id' hid'.1]

/-- **The teardown.** It disarms each armed injector it visits once, past every failure. -/
theorem exists_tornDown (hnodup : order.Nodup) (firstErr : Option HarnessError) (r : Runner I) :
    ∃ disarms, TornDown order r (r.teardownLoop order firstErr).2 disarms := by
  induction order generalizing r firstErr with
  | nil => exact ⟨[], tornDown_nil r⟩
  | cons id rest ih =>
    obtain ⟨hid, hrest⟩ := List.nodup_cons.mp hnodup
    rw [teardownLoop]
    rcases hi : r.injectors.lookup id with _ | i
    · obtain ⟨disarms, h⟩ := ih hrest firstErr r
      exact ⟨disarms, h.skip fun ⟨i, hsome, _⟩ => by rw [hi] at hsome; cases hsome⟩
    · by_cases harmed : isArmed i = true
      · -- both results go on, with a possibly different first error
        have hgo : ∀ firstErr', ∃ disarms, TornDown (id :: rest) r
            ((r.call id .disarm i).2.teardownLoop rest firstErr').2 disarms := by
          intro firstErr'
          obtain ⟨disarms, h⟩ := ih hrest firstErr' (r.call id .disarm i).2
          exact ⟨_, h.visit hi harmed hid⟩
        simp only [harmed, if_true]
        rcases hc : r.call id .disarm i with ⟨e | ⟨⟩, r₁⟩ <;> rw [hc] at hgo <;> exact hgo _
      · simp only [harmed, Bool.false_eq_true, if_false]
        obtain ⟨disarms, h⟩ := ih hrest firstErr r
        refine ⟨disarms, h.skip fun ⟨j, hsome, hj⟩ => harmed ?_⟩
        rw [hi] at hsome
        obtain rfl := Option.some.inj hsome
        exact hj

/-- Dropping a runner is one visit of its map. -/
theorem exists_tornDown_drop (horder : Iterates order r.injectors) :
    ∃ disarms, TornDown order r (r.drop order) disarms := by
  obtain ⟨disarms, h⟩ := exists_tornDown horder.1 none r
  refine ⟨disarms, ?_⟩
  have hdrop : r.drop order = (r.teardownLoop order none).2 := by
    unfold drop teardown
    rcases r.teardownLoop order none with ⟨_ | e, r₁⟩ <;> rfl
  rw [hdrop]
  exact h

theorem TornDown.mem_iff_armed (h : TornDown order r r' disarms)
    (horder : Iterates order r.injectors) (id : String) :
    id ∈ disarms.map Call.faultId ↔ r.injectors.Armed id := by
  rw [h.mem, horder.2]
  exact ⟨And.right, fun ha => ⟨Registry.mem_of_armed ha, ha⟩⟩

theorem TornDown.armed_iff [LawfulInjector I] (h : TornDown order r r' disarms)
    (horder : Iterates order r.injectors) (id : String) :
    r'.injectors.Armed id ↔ ∃ c ∈ disarms, c.faultId = id ∧ ∃ e, c.result = .error e := by
  by_cases hid : id ∈ disarms.map Call.faultId
  · obtain ⟨c, hc, rfl⟩ := List.mem_map.mp hid
    obtain ⟨-, i, hi, harmed, hres, hafter⟩ := h.called c hc
    have hiff : r'.injectors.Armed c.faultId ↔ isArmed (disarm i).2 = true := by
      simp [Registry.Armed, hafter]
    rw [hiff]
    rcases hd : (disarm i).1 with e | ⟨⟩
    · rw [LawfulInjector.disarm_error i e hd]
      exact ⟨fun _ => ⟨c, hc, rfl, e, hres.trans hd⟩, fun _ => harmed⟩
    · rw [SettlingInjector.disarm_ok i hd]
      refine ⟨fun hf => absurd hf Bool.false_ne_true, ?_⟩
      rintro ⟨c', hc', hsame, e, he⟩
      -- a second call on this injector would have the same result
      obtain ⟨-, i', hi', -, hres', -⟩ := h.called c' hc'
      rw [hsame, hi] at hi'
      obtain rfl := Option.some.inj hi'
      rw [he, hd] at hres'
      cases hres'
  · have hnot : ¬ r.injectors.Armed id := fun ha => hid ((h.mem_iff_armed horder id).mpr ha)
    constructor
    · rintro ⟨i, hi, ha⟩
      rw [h.frame id hid] at hi
      exact absurd ⟨i, hi, ha⟩ hnot
    · rintro ⟨c, hc, rfl, -⟩
      exact absurd (List.mem_map_of_mem hc) hid

/-- The drop of a runner whose injectors are lawful. -/
theorem exists_disarms_of_drop [LawfulInjector I] (horder : Iterates order r.injectors) :
    ∃ disarms, (r.drop order).calls = r.calls ++ disarms ∧
      (∀ c ∈ disarms, c.action = .disarm) ∧ (disarms.map Call.faultId).Nodup ∧
      (∀ id, id ∈ disarms.map Call.faultId ↔ r.injectors.Armed id) ∧
      ∀ id, (r.drop order).injectors.Armed id ↔
        ∃ c ∈ disarms, c.faultId = id ∧ ∃ err, c.result = .error err := by
  obtain ⟨disarms, h⟩ := exists_tornDown_drop horder
  exact ⟨disarms, h.calls, fun c hc => (h.called c hc).1, h.nodup, h.mem_iff_armed horder,
    h.armed_iff horder⟩

end Runner

/-! ## A run and the drop that follows it -/

open Runner

/-- **The run keeps to its schedule and the drop cleans up after it.** For lawful injectors that
start unarmed, whatever calls fail: the calls of a run that ends are those of a prefix of the
schedule; arms meet unarmed and disarms armed injectors; before every call and at the end the
armed injectors are those the executed steps leave armed; the first error ends the run and is
returned. Dropping the runner then disarms each armed injector once, in any iteration order, and
only those whose own `disarm` failed stay armed. -/
theorem run_then_drop [LawfulInjector I] {scenario : Scenario} {schedule : ValidatedSchedule}
    {injectors : Registry I} {ctx : FaultContext} {r : Runner I}
    (hvalid : ValidatedSchedule.validate scenario = .ok schedule)
    (hnew : Runner.new schedule injectors ctx = .ok r)
    (hunarmed : ∀ id, ¬ injectors.Armed id)
    {fuel : ℕ} {tickNs : UInt64} {realtime : Bool} {e : RunEnd I}
    (hend : r.runInner fuel tickNs realtime = some e)
    {order : List String} (horder : Iterates order e.runner.injectors) :
    (∃ k, e.runner.callLog = callsOf (scenario.steps.take k)) ∧
    (∀ c ∈ e.runner.calls,
      c.faultId ∈ c.before ∧ (c.before.Armed c.faultId ↔ c.action = .disarm)) ∧
    (∀ j c, e.runner.calls[j]? = some c →
      ∀ id, c.before.Armed id ↔ ArmedBy (scenario.steps.take j) id) ∧
    ((∃ trace, e.outcome = .ok trace ∧ e.runner.callLog = callsOf scenario.steps ∧
        (∀ c ∈ e.runner.calls, c.result = .ok ()) ∧
        ∀ id, e.runner.injectors.Armed id ↔ ArmedBy scenario.steps id) ∨
      ∃ err executed failed, e.outcome = .err err ∧ e.runner.calls = executed ++ [failed] ∧
        (∀ c ∈ executed, c.result = .ok ()) ∧ failed.result = .error err ∧
        ∀ id, e.runner.injectors.Armed id ↔
          ArmedBy (scenario.steps.take executed.length) id) ∧
    ∃ disarms, (e.runner.drop order).calls = e.runner.calls ++ disarms ∧
      (∀ c ∈ disarms, c.action = .disarm) ∧ (disarms.map Call.faultId).Nodup ∧
      (∀ id, id ∈ disarms.map Call.faultId ↔ e.runner.injectors.Armed id) ∧
      ∀ id, (e.runner.drop order).injectors.Armed id ↔
        ∃ c ∈ disarms, c.faultId = id ∧ ∃ err, c.result = .error err := by
  obtain rfl := ValidatedSchedule.scenario_of_validate hvalid
  obtain ⟨hreg, rfl⟩ := new_ok_iff.mp hnew
  have hdrop := exists_disarms_of_drop horder
  rcases run_cases (executed_zero hreg hunarmed) hend with
    ⟨trace, ho, hex⟩ | ⟨j, step, i, before, err, hstop, ho, hr, -⟩
  · have hlog := hex.log
    have harmed := hex.armed
    rw [List.take_length] at hlog harmed
    exact ⟨⟨_, hex.log⟩, fun c hc => hex.armed_before_iff hc,
      fun j c hc => (hex.before j c hc).2, Or.inl ⟨trace, ho, hlog, hex.results, harmed⟩, hdrop⟩
  · have hhist := hstop.executed.history_call hstop.reached hstop.lookup
    have hlen : before.calls.length = j :=
      hstop.executed.length_calls (List.getElem?_eq_some_iff.mp hstop.reached).1.le
    have harmed := hstop.armed_call
    rw [← hr] at hhist harmed
    refine ⟨⟨_, hhist.log⟩, fun c hc => hhist.armed_before_iff hc,
      fun j c hc => (hhist.before j c hc).2, Or.inr ?_, hdrop⟩
    refine ⟨err, before.calls, ⟨before.injectors, step.faultId, step.action, .error err⟩, ho, ?_,
      hstop.executed.results, rfl, ?_⟩
    · rw [hr, ← hstop.failed]
      rfl
    · rw [hlen]
      exact harmed

/-- An injector that arms, and whose next `stuck` calls of `disarm` fail. -/
structure StuckInjector where
  armed : Bool
  stuck : ℕ
  deriving DecidableEq, Repr

instance : FaultInjector StuckInjector where
  arm i _ := (.ok (), { i with armed := true })
  disarm i :=
    match i.stuck with
    | 0 => (.ok (), { i with armed := false })
    | n + 1 => (.error (.disarmFailed "slow" "device busy"), { i with stuck := n })
  isArmed i := i.armed

instance : LawfulInjector StuckInjector where
  arm_ok _ _ _ := rfl
  arm_error _ _ _ h := by cases h
  disarm_ok := by
    rintro ⟨armed, _ | n⟩ h
    · rfl
    · cases h
  disarm_error := by
    rintro ⟨armed, _ | n⟩ e h
    · cases h
    · rfl

/-- Two faults are armed; disarming the first one fails in the run, and again in the drop. -/
def stuckScenario : Scenario where
  name := "stuck"
  seed := 1
  steps := [⟨0, "slow", .arm⟩, ⟨0, "quick", .arm⟩, ⟨1000, "slow", .disarm⟩,
    ⟨2000, "quick", .disarm⟩]

def stuckInjectors : Registry StuckInjector :=
  ((∅ : Registry StuckInjector).insert "slow" ⟨false, 2⟩).insert "quick" ⟨false, 0⟩

def stuckRunner : Runner StuckInjector :=
  ⟨⟨stuckScenario, by decide⟩, stuckInjectors, ⟨1⟩, []⟩

theorem run_then_drop_stuck :
    ∃ e disarms, stuckRunner.run 4 500 = some e ∧
      e.outcome = .err (.disarmFailed "slow" "device busy") ∧
      (e.runner.drop ["quick", "slow"]).calls = e.runner.calls ++ disarms ∧
      (∀ id, id ∈ disarms.map Call.faultId ↔ id = "slow" ∨ id = "quick") ∧
      (e.runner.drop ["quick", "slow"]).injectors.Armed "slow" ∧
      ∃ c ∈ disarms, c.faultId = "slow" ∧ ∃ err, c.result = .error err := by
  obtain ⟨e, hend, ho, hinjectors, hslow⟩ : ∃ e, stuckRunner.run 4 500 = some e ∧
      e.outcome = .err (.disarmFailed "slow" "device busy") ∧
      e.runner.injectors = ((stuckInjectors.insert "slow" ⟨true, 2⟩).insert "quick"
        ⟨true, 0⟩).insert "slow" ⟨true, 1⟩ ∧
      (e.runner.drop ["quick", "slow"]).injectors.lookup "slow" = some ⟨true, 0⟩ :=
    ⟨_, rfl, rfl, rfl, rfl⟩
  have hunarmed : ∀ id, ¬ stuckInjectors.Armed id := by
    intro id
    simp only [stuckInjectors, Registry.armed_insert]
    split_ifs
    · decide
    · decide
    · exact Registry.not_armed_empty id
  have harmed : ∀ id, e.runner.injectors.Armed id ↔ id = "slow" ∨ id = "quick" := by
    intro id
    simp only [hinjectors, Registry.armed_insert]
    split_ifs with hslow hquick
    · simp [hslow, isArmed]
    · simp [hquick, isArmed]
    · simp [hslow, hquick, hunarmed]
  have horder : Iterates ["quick", "slow"] e.runner.injectors := by
    refine ⟨by decide, fun id => ?_⟩
    simp only [hinjectors, stuckInjectors, Finmap.mem_insert, List.mem_cons, List.not_mem_nil,
      Finmap.notMem_empty]
    grind
  obtain ⟨-, -, -, -, disarms, hcalls, -, -, hmem, hstill⟩ :=
    run_then_drop (ValidatedSchedule.validate_of_check stuckRunner.schedule.valid)
      (new_ok_iff.mpr ⟨by decide, rfl⟩) hunarmed hend horder
  have hdropped : (e.runner.drop ["quick", "slow"]).injectors.Armed "slow" := ⟨_, hslow, rfl⟩
  exact ⟨e, disarms, hend, ho, hcalls, fun id => (hmem id).trans (harmed id), hdropped,
    (hstill "slow").mp hdropped⟩

end Blackswan.Replay
