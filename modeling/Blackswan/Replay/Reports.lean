import Blackswan.Replay.Teardown

/-!
# What is reported

Three places of the replay crate return an error for a caller to read: `validate`, `Runner::new`
and `teardown`. This module says which error it is.

1. `walk_cons`: one step of the walk of `validate`, by what it objects to (`objection`).
2. `refusal_names_first_step`: a refused scenario is reported by its first offending step.
3. `teardownLoop_result`: the teardown reports the first failure in the order of its visits.
4. `drop_after_teardown`: what the drop that follows a teardown still does.
-/

namespace Blackswan.Replay

open FaultInjector (disarm isArmed)

/-! ## Refused scenarios -/

/-- The time of the last step, zero before the first one. -/
def lastNs (before : List ScenarioStep) : UInt64 :=
  (before.getLast?.map ScenarioStep.atNs).getD 0

/-- What there is to say against a step that follows the steps `before`. -/
def objection (before : List ScenarioStep) (step : ScenarioStep) : Option String :=
  if step.atNs < lastNs before then
    some (s!"step for {step.faultId} at {step.atNs}ns is out of order, " ++
      s!"previous step was at {lastNs before}ns")
  else if ArmedBy before step.faultId ∧ step.action = .arm then
    some s!"fault {step.faultId} armed twice without an intervening disarm"
  else if ¬ ArmedBy before step.faultId ∧ step.action = .disarm then
    some s!"fault {step.faultId} disarmed but was never armed"
  else none

/-- The walk of `validate` after the steps `before`. -/
def walk (before rest : List ScenarioStep) : Except HarnessError Unit :=
  checkSteps (before.foldl toggle ∅) (lastNs before) rest

/-- One step of the walk: it ends with the objection, or goes on behind the step. -/
theorem walk_cons (before : List ScenarioStep) (step : ScenarioStep) (rest : List ScenarioStep) :
    walk before (step :: rest) =
      match objection before step with
      | some reason => .error (.invalidScenario reason)
      | none => walk (before ++ [step]) rest := by
  have hlast : lastNs (before ++ [step]) = step.atNs := by
    unfold lastNs
    rw [List.getLast?_concat]
    rfl
  unfold walk objection
  rw [checkSteps, hlast, List.foldl_append, List.foldl_cons, List.foldl_nil, toggle]
  by_cases htime : step.atNs < lastNs before
  · rw [if_pos htime, if_pos htime]
  · rw [if_neg htime, if_neg htime]
    simp only [mem_foldl_toggle]
    cases step.action <;> by_cases harmed : ArmedBy before step.faultId <;> simp [harmed]

/-- Behind a walk without objection the walk goes on. -/
theorem walk_append {before pre : List ScenarioStep} (rest : List ScenarioStep)
    (h : walk before pre = .ok ()) : walk before (pre ++ rest) = walk (before ++ pre) rest := by
  induction pre generalizing before with
  | nil => rw [List.nil_append, List.append_nil]
  | cons step pre ih =>
    rw [walk_cons] at h
    rw [List.cons_append, walk_cons]
    cases hobj : objection before step with
    | some reason =>
      rw [hobj] at h
      cases h
    | none =>
      rw [hobj] at h
      have hrest := ih h
      rwa [List.append_assoc] at hrest

/-- A walk that fails does so at some step, having accepted the steps before it. -/
theorem walk_error {before rest : List ScenarioStep} {e : HarnessError}
    (h : walk before rest = .error e) :
    ∃ pre step post reason, rest = pre ++ step :: post ∧ walk before pre = .ok () ∧
      objection (before ++ pre) step = some reason ∧ e = .invalidScenario reason := by
  induction rest generalizing before with
  | nil => cases h
  | cons step rest ih =>
    rw [walk_cons] at h
    cases hobj : objection before step with
    | some reason =>
      rw [hobj] at h
      cases h
      exact ⟨[], step, rest, reason, rfl, rfl, by rwa [List.append_nil], rfl⟩
    | none =>
      rw [hobj] at h
      obtain ⟨pre, step', post, reason, rfl, hwalk, hreason, he⟩ := ih h
      refine ⟨step :: pre, step', post, reason, rfl, ?_, ?_, he⟩
      · rw [walk_cons, hobj]
        exact hwalk
      · rwa [List.append_assoc] at hreason

theorem walk_nil (steps : List ScenarioStep) : walk [] steps = checkSteps ∅ 0 steps := rfl

theorem ValidatedSchedule.validate_eq (scenario : Scenario) :
    (∃ schedule, validate scenario = .ok schedule) ∧ walk [] scenario.steps = .ok () ∨
      ∃ e, validate scenario = .error e ∧ walk [] scenario.steps = .error e := by
  cases hwalk : walk [] scenario.steps with
  | ok u => exact Or.inl ⟨⟨_, validate_of_check hwalk⟩, rfl⟩
  | error e =>
    refine Or.inr ⟨e, ?_, rfl⟩
    unfold validate
    split
    · rename_i e' he
      rw [← walk_nil, hwalk] at he
      exact congrArg Except.error (Except.error.inj he).symm
    · rename_i hok
      rw [← walk_nil, hwalk] at hok
      cases hok

theorem checkRegistered_error_iff {I : Type} {injectors : Registry I} {steps : List ScenarioStep}
    {e : HarnessError} :
    checkRegistered injectors steps = .error e ↔
      ∃ before step after, steps = before ++ step :: after ∧
        (∀ s ∈ before, s.faultId ∈ injectors) ∧ step.faultId ∉ injectors ∧
        e = .invalidScenario
          s!"step references fault_id {step.faultId} which has no registered injector" := by
  constructor
  · intro h
    induction steps with
    | nil => cases h
    | cons step rest ih =>
      rw [checkRegistered] at h
      split_ifs at h with hmem
      · obtain ⟨before, step', after, rfl, hbefore, hstep, he⟩ := ih h
        exact ⟨step :: before, step', after, rfl, List.forall_mem_cons.mpr ⟨hmem, hbefore⟩, hstep,
          he⟩
      · cases h
        exact ⟨[], step, rest, rfl, fun s hs => (by cases hs), hmem, rfl⟩
  · rintro ⟨before, step, after, rfl, hbefore, hstep, rfl⟩
    induction before with
    | nil => rw [List.nil_append, checkRegistered, if_neg hstep]
    | cons s before ih =>
      obtain ⟨hs, hrest⟩ := List.forall_mem_cons.mp hbefore
      rw [List.cons_append, checkRegistered, if_pos hs]
      exact ih hrest

theorem Runner.new_error_iff {I : Type} {schedule : ValidatedSchedule} {injectors : Registry I}
    {ctx : FaultContext} {e : HarnessError} :
    Runner.new schedule injectors ctx = .error e ↔
      checkRegistered injectors schedule.steps = .error e := by
  unfold Runner.new
  cases checkRegistered injectors schedule.steps with
  | error e' => simp
  | ok u => simp

/-- **A refused scenario is reported by its first offending step.** `validate` objects to the first
step that is out of order, or arms what is armed, or disarms what is not, in this order of
precedence; the steps before it would be accepted on their own. `Runner::new` then objects to the
first step whose fault is not registered. -/
theorem refusal_names_first_step {I : Type} (scenario : Scenario) (injectors : Registry I)
    (ctx : FaultContext) :
    (∀ e, ValidatedSchedule.validate scenario = .error e ↔
      ∃ before step after reason, scenario.steps = before ++ step :: after ∧
        (∃ schedule, ValidatedSchedule.validate { scenario with steps := before } = .ok schedule) ∧
        objection before step = some reason ∧ e = .invalidScenario reason) ∧
    ∀ schedule, ValidatedSchedule.validate scenario = .ok schedule →
      ∀ e, Runner.new schedule injectors ctx = .error e ↔
        ∃ before step after, scenario.steps = before ++ step :: after ∧
          (∀ s ∈ before, s.faultId ∈ injectors) ∧ step.faultId ∉ injectors ∧
          e = .invalidScenario
            s!"step references fault_id {step.faultId} which has no registered injector" := by
  constructor
  · intro e
    constructor
    · intro h
      rcases ValidatedSchedule.validate_eq scenario with ⟨⟨schedule, hok⟩, -⟩ | ⟨e', he', hwalk⟩
      · rw [hok] at h
        cases h
      · rw [h] at he'
        cases he'
        obtain ⟨before, step, after, reason, hsteps, hbefore, hreason, he⟩ := walk_error hwalk
        have hbefore' : checkSteps ∅ 0 { scenario with steps := before }.steps = .ok () := hbefore
        exact ⟨before, step, after, reason, hsteps,
          ⟨_, ValidatedSchedule.validate_of_check hbefore'⟩, hreason, he⟩
    · rintro ⟨before, step, after, reason, hsteps, ⟨schedule, hbefore⟩, hreason, rfl⟩
      have haccepted : walk [] before = .ok () := by
        have hvalid := schedule.valid
        rwa [ValidatedSchedule.scenario_of_validate hbefore] at hvalid
      have hwalk : walk [] scenario.steps = .error (.invalidScenario reason) := by
        rw [hsteps, walk_append _ haccepted, walk_cons, List.nil_append, hreason]
      rcases ValidatedSchedule.validate_eq scenario with ⟨-, hok⟩ | ⟨e', he', hwalk'⟩
      · rw [hwalk] at hok
        cases hok
      · rw [hwalk] at hwalk'
        rw [he', Except.error.inj hwalk']
  · intro schedule hvalid e
    rw [Runner.new_error_iff, checkRegistered_error_iff, ValidatedSchedule.steps,
      ValidatedSchedule.scenario_of_validate hvalid]

/-- The second arming of a fault is what the report is about, not the disarming that follows. -/
theorem refusal_of_second_arm :
    ValidatedSchedule.validate ⟨"twice", 1, [⟨0, "a", .arm⟩, ⟨5, "a", .arm⟩, ⟨3, "b", .disarm⟩]⟩ =
      .error (.invalidScenario "fault a armed twice without an intervening disarm") :=
  ((refusal_names_first_step (I := CountingInjector) _ ∅ ⟨1⟩).1 _).mpr
    ⟨[⟨0, "a", .arm⟩], ⟨5, "a", .arm⟩, [⟨3, "b", .disarm⟩], _, rfl,
      ⟨⟨⟨"twice", 1, [⟨0, "a", .arm⟩]⟩, by decide⟩, ValidatedSchedule.validate_of_check _⟩,
      by decide, rfl⟩

/-! ## The teardown -/

namespace Runner

variable {I : Type} [FaultInjector I] {r r' : Runner I} {order order' : List String}

/-- The error that the `disarm` of an armed injector would return. -/
def failure (r : Runner I) (id : String) : Option HarnessError :=
  match r.injectors.lookup id with
  | none => none
  | some i =>
    if isArmed i then
      match (disarm i).1 with
      | .error e => some e
      | .ok () => none
    else none

theorem failure_of_lookup {id : String} (h : r'.injectors.lookup id = r.injectors.lookup id) :
    r'.failure id = r.failure id := by
  unfold failure
  rw [h]

theorem failure_eq_some_iff {id : String} {e : HarnessError} :
    r.failure id = some e ↔
      ∃ i, r.injectors.lookup id = some i ∧ isArmed i = true ∧ (disarm i).1 = .error e := by
  unfold failure
  cases hi : r.injectors.lookup id with
  | none => simp
  | some i =>
    by_cases harmed : isArmed i = true
    · cases hres : (disarm i).1 with
      | error e' => simp [harmed, hres]
      | ok u => simp [harmed, hres]
    · simp [harmed]

theorem findSome?_failure_call {id : String} {i : I} (hid : id ∉ order) :
    order.findSome? (r.call id .disarm i).2.failure = order.findSome? r.failure := by
  rw [← List.head?_filterMap, ← List.head?_filterMap]
  congr 1
  apply List.filterMap_congr
  intro id' hid'
  apply failure_of_lookup
  exact Finmap.lookup_insert_of_ne _ fun heq => hid (heq ▸ hid')

theorem teardownLoop_unarmed {id : String} (rest : List String) (firstErr : Option HarnessError)
    (h : ¬ r.injectors.Armed id) :
    r.teardownLoop (id :: rest) firstErr = r.teardownLoop rest firstErr := by
  rw [teardownLoop]
  cases hi : r.injectors.lookup id with
  | none => rfl
  | some i =>
    have harmed : ¬ isArmed i = true := fun harmed => h ⟨i, hi, harmed⟩
    dsimp only
    rw [if_neg harmed]

theorem teardownLoop_armed {id : String} {i : I} (rest : List String)
    (firstErr : Option HarnessError) (hi : r.injectors.lookup id = some i)
    (harmed : isArmed i = true) :
    r.teardownLoop (id :: rest) firstErr =
      (r.call id .disarm i).2.teardownLoop rest (firstErr <|> r.failure id) := by
  rw [teardownLoop, failure, hi]
  dsimp only
  rw [if_pos harmed, if_pos harmed, show (disarm i).1 = (r.call id .disarm i).1 from rfl]
  rcases r.call id .disarm i with ⟨e | ⟨⟩, r'⟩
  · rfl
  · cases firstErr <;> rfl

theorem failure_unarmed {id : String} (h : ¬ r.injectors.Armed id) : r.failure id = none := by
  rw [Option.eq_none_iff_forall_ne_some]
  intro e he
  obtain ⟨i, hi, harmed, -⟩ := failure_eq_some_iff.mp he
  exact h ⟨i, hi, harmed⟩

/-- The loop keeps the first failure in the order of its visits. -/
theorem teardownLoop_result (hnodup : order.Nodup) (firstErr : Option HarnessError)
    (r : Runner I) :
    (r.teardownLoop order firstErr).1 = (firstErr <|> order.findSome? r.failure) := by
  induction order generalizing r firstErr with
  | nil => simp [teardownLoop]
  | cons id rest ih =>
    obtain ⟨hid, hrest⟩ := List.nodup_cons.mp hnodup
    rw [List.findSome?_cons]
    by_cases harmed : r.injectors.Armed id
    · obtain ⟨i, hi, harmed⟩ := harmed
      rw [teardownLoop_armed rest firstErr hi harmed, ih hrest, findSome?_failure_call hid]
      cases firstErr <;> cases r.failure id <;> rfl
    · rw [teardownLoop_unarmed rest firstErr harmed, failure_unarmed harmed]
      exact ih hrest firstErr r

/-- The result of a teardown. -/
theorem teardown_result (horder : Iterates order r.injectors) :
    (r.teardown order).1 =
      match order.findSome? r.failure with
      | none => .ok ()
      | some e => .error e := by
  have hloop : (r.teardownLoop order none).1 = order.findSome? r.failure :=
    teardownLoop_result horder.1 none r
  rw [← hloop, teardown]
  rcases r.teardownLoop order none with ⟨_ | e, r'⟩ <;> rfl

/-- The injector is armed, its `disarm` fails, and it reports to be armed even then. -/
def StaysArmed (r : Runner I) (id : String) : Prop :=
  ∃ i, r.injectors.lookup id = some i ∧ isArmed i = true ∧ (∃ e, (disarm i).1 = .error e) ∧
    isArmed (disarm i).2 = true

theorem StaysArmed.failure {id : String} (h : r.StaysArmed id) : ∃ e, r.failure id = some e := by
  obtain ⟨i, hi, harmed, ⟨e, he⟩, -⟩ := h
  exact ⟨e, failure_eq_some_iff.mpr ⟨i, hi, harmed, he⟩⟩

/-- Armed after a teardown is what was armed before and stayed so. -/
theorem armed_teardown [SettlingInjector I] (horder : Iterates order r.injectors) (id : String) :
    (r.teardown order).2.injectors.Armed id ↔ r.StaysArmed id := by
  obtain ⟨disarms, h⟩ := exists_tornDown_drop horder
  show (r.drop order).injectors.Armed id ↔ _
  by_cases hid : id ∈ disarms.map Call.faultId
  · obtain ⟨c, hc, rfl⟩ := List.mem_map.mp hid
    obtain ⟨-, i, hi, harmed, -, hafter⟩ := h.called c hc
    simp only [Registry.Armed, StaysArmed, hafter, hi, Option.some.injEq, exists_eq_left']
    constructor
    · intro hstill
      refine ⟨harmed, ?_, hstill⟩
      cases hres : (disarm i).1 with
      | error e => exact ⟨e, rfl⟩
      | ok u =>
        rw [SettlingInjector.disarm_ok i hres] at hstill
        cases hstill
    · exact fun hstays => hstays.2.2
  · -- an injector that was not visited was not armed, and nothing has touched it
    have hnot : ¬ r.injectors.Armed id := fun ha => hid ((h.mem_iff_armed horder id).mpr ha)
    constructor
    · rintro ⟨i, hi, ha⟩
      rw [h.frame id hid] at hi
      exact absurd ⟨i, hi, ha⟩ hnot
    · rintro ⟨i, hi, harmed, -⟩
      exact absurd ⟨i, hi, harmed⟩ hnot

end Runner

open Runner

/-- **A teardown and the drop that follows it.** The teardown returns the error of the first
injector, in the order of its visits, that is armed and fails to disarm, and `Ok` if there is none.
The drop, in whatever order, then calls `disarm` once more on exactly the injectors that failed and
report to be armed all the same; so a teardown that returned `Ok` leaves it nothing to do. -/
theorem drop_after_teardown {I : Type} [FaultInjector I] [SettlingInjector I] {r : Runner I}
    {order order' : List String} (horder : Iterates order r.injectors)
    (horder' : Iterates order' (r.teardown order).2.injectors) :
    (∀ e, (r.teardown order).1 = .error e ↔
      ∃ pre id post, order = pre ++ id :: post ∧ r.failure id = some e ∧
        ∀ id' ∈ pre, r.failure id' = none) ∧
    ∃ retried, ((r.teardown order).2.drop order').calls = (r.teardown order).2.calls ++ retried ∧
      (retried.map Call.faultId).Nodup ∧ (∀ c ∈ retried, c.action = .disarm) ∧
      (∀ id, id ∈ retried.map Call.faultId ↔ r.StaysArmed id) ∧
      ((r.teardown order).1 = .ok () → retried = []) := by
  have hresult := teardown_result horder
  constructor
  · intro e
    rw [hresult, ← List.findSome?_eq_some_iff]
    cases order.findSome? r.failure with
    | none => simp
    | some e' => simp
  · obtain ⟨retried, h⟩ := exists_tornDown_drop horder'
    have hmem : ∀ id, id ∈ retried.map Call.faultId ↔ r.StaysArmed id := fun id =>
      (h.mem_iff_armed horder' id).trans (armed_teardown horder id)
    refine ⟨retried, h.calls, h.nodup, fun c hc => (h.called c hc).1, hmem, fun hok => ?_⟩
    have hnone : order.findSome? r.failure = none := by
      rw [hresult] at hok
      cases hfind : order.findSome? r.failure with
      | none => rfl
      | some e =>
        rw [hfind] at hok
        cases hok
    rw [← List.map_eq_nil_iff (f := Call.faultId), List.eq_nil_iff_forall_not_mem]
    intro id hid
    obtain ⟨e, he⟩ := ((hmem id).mp hid).failure
    obtain ⟨i, hi, -⟩ := failure_eq_some_iff.mp he
    rw [List.findSome?_eq_none_iff.mp hnone id ((horder.2 id).mpr (Finmap.mem_iff.mpr ⟨i, hi⟩))]
      at he
    cases he

/-- A runner with two armed injectors, one of which fails to disarm once. -/
def leftArmed : Runner StuckInjector :=
  ⟨stuckRunner.schedule,
    ((∅ : Registry StuckInjector).insert "slow" ⟨true, 1⟩).insert "quick" ⟨true, 0⟩, ⟨1⟩, []⟩

/-- The teardown reports the stuck injector, and the drop disarms this one only. -/
theorem drop_after_teardown_leftArmed :
    (leftArmed.teardown ["quick", "slow"]).1 = .error (.disarmFailed "slow" "device busy") ∧
      ∃ retried, ((leftArmed.teardown ["quick", "slow"]).2.drop ["slow", "quick"]).calls =
          (leftArmed.teardown ["quick", "slow"]).2.calls ++ retried ∧
        ∀ id, id ∈ retried.map Call.faultId ↔ id = "slow" := by
  have horder : Iterates ["quick", "slow"] leftArmed.injectors :=
    ⟨by decide, fun id => by simp [leftArmed, Finmap.notMem_empty]⟩
  have horder' : Iterates ["slow", "quick"]
      (leftArmed.teardown ["quick", "slow"]).2.injectors := by
    refine ⟨by decide, fun id => ?_⟩
    show id ∈ ["slow", "quick"] ↔
      id ∈ (leftArmed.injectors.insert "quick" ⟨false, 0⟩).insert "slow" ⟨true, 0⟩
    simp only [leftArmed, Finmap.mem_insert, List.mem_cons, List.not_mem_nil, Finmap.notMem_empty]
    grind
  obtain ⟨hreport, retried, hcalls, -, -, hmem, -⟩ := drop_after_teardown horder horder'
  refine ⟨(hreport _).mpr ⟨["quick"], "slow", [], rfl, rfl, fun id hid => ?_⟩, retried, hcalls,
    fun id => (hmem id).trans ?_⟩
  · rw [List.mem_singleton.mp hid]
    rfl
  · constructor
    · rintro ⟨i, hi, -, ⟨e, he⟩, -⟩
      by_contra hslow
      rw [leftArmed] at hi
      by_cases hquick : id = "quick"
      · rw [hquick, Finmap.lookup_insert] at hi
        cases hi
        cases he
      · rw [Finmap.lookup_insert_of_ne _ hquick, Finmap.lookup_insert_of_ne _ hslow] at hi
        cases hi
    · rintro rfl
      exact ⟨_, rfl, rfl, ⟨_, rfl⟩, rfl⟩

end Blackswan.Replay
