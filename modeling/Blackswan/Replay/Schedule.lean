import Mathlib.Data.Finset.Basic
import Mathlib.Data.List.Basic
import Blackswan.Core

/-!
# Validated schedules

`ValidatedSchedule::validate` walks the steps once with the set of armed faults and the time of
the previous step. `checkSteps` is that walk and `ValidatedSchedule` carries its success, so a
schedule that was never validated cannot be built.

`checkSteps_cons` says once what an accepted step looks like. From it follow what the walk accepts
(`checkSteps_iff`: sorted by time, and each fault on its own alternates between arming and
disarming) and the link between the walked set and the last action of each fault (`ArmedBy`).
-/

namespace Blackswan.Replay

/-- The body of the loop of `ValidatedSchedule::validate`, over the remaining steps. -/
def checkSteps (armed : Finset String) (lastNs : UInt64) :
    List ScenarioStep → Except HarnessError Unit
  | [] => .ok ()
  | step :: rest =>
    if step.atNs < lastNs then
      .error (.invalidScenario
        (s!"step for {step.faultId} at {step.atNs}ns is out of order, " ++
          s!"previous step was at {lastNs}ns"))
    else
      match step.action with
      | .arm =>
        -- `HashSet::insert` returns `false` on an element that was there
        if step.faultId ∈ armed then
          .error (.invalidScenario
            s!"fault {step.faultId} armed twice without an intervening disarm")
        else checkSteps (insert step.faultId armed) step.atNs rest
      | .disarm =>
        if step.faultId ∈ armed then checkSteps (armed.erase step.faultId) step.atNs rest
        else .error (.invalidScenario s!"fault {step.faultId} disarmed but was never armed")

structure ValidatedSchedule where
  scenario : Scenario
  valid : checkSteps ∅ 0 scenario.steps = .ok ()

namespace ValidatedSchedule

def validate (scenario : Scenario) : Except HarnessError ValidatedSchedule :=
  match h : checkSteps ∅ 0 scenario.steps with
  | .error e => .error e
  | .ok () => .ok ⟨scenario, h⟩

def steps (schedule : ValidatedSchedule) : List ScenarioStep := schedule.scenario.steps

def name (schedule : ValidatedSchedule) : String := schedule.scenario.name

def seed (schedule : ValidatedSchedule) : UInt64 := schedule.scenario.seed

/-- A validated schedule is the scenario it was made from. -/
theorem scenario_of_validate {scenario : Scenario} {schedule : ValidatedSchedule}
    (h : validate scenario = .ok schedule) : schedule.scenario = scenario := by
  unfold validate at h
  split at h
  · cases h
  · cases h; rfl

theorem validate_of_check {scenario : Scenario} (h : checkSteps ∅ 0 scenario.steps = .ok ()) :
    validate scenario = .ok ⟨scenario, h⟩ := by
  unfold validate
  split
  · rename_i e he; rw [h] at he; cases he
  · rfl

end ValidatedSchedule

/-! ## What an accepted step looks like -/

/-- The set of armed faults after a step. -/
def toggle (armed : Finset String) (step : ScenarioStep) : Finset String :=
  match step.action with
  | .arm => insert step.faultId armed
  | .disarm => armed.erase step.faultId

theorem mem_toggle (armed : Finset String) (step : ScenarioStep) (id : String) :
    id ∈ toggle armed step ↔ if id = step.faultId then step.action = .arm else id ∈ armed := by
  unfold toggle
  rcases ha : step.action with _ | _ <;> by_cases h : id = step.faultId <;> simp [h]

theorem checkSteps_cons {armed : Finset String} {lastNs : UInt64} {step : ScenarioStep}
    {rest : List ScenarioStep} :
    checkSteps armed lastNs (step :: rest) = .ok () ↔
      lastNs ≤ step.atNs ∧ (step.faultId ∈ armed ↔ step.action = .disarm) ∧
        checkSteps (toggle armed step) step.atNs rest = .ok () := by
  unfold toggle
  rw [checkSteps]
  by_cases ht : step.atNs < lastNs
  · simp [ht, UInt64.not_le.mpr ht]
  · have hle : lastNs ≤ step.atNs := UInt64.not_lt.mp ht
    rw [if_neg ht]
    rcases ha : step.action with _ | _ <;> by_cases hm : step.faultId ∈ armed <;> simp [hm, hle]

/-- The walk over a prefix of an accepted list of steps is accepted too, and ends in the state
from which the rest is accepted. -/
theorem checkSteps_append {armed : Finset String} {lastNs : UInt64} {pre rest : List ScenarioStep}
    (h : checkSteps armed lastNs (pre ++ rest) = .ok ()) :
    ∃ lastNs', checkSteps (pre.foldl toggle armed) lastNs' rest = .ok () := by
  induction pre generalizing armed lastNs with
  | nil => exact ⟨lastNs, h⟩
  | cons step pre ih =>
    rw [List.cons_append, checkSteps_cons] at h
    exact ih h.2.2

/-! ## What is accepted -/

/-- The actions on one fault, in order. -/
def actionsOf (steps : List ScenarioStep) (id : String) : List StepAction :=
  (steps.filter fun s => s.faultId = id).map ScenarioStep.action

theorem actionsOf_cons_self (step : ScenarioStep) (rest : List ScenarioStep) :
    actionsOf (step :: rest) step.faultId = step.action :: actionsOf rest step.faultId := by
  simp [actionsOf]

theorem actionsOf_cons_of_ne {step : ScenarioStep} {id : String} (h : id ≠ step.faultId)
    (rest : List ScenarioStep) : actionsOf (step :: rest) id = actionsOf rest id := by
  simp [actionsOf, h.symm]

/-- `Arm`, `Disarm`, `Arm` and so on. -/
def Alternates (actions : List StepAction) : Prop :=
  ∀ i action, actions[i]? = some action → (action = .arm ↔ i % 2 = 0)

/-- The same, beginning with `Disarm` if the fault is armed already. -/
def AlternatesFrom (armed : Prop) (actions : List StepAction) : Prop :=
  ∀ i action, actions[i]? = some action → (action = .arm ↔ (i % 2 = 0 ↔ ¬ armed))

theorem alternatesFrom_nil (armed : Prop) : AlternatesFrom armed [] := by
  intro i action h
  cases h

theorem alternatesFrom_cons {armed : Prop} {action : StepAction} {rest : List StepAction} :
    AlternatesFrom armed (action :: rest) ↔
      (armed ↔ action = .disarm) ∧ AlternatesFrom (action = .arm) rest := by
  have hother : action = .disarm ↔ ¬ action = .arm := by cases action <;> simp
  rw [hother]
  have hparity : ∀ i, (i + 1) % 2 = 0 ↔ ¬ i % 2 = 0 := fun i => by omega
  constructor
  · intro h
    have hfirst : action = .arm ↔ ¬ armed := by
      rw [h 0 action rfl, Nat.zero_mod, eq_self, true_iff]
    refine ⟨by rw [hfirst, not_not], fun i next hnext => ?_⟩
    rw [h (i + 1) next hnext, hparity, hfirst, not_not, not_iff_not]
  · rintro ⟨hfirst, hrest⟩ i next hnext
    cases i with
    | zero =>
      cases hnext
      rw [hfirst, not_not, Nat.zero_mod, eq_self, true_iff]
    | succ i => rw [hrest i next hnext, hparity, hfirst, not_iff_not]

/-- One step is checked against the set, and every fault goes on from the new set. -/
theorem alternates_cons {armed : Finset String} {step : ScenarioStep} {rest : List ScenarioStep} :
    (∀ id, AlternatesFrom (id ∈ armed) (actionsOf (step :: rest) id)) ↔
      (step.faultId ∈ armed ↔ step.action = .disarm) ∧
        ∀ id, AlternatesFrom (id ∈ toggle armed step) (actionsOf rest id) := by
  have hself : (step.faultId ∈ toggle armed step) = (step.action = .arm) := by
    rw [mem_toggle, if_pos rfl]
  have hother : ∀ id, id ≠ step.faultId →
      actionsOf (step :: rest) id = actionsOf rest id ∧
        (id ∈ toggle armed step) = (id ∈ armed) := by
    intro id hid
    refine ⟨actionsOf_cons_of_ne hid rest, ?_⟩
    rw [mem_toggle, if_neg hid]
  constructor
  · intro h
    have hstep := h step.faultId
    rw [actionsOf_cons_self, alternatesFrom_cons] at hstep
    refine ⟨hstep.1, fun id => ?_⟩
    by_cases hid : id = step.faultId
    · rw [hid, hself]
      exact hstep.2
    · rw [(hother id hid).2, ← (hother id hid).1]
      exact h id
  · rintro ⟨hstep, h⟩ id
    by_cases hid : id = step.faultId
    · rw [hid, actionsOf_cons_self, alternatesFrom_cons, ← hself]
      exact ⟨hstep, h step.faultId⟩
    · rw [(hother id hid).1, ← (hother id hid).2]
      exact h id

/-- The walk from any set and time. -/
theorem checkSteps_iff {armed : Finset String} {lastNs : UInt64} {steps : List ScenarioStep} :
    checkSteps armed lastNs steps = .ok () ↔
      ((∀ step ∈ steps, lastNs ≤ step.atNs) ∧ steps.Pairwise fun a b => a.atNs ≤ b.atNs) ∧
        ∀ id, AlternatesFrom (id ∈ armed) (actionsOf steps id) := by
  induction steps generalizing armed lastNs with
  | nil =>
    refine iff_of_true rfl ⟨by simp, fun id => ?_⟩
    exact alternatesFrom_nil _
  | cons step rest ih =>
    rw [checkSteps_cons, alternates_cons, ih, List.forall_mem_cons, List.pairwise_cons]
    constructor
    · rintro ⟨hle, hstep, ⟨hlow, hpair⟩, halt⟩
      exact ⟨⟨⟨hle, fun s hs => UInt64.le_trans hle (hlow s hs)⟩, hlow, hpair⟩, hstep, halt⟩
    · rintro ⟨⟨⟨hle, -⟩, hlow, hpair⟩, hstep, halt⟩
      exact ⟨hle, hstep, ⟨hlow, hpair⟩, halt⟩

/-- **The schedules that are accepted** are those in which time does not go back and every fault
alternates, beginning with `Arm`. What is accepted is not changed. -/
theorem ValidatedSchedule.validate_ok_iff (scenario : Scenario) :
    ((∃ schedule, validate scenario = .ok schedule) ↔
      scenario.steps.Pairwise (fun a b => a.atNs ≤ b.atNs) ∧
        ∀ id, Alternates (actionsOf scenario.steps id)) ∧
    ∀ schedule, validate scenario = .ok schedule → schedule.steps = scenario.steps ∧
      schedule.name = scenario.name ∧ schedule.seed = scenario.seed := by
  have hfrom : ∀ id, AlternatesFrom (id ∈ (∅ : Finset String)) (actionsOf scenario.steps id) ↔
      Alternates (actionsOf scenario.steps id) := by
    intro id
    unfold AlternatesFrom Alternates
    simp only [Finset.notMem_empty, not_false_eq_true, iff_true]
  have hcheck : checkSteps ∅ 0 scenario.steps = .ok () ↔
      scenario.steps.Pairwise (fun a b => a.atNs ≤ b.atNs) ∧
        ∀ id, Alternates (actionsOf scenario.steps id) := by
    rw [checkSteps_iff, forall_congr' hfrom, and_iff_right (fun _ _ => UInt64.zero_le)]
  refine ⟨?_, fun schedule h => ?_⟩
  · rw [← hcheck]
    constructor
    · rintro ⟨schedule, h⟩
      have hvalid := schedule.valid
      rwa [scenario_of_validate h] at hvalid
    · intro h
      exact ⟨_, validate_of_check h⟩
  · rw [← scenario_of_validate h]
    exact ⟨rfl, rfl, rfl⟩

/-- The steps of a validated schedule are sorted by time. -/
theorem ValidatedSchedule.steps_pairwise (schedule : ValidatedSchedule) :
    schedule.steps.Pairwise (fun a b => a.atNs ≤ b.atNs) :=
  (checkSteps_iff.mp schedule.valid).1.2

theorem ValidatedSchedule.atNs_le_last (schedule : ValidatedSchedule) {last step : ScenarioStep}
    (hlast : schedule.steps.getLast? = some last) (hstep : step ∈ schedule.steps) :
    step.atNs ≤ last.atNs := by
  obtain ⟨pre, hsteps⟩ := List.getLast?_eq_some_iff.mp hlast
  have hpair := schedule.steps_pairwise
  rw [hsteps] at hstep hpair
  rcases List.mem_append.mp hstep with hs | hs
  · exact (List.pairwise_append.mp hpair).2.2 step hs last List.mem_cons_self
  · rw [List.mem_singleton.mp hs]
    exact UInt64.le_refl _

/-! ## The faults a prefix leaves armed -/

/-- The last action of `steps` on the fault `id` arms it. -/
def ArmedBy (steps : List ScenarioStep) (id : String) : Prop :=
  ((steps.filter fun s => s.faultId = id).getLast?.map ScenarioStep.action) = some .arm

instance (steps : List ScenarioStep) (id : String) : Decidable (ArmedBy steps id) := by
  unfold ArmedBy; infer_instance

theorem not_armedBy_nil (id : String) : ¬ ArmedBy [] id := by
  simp [ArmedBy]

theorem armedBy_concat (steps : List ScenarioStep) (step : ScenarioStep) (id : String) :
    ArmedBy (steps ++ [step]) id ↔
      if id = step.faultId then step.action = .arm else ArmedBy steps id := by
  unfold ArmedBy
  by_cases h : id = step.faultId
  · subst h; simp
  · have h' : step.faultId ≠ id := fun e => h e.symm
    simp [h, h']

/-- The set that `validate` maintains holds the faults that the steps walked so far leave armed. -/
theorem mem_foldl_toggle (steps : List ScenarioStep) (id : String) :
    id ∈ steps.foldl toggle ∅ ↔ ArmedBy steps id := by
  induction steps using List.reverseRecOn with
  | nil => simp [not_armedBy_nil]
  | append_singleton steps step ih =>
    rw [List.foldl_append, List.foldl_cons, List.foldl_nil, mem_toggle, armedBy_concat, ih]

/-- A validated schedule arms a fault only where its earlier steps leave it disarmed, and
disarms it only where they leave it armed. -/
theorem ValidatedSchedule.armedBy_take_iff (schedule : ValidatedSchedule) {k : ℕ}
    {step : ScenarioStep} (hk : schedule.steps[k]? = some step) :
    ArmedBy (schedule.steps.take k) step.faultId ↔ step.action = .disarm := by
  obtain ⟨hlt, rfl⟩ := List.getElem?_eq_some_iff.mp hk
  have hsplit : schedule.scenario.steps =
      schedule.steps.take k ++ schedule.steps[k] :: schedule.steps.drop (k + 1) := by
    rw [List.getElem_cons_drop, List.take_append_drop]; rfl
  have hvalid := schedule.valid
  rw [hsplit] at hvalid
  obtain ⟨lastNs, hrest⟩ := checkSteps_append hvalid
  rw [← mem_foldl_toggle]
  exact (checkSteps_cons.mp hrest).2.1

end Blackswan.Replay
