import Blackswan.Replay.Runner

/-!
# A run without its clock

What a run is for, with no clock in it: `play` performs the steps of a schedule in order until
a call fails. `tracks_pass` shows that one pass of `run_inner` plays the steps that came due, and
`play_of_runInner` that a run which ends has played its schedule, whatever the tick size.
`Ticked` adds the clock: `exists_terminates` is the one reason a run ends for.
-/

namespace Blackswan.Replay

open Lib (Outcome Turn Ends loop)
open FaultInjector (arm disarm isArmed)

namespace Runner

variable {I : Type} [FaultInjector I]

/-- The steps in order, up to the first call that does not succeed. -/
def play : List ScenarioStep → Runner I → Outcome HarnessError Unit × Runner I
  | [], r => (.ok (), r)
  | step :: rest, r =>
    match r.fireStep step with
    | (.ok (), r') => play rest r'
    | (.err e, r') => (.err e, r')
    | (.panic, r') => (.panic, r')

theorem play_cons_ok {step : ScenarioStep} {rest : List ScenarioStep} {r r' : Runner I}
    (h : r.fireStep step = (.ok (), r')) : r.play (step :: rest) = r'.play rest := by
  rw [play, h]

theorem play_cons_err {step : ScenarioStep} {rest : List ScenarioStep} {r r' : Runner I}
    {e : HarnessError} (h : r.fireStep step = (.err e, r')) :
    r.play (step :: rest) = (.err e, r') := by
  rw [play, h]

theorem play_cons_panic {step : ScenarioStep} {rest : List ScenarioStep} {r r' : Runner I}
    (h : r.fireStep step = (.panic, r')) : r.play (step :: rest) = (.panic, r') := by
  rw [play, h]

/-- After a successful prefix the rest is played from the runner the prefix leaves. -/
theorem play_append_of_ok {pre rest : List ScenarioStep} {r r' : Runner I}
    (h : r.play pre = (.ok (), r')) : r.play (pre ++ rest) = r'.play rest := by
  induction pre generalizing r with
  | nil =>
    obtain rfl : r = r' := congrArg Prod.snd h
    rfl
  | cons step pre ih =>
    rw [List.cons_append]
    rcases hf : r.fireStep step with ⟨_ | _ | _, r₁⟩
    · rw [play_cons_ok hf] at h ⊢
      exact ih h
    · rw [play_cons_err hf] at h
      cases h
    · rw [play_cons_panic hf] at h
      cases h

/-- A prefix that does not succeed ends the play. -/
theorem play_append_of_ne_ok {pre rest : List ScenarioStep} {r : Runner I}
    (h : (r.play pre).1 ≠ .ok ()) : r.play (pre ++ rest) = r.play pre := by
  induction pre generalizing r with
  | nil => exact absurd rfl h
  | cons step pre ih =>
    rw [List.cons_append]
    rcases hf : r.fireStep step with ⟨_ | _ | _, r₁⟩
    · rw [play_cons_ok hf] at h ⊢
      rw [play_cons_ok hf]
      exact ih h
    · rw [play_cons_err hf, play_cons_err hf]
    · rw [play_cons_panic hf, play_cons_panic hf]

/-- The inner loop of a pass plays the due steps and stamps them all with the same time. -/
theorem fireDue_eq_play (now : UInt64) (due : List ScenarioStep) (trace : Trace) (r : Runner I) :
    r.fireDue now due trace =
      ((r.play due).1.map fun _ => { trace with
        events := trace.events ++ due.map fun step => ⟨step, now⟩ }, (r.play due).2) := by
  induction due generalizing trace r with
  | nil => simp [fireDue, play]
  | cons step rest ih =>
    rw [fireDue]
    rcases hf : r.fireStep step with ⟨_ | _ | _, r₁⟩
    · rw [play_cons_ok hf]
      show r₁.fireDue now rest (trace.record step now) = _
      rw [ih]
      simp [Trace.record]
    · rw [play_cons_err hf]; rfl
    · rw [play_cons_panic hf]; rfl

/-! ## One pass -/

variable {tickNs : UInt64} {realtime : Bool} {s s' : LoopState I} {e : RunEnd I}

theorem pass_of_finished (h : s.scheduler.isFinished = true) :
    pass tickNs realtime s = .done ⟨.ok s.trace, s.runner, s.sleptNs⟩ := by
  unfold pass; rw [if_pos h]

/-- A pass over an unfinished schedule plays the steps that came due. -/
theorem pass_of_unfinished (tickNs : UInt64) (realtime : Bool)
    (h : s.scheduler.isFinished = false) :
    ∃ sleptNs, pass tickNs realtime s =
      match s.runner.play (s.scheduler.advance tickNs).1 with
      | (.ok (), runner) => .again ⟨(s.scheduler.advance tickNs).2, { s.trace with
          events := s.trace.events ++ (s.scheduler.advance tickNs).1.map fun step =>
            ⟨step, s.scheduler.nowNs + tickNs⟩ }, runner, sleptNs⟩
      | (.err e, runner) => .done ⟨.err e, runner, sleptNs⟩
      | (.panic, runner) => .done ⟨.panic, runner, sleptNs⟩ := by
  refine ⟨if realtime then s.sleptNs + tickNs.toNat else s.sleptNs, ?_⟩
  unfold pass
  rw [if_neg (by simp [h])]
  simp only [fireDue_eq_play]
  rcases s.runner.play (s.scheduler.advance tickNs).1 with ⟨_ | _ | _, r₁⟩ <;> rfl

/-- A pass that goes on has played the steps that came due and stamped them with the new time. -/
theorem pass_eq_again (h : pass tickNs realtime s = .again s') :
    s.scheduler.isFinished = false ∧
      s'.scheduler = (s.scheduler.advance tickNs).2 ∧
      s.runner.play (s.scheduler.advance tickNs).1 = (.ok (), s'.runner) ∧
      s'.trace = { s.trace with events := s.trace.events ++
        (s.scheduler.advance tickNs).1.map fun step => ⟨step, s.scheduler.nowNs + tickNs⟩ } := by
  rcases hf : s.scheduler.isFinished with _ | _
  · obtain ⟨sleptNs, hp⟩ := pass_of_unfinished tickNs realtime hf
    rw [hp] at h
    rcases hplay : s.runner.play (s.scheduler.advance tickNs).1 with ⟨_ | _ | _, r₁⟩ <;>
      rw [hplay] at h <;> cases h
    exact ⟨rfl, rfl, rfl, rfl⟩
  · rw [pass_of_finished hf] at h
    cases h

/-- A pass after which the run ends: the schedule was finished, or a due step stopped it. -/
theorem pass_eq_done (h : pass tickNs realtime s = .done e) :
    (s.scheduler.isFinished = true ∧ e.outcome = .ok s.trace ∧ e.runner = s.runner) ∨
      (s.runner.play (s.scheduler.advance tickNs).1).1 ≠ .ok () ∧
        e.outcome.map (fun _ => ()) = (s.runner.play (s.scheduler.advance tickNs).1).1 ∧
        e.runner = (s.runner.play (s.scheduler.advance tickNs).1).2 := by
  rcases hf : s.scheduler.isFinished with _ | _
  · obtain ⟨sleptNs, hp⟩ := pass_of_unfinished tickNs realtime hf
    rw [hp] at h
    rcases hplay : s.runner.play (s.scheduler.advance tickNs).1 with ⟨_ | _ | _, r₁⟩ <;>
      rw [hplay] at h <;> cases h <;> exact Or.inr ⟨by simp, rfl, rfl⟩
  · rw [pass_of_finished hf] at h
    cases h
    exact Or.inl ⟨rfl, rfl, rfl⟩

/-! ## The invariant of the run loop -/

/-- At the head of the loop the steps before the cursor have been played and recorded. -/
structure Tracks (r : Runner I) (s : LoopState I) : Prop where
  schedule : s.scheduler.schedule = r.schedule
  played : r.play (r.schedule.steps.take s.scheduler.cursor) = (.ok (), s.runner)
  name : s.trace.scenarioName = r.schedule.name
  seed : s.trace.seed = r.schedule.seed
  steps : s.trace.steps = r.schedule.steps.take s.scheduler.cursor

/-- What a run that ended has done. -/
structure Played (r : Runner I) (e : RunEnd I) : Prop where
  runner : e.runner = (r.play r.schedule.steps).2
  outcome : e.outcome.map (fun _ => ()) = (r.play r.schedule.steps).1
  trace : ∀ trace, e.outcome = .ok trace → trace.scenarioName = r.schedule.name ∧
    trace.seed = r.schedule.seed ∧ trace.steps = r.schedule.steps

theorem tracks_start (r : Runner I) : Tracks r r.start where
  schedule := rfl
  played := rfl
  name := rfl
  seed := rfl
  steps := rfl

theorem tracks_pass {r : Runner I} (ht : Tracks r s) (h : pass tickNs realtime s = .again s') :
    Tracks r s' := by
  obtain ⟨-, hsched, hplay, htrace⟩ := pass_eq_again h
  have htake := s.scheduler.take_cursor_advance tickNs
  rw [ht.schedule, ← hsched] at htake
  constructor
  · rw [hsched]
    exact ht.schedule
  · rw [htake, play_append_of_ok ht.played]
    exact hplay
  · rw [htrace]
    exact ht.name
  · rw [htrace]
    exact ht.seed
  · have hsteps := ht.steps
    unfold Trace.steps at hsteps ⊢
    rw [htake, htrace]
    simp [hsteps, Function.comp_def]

theorem played_of_done {r : Runner I} (ht : Tracks r s) (h : pass tickNs realtime s = .done e) :
    Played r e := by
  rcases pass_eq_done h with ⟨hf, ho, hr⟩ | ⟨hne, ho, hr⟩
  · -- the schedule was finished: everything has been played
    have hlen := (s.scheduler.isFinished_iff).mp hf
    rw [ht.schedule] at hlen
    have hall : r.schedule.steps.take s.scheduler.cursor = r.schedule.steps :=
      List.take_of_length_le hlen
    have hp := ht.played
    have hs := ht.steps
    rw [hall] at hp hs
    constructor
    · rw [hr, hp]
    · rw [ho, hp]; rfl
    · intro trace htrace
      rw [ho] at htrace
      cases htrace
      exact ⟨ht.name, ht.seed, hs⟩
  · -- a due step stopped the run
    have hsplit : r.schedule.steps = r.schedule.steps.take s.scheduler.cursor ++
        ((s.scheduler.advance tickNs).1 ++
          r.schedule.steps.drop (s.scheduler.advance tickNs).2.cursor) := by
      have htake := s.scheduler.take_cursor_advance tickNs
      rw [ht.schedule] at htake
      rw [← List.append_assoc, ← htake, List.take_append_drop]
    have hp : r.play r.schedule.steps = s.runner.play (s.scheduler.advance tickNs).1 := by
      conv_lhs => rw [hsplit]
      rw [play_append_of_ok ht.played, play_append_of_ne_ok hne]
    constructor
    · rw [hp, hr]
    · rw [hp, ho]
    · intro trace htrace
      rw [htrace] at ho
      exact absurd ho.symm hne

/-- **A run that ends has played its schedule**, at any tick size and in both modes. -/
theorem play_of_runInner {r : Runner I} {fuel : ℕ}
    (h : r.runInner fuel tickNs realtime = some e) : Played r e :=
  Ends.invariant (Tracks r) (Played r) (fun _ _ ht hp => tracks_pass ht hp)
    (fun _ _ ht hp => played_of_done ht hp) (tracks_start r) ⟨fuel, h⟩

/-! ## The clock of the run loop -/

/-- After `k` passes: the clock shows `k` ticks modulo its range, and the step at the cursor is
still to come. -/
structure Ticked (r : Runner I) (tickNs : UInt64) (k : ℕ) (s : LoopState I) : Prop where
  tracks : Tracks r s
  clock : s.scheduler.nowNs.toNat = k * tickNs.toNat % 2 ^ 64
  waiting : ∀ step, r.schedule.steps[s.scheduler.cursor]? = some step →
    k = 0 ∨ s.scheduler.nowNs < step.atNs

theorem ticked_start (r : Runner I) (tickNs : UInt64) : Ticked r tickNs 0 r.start where
  tracks := tracks_start r
  clock := by rw [Nat.zero_mul]; rfl
  waiting := fun _ _ => Or.inl rfl

theorem ticked_pass {r : Runner I} {k : ℕ} (ht : Ticked r tickNs k s)
    (h : pass tickNs realtime s = .again s') : Ticked r tickNs (k + 1) s' := by
  obtain ⟨-, hsched, -, -⟩ := pass_eq_again h
  constructor
  · exact tracks_pass ht.tracks h
  · rw [hsched, Scheduler.advance_nowNs, UInt64.toNat_add, ht.clock, Nat.mod_add_mod,
      Nat.add_mul, Nat.one_mul]
  · intro step hstep
    right
    rw [hsched] at hstep ⊢
    rw [← ht.tracks.schedule] at hstep
    exact s.scheduler.not_due_advance tickNs hstep

/-- The step at the cursor of an unfinished schedule. -/
theorem exists_waiting {r : Runner I} (ht : Tracks r s) (hf : s.scheduler.isFinished = false) :
    ∃ step, r.schedule.steps[s.scheduler.cursor]? = some step := by
  have hlt : s.scheduler.cursor < r.schedule.steps.length := by
    have hnot := Bool.eq_false_iff.mp hf
    rw [ne_eq, Scheduler.isFinished_iff, ht.schedule] at hnot
    omega
  exact ⟨r.schedule.steps[s.scheduler.cursor], List.getElem?_eq_getElem hlt⟩

/-- The run ends as `e` with every large enough fuel. -/
def Terminates (r : Runner I) (tickNs : UInt64) (realtime : Bool) (e : RunEnd I) : Prop :=
  ∃ bound, ∀ fuel ≥ bound, r.runInner fuel tickNs realtime = some e

theorem terminates_of_ends {r : Runner I} (h : Ends (pass tickNs realtime) r.start e) :
    r.Terminates tickNs realtime e := by
  obtain ⟨n, hn⟩ := h
  exact ⟨n, fun fuel hfuel => Lib.loop_mono hn hfuel⟩

/-- A run ends if some pass finds the clock past every step. -/
theorem exists_terminates {r : Runner I} (N : ℕ) (hN : N ≠ 0)
    (hlate : ∀ step ∈ r.schedule.steps, step.atNs.toNat ≤ N * tickNs.toNat % 2 ^ 64) :
    ∃ e, r.Terminates tickNs realtime e := by
  have hends : ∃ e, Ends (pass tickNs realtime) r.start e := by
    refine Lib.exists_ends (Ticked r tickNs) N ?_ ?_ (ticked_start r tickNs)
    · intro k s _ ht
      rcases hp : pass tickNs realtime s with s' | e
      · exact Or.inr ⟨s', rfl, ticked_pass ht hp⟩
      · exact Or.inl ⟨e, rfl⟩
    · intro s ht
      have hf : s.scheduler.isFinished = true := by
        by_contra hf
        obtain ⟨step, hstep⟩ := exists_waiting ht.tracks (Bool.eq_false_iff.mpr hf)
        have hle := hlate step (List.mem_of_getElem? hstep)
        rcases ht.waiting step hstep with h0 | hw
        · exact hN h0
        · rw [UInt64.lt_iff_toNat_lt, ht.clock] at hw
          omega
      exact ⟨_, pass_of_finished hf⟩
  obtain ⟨e, he⟩ := hends
  exact ⟨e, terminates_of_ends he⟩

/-! ## Registries whose calls succeed -/

/-- Performing the steps in order on the registry, every call returns `Ok`. -/
def CallsSucceed (ctx : FaultContext) : Registry I → List ScenarioStep → Prop
  | _, [] => True
  | injectors, step :: rest =>
    ∀ i, injectors.lookup step.faultId = some i →
      (perform ctx step.action i).1 = .ok () ∧
        CallsSucceed ctx (injectors.insert step.faultId (perform ctx step.action i).2) rest

theorem callsSucceed_counting (ctx : FaultContext) (injectors : Registry CountingInjector)
    (steps : List ScenarioStep) : CallsSucceed ctx injectors steps := by
  induction steps generalizing injectors with
  | nil => trivial
  | cons step rest ih =>
    intro i _
    refine ⟨?_, ih _⟩
    unfold perform
    rcases step.action with _ | _ <;> rfl

/-- The calls of a list of steps, without the registries they were made in. -/
def callsOf (steps : List ScenarioStep) : List (String × StepAction) :=
  steps.map fun step => (step.faultId, step.action)

/-- Which injectors were called, and how, in order. -/
def callLog (r : Runner I) : List (String × StepAction) :=
  r.calls.map fun c => (c.faultId, c.action)

theorem fireStep_of_lookup {r : Runner I} {step : ScenarioStep} {i : I}
    (h : r.injectors.lookup step.faultId = some i) :
    r.fireStep step =
      (.ofExcept (perform r.ctx step.action i).1, (r.call step.faultId step.action i).2) := by
  unfold fireStep; rw [h]; rfl

/-- Where every call succeeds, a play makes one call per step, in order. -/
theorem play_of_callsSucceed {steps : List ScenarioStep} {r : Runner I}
    (hreg : ∀ step ∈ steps, step.faultId ∈ r.injectors)
    (hok : CallsSucceed r.ctx r.injectors steps) :
    (r.play steps).1 = .ok () ∧ (r.play steps).2.callLog = r.callLog ++ callsOf steps := by
  induction steps generalizing r with
  | nil => simp [play, callsOf]
  | cons step rest ih =>
    obtain ⟨i, hi⟩ := Finmap.mem_iff.mp (hreg step List.mem_cons_self)
    obtain ⟨hcall, hrest⟩ := hok i hi
    have hf := fireStep_of_lookup hi
    rw [hcall] at hf
    rw [play_cons_ok hf]
    have hreg' : ∀ s ∈ rest, s.faultId ∈ (r.call step.faultId step.action i).2.injectors := by
      intro s hs
      exact Finmap.mem_insert.mpr (Or.inr (hreg s (List.mem_cons_of_mem step hs)))
    obtain ⟨h1, h2⟩ := ih hreg' hrest
    refine ⟨h1, ?_⟩
    rw [h2]
    simp [callLog, callsOf, call]

/-! ## What the calls make of each injector -/

/-- `arm` and `disarm` of an injector, in the order of a list of actions. -/
def calledWith (ctx : FaultContext) : List StepAction → I → I
  | [], injector => injector
  | .arm :: rest, injector => calledWith ctx rest (arm injector ctx).2
  | .disarm :: rest, injector => calledWith ctx rest (disarm injector).2

theorem calledWith_cons (ctx : FaultContext) (action : StepAction) (rest : List StepAction)
    (injector : I) :
    calledWith ctx (action :: rest) injector =
      calledWith ctx rest (perform ctx action injector).2 := by
  cases action <;> rfl

/-- A play that succeeds has called every injector with the actions of its own steps, in order,
and with nothing else. -/
theorem lookup_play {steps : List ScenarioStep} {r : Runner I} (h : (r.play steps).1 = .ok ())
    (id : String) :
    (r.play steps).2.injectors.lookup id =
      (r.injectors.lookup id).map (calledWith r.ctx (actionsOf steps id)) := by
  induction steps generalizing r with
  | nil =>
    show r.injectors.lookup id = _
    cases r.injectors.lookup id <;> rfl
  | cons step rest ih =>
    cases hi : r.injectors.lookup step.faultId with
    | none =>
      have hf : r.fireStep step = (.panic, r) := by
        unfold fireStep; rw [hi]
      rw [play_cons_panic hf] at h
      cases h
    | some i =>
      have hf := fireStep_of_lookup hi
      cases hp : (perform r.ctx step.action i).1 with
      | error e =>
        rw [hp] at hf
        rw [play_cons_err hf] at h
        cases h
      | ok u =>
        rw [hp] at hf
        rw [play_cons_ok hf] at h ⊢
        rw [ih h]
        show Option.map _ (Finmap.lookup id (r.injectors.insert step.faultId
          (perform r.ctx step.action i).2)) = _
        by_cases hid : id = step.faultId
        · rw [hid, Finmap.lookup_insert, hi, actionsOf_cons_self]
          exact congrArg some (calledWith_cons r.ctx _ _ i).symm
        · rw [Finmap.lookup_insert_of_ne _ hid, actionsOf_cons_of_ne hid]
          rfl

end Runner

end Blackswan.Replay
