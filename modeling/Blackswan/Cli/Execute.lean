import Blackswan.Cli.Build
import Blackswan.Replay.Teardown

/-!
# Executing a scenario from the command line

`executeScenario` is the path from a parsed config to the end of the run. On success the runner
goes out of scope and its `drop` disarms what is left; on an error `die` calls
`std::process::exit`, which runs no destructors.

1. `play_lookup` carries facts about single injectors through a run.
2. `armed_of_stopsAt` says which injectors a failing call leaves armed.
3. `cleansUp_iff` decides when every armed injector gets its `disarm` before the process ends.
-/

namespace Blackswan.Cli

open Lib (Endian Outcome)
open Replay
open FaultInjector (isArmed)

/-! ## The end of a scenario -/

/-- The three places where `execute_scenario` calls `die`, with the error it prints. -/
inductive DieCause where
  | invalidScenario (e : HarnessError)
  | settingUpRunner (e : HarnessError)
  | runFailed (e : HarnessError)
  deriving DecidableEq, Repr

/-- How `execute_scenario` ends. `stopped` is the runner when the run loop stopped, `dropped` the
same runner after its `drop`. -/
inductive ExecuteEnd (I : Type) where
  /-- `die` before there is a runner. -/
  | diedEarly (cause : DieCause)
  /-- `die` after the run: the process exits and nothing is dropped. -/
  | died (cause : DieCause) (stopped : Runner I)
  | returned (trace : Trace) (stopped dropped : Runner I)
  /-- A panic unwinds through the runner. -/
  | panicked (stopped dropped : Runner I)

/-- An iteration order for every map. -/
structure MapOrder (I : Type) where
  keys : Registry I → List String
  iterates : ∀ injectors, Iterates (keys injectors) injectors

variable {build : Build}

/-- What `execute_scenario` does with the result of the run and with the runner. -/
def finish {I : Type} [FaultInjector I] (order : MapOrder I) (e : Runner.RunEnd I) : ExecuteEnd I :=
  match e.outcome with
  | .ok trace => .returned trace e.runner (e.runner.drop (order.keys e.runner.injectors))
  | .err err => .died (.runFailed err) e.runner
  | .panic => .panicked e.runner (e.runner.drop (order.keys e.runner.injectors))

/-- `execute_scenario` after the config has been read, with fuel for the run loop. -/
def executeScenario (order : MapOrder (LiveInjector build)) (host : Endian)
    (envs : String → ℕ → CallEnv) (fuel : ℕ) (cfg : Config) (tickNs : UInt64) (realtime : Bool) :
    Option (ExecuteEnd (LiveInjector build)) :=
  let (scenario, injectors) := buildScenarioAndInjectors build host envs cfg
  match ValidatedSchedule.validate scenario with
  | .error e => some (.diedEarly (.invalidScenario e))
  | .ok schedule =>
    match Runner.new schedule injectors ⟨scenario.seed⟩ with
    | .error e => some (.diedEarly (.settingUpRunner e))
    | .ok runner =>
      let result :=
        if realtime then runner.runRealtime fuel tickNs else runner.run fuel tickNs
      result.map (finish order)

/-- Whatever was armed in `stopped` has had its `disarm` called since. -/
def DisarmedSince {I : Type} [FaultInjector I] (stopped atExit : Runner I) : Prop :=
  ∀ id, stopped.injectors.Armed id →
    ∃ c ∈ atExit.calls.drop stopped.calls.length, c.faultId = id ∧ c.action = .disarm

/-- Every injector that is armed when the run loop stops is disarmed before the process ends. -/
def ExecuteEnd.CleansUp {I : Type} [FaultInjector I] : ExecuteEnd I → Prop
  | .diedEarly _ => True
  | .died _ stopped => DisarmedSince stopped stopped
  | .returned _ stopped dropped => DisarmedSince stopped dropped
  | .panicked stopped dropped => DisarmedSince stopped dropped

section
variable {I : Type} [FaultInjector I] {r : Runner I}

theorem disarmedSince_drop {order : List String} (horder : Iterates order r.injectors) :
    DisarmedSince r (r.drop order) := by
  intro id harmed
  obtain ⟨disarms, h⟩ := Runner.exists_tornDown_drop horder
  obtain ⟨c, hc, rfl⟩ := List.mem_map.mp ((h.mem_iff_armed horder id).mpr harmed)
  refine ⟨c, ?_, rfl, (h.called c hc).1⟩
  rw [h.calls, List.drop_left]
  exact hc

theorem disarmedSince_self : DisarmedSince r r ↔ ∀ id, ¬ r.injectors.Armed id := by
  unfold DisarmedSince
  simp

/-! ## The first call that fails -/

/-- The calls of the steps before step `k` succeed and its own fails. -/
def FailsAt (r : Runner I) (k : ℕ) (step : ScenarioStep) : Prop :=
  r.schedule.steps[k]? = some step ∧
    ∃ before, r.play (r.schedule.steps.take k) = (.ok (), before) ∧
      ∃ err after, before.fireStep step = (.err err, after)

/-- A play that goes past a failing step does not succeed. -/
theorem FailsAt.play_ne_ok {k n : ℕ} {step : ScenarioStep} (h : FailsAt r k step) (hkn : k < n) :
    (r.play (r.schedule.steps.take n)).1 ≠ .ok () := by
  obtain ⟨hstep, before, hplay, err, after, hfire⟩ := h
  obtain ⟨hlt, hget⟩ := List.getElem?_eq_some_iff.mp hstep
  have hsplit : r.schedule.steps.take n =
      r.schedule.steps.take k ++ step :: (r.schedule.steps.take n).drop (k + 1) := by
    have htake : (r.schedule.steps.take n).take k = r.schedule.steps.take k := by
      rw [List.take_take, Nat.min_eq_left hkn.le]
    have hlen : k < (r.schedule.steps.take n).length := by
      rw [List.length_take]
      omega
    have hk : (r.schedule.steps.take n)[k] = step := by
      rw [List.getElem_take]
      exact hget
    rw [← htake, ← hk, List.getElem_cons_drop, List.take_append_drop]
  rw [hsplit, Runner.play_append_of_ok hplay, Runner.play_cons_err hfire]
  intro heq
  cases heq

theorem FailsAt.unique {k k' : ℕ} {step step' : ScenarioStep} (h : FailsAt r k step)
    (h' : FailsAt r k' step') : k = k' ∧ step = step' := by
  have hk : k = k' := by
    rcases Nat.lt_trichotomy k k' with hlt | heq | hgt
    · obtain ⟨-, before, hplay, -⟩ := h'
      exact absurd (congrArg Prod.fst hplay) (h.play_ne_ok hlt)
    · exact heq
    · obtain ⟨-, before, hplay, -⟩ := h
      exact absurd (congrArg Prod.fst hplay) (h'.play_ne_ok hgt)
  subst hk
  exact ⟨rfl, Option.some.inj (h.1.symm.trans h'.1)⟩

theorem failsAt_of_stopsAt {j : ℕ} {step : ScenarioStep} {i : I} {before : Runner I}
    {err : HarnessError} (h : Runner.StopsAt r.schedule j step i before err)
    (hplay : r.play (r.schedule.steps.take j) = (.ok (), before)) : FailsAt r j step := by
  have hfire := Runner.fireStep_of_lookup h.lookup
  rw [h.failed] at hfire
  exact ⟨h.reached, before, hplay, err, _, hfire⟩

/-- **A fact about single injectors** that every call keeps holds throughout a play. -/
theorem play_lookup (P : String → I → Prop)
    (hcall : ∀ id i ctx action, P id i → P id (Runner.perform ctx action i).2)
    {steps : List ScenarioStep} (h : ∀ id i, r.injectors.lookup id = some i → P id i) :
    ∀ id i, (r.play steps).2.injectors.lookup id = some i → P id i := by
  induction steps generalizing r with
  | nil => exact h
  | cons step rest ih =>
    rcases hi : r.injectors.lookup step.faultId with _ | i
    · have hfire : r.fireStep step = (.panic, r) := by rw [Runner.fireStep, hi]
      rw [Runner.play_cons_panic hfire]
      exact h
    · have hfire := Runner.fireStep_of_lookup hi
      have hafter : ∀ id i', (r.call step.faultId step.action i).2.injectors.lookup id = some i' →
          P id i' := by
        intro id i' hi'
        by_cases hid : id = step.faultId
        · subst hid
          rw [show (r.call step.faultId step.action i).2.injectors.lookup step.faultId =
            some (Runner.perform r.ctx step.action i).2 from Finmap.lookup_insert _] at hi'
          cases hi'
          exact hcall _ i r.ctx step.action (h _ i hi)
        · exact h id i' ((Finmap.lookup_insert_of_ne _ hid).symm.trans hi')
      rcases hres : (Runner.perform r.ctx step.action i).1 with e | ⟨⟩ <;> rw [hres] at hfire
      · rw [Runner.play_cons_err hfire]
        exact hafter
      · rw [Runner.play_cons_ok hfire]
        exact ih hafter

end

/-! ## What a failing call leaves armed -/

section
variable {host : Endian} {envs : String → ℕ → CallEnv} {cfg : Config}

/-- The config entry of this fault is a clock skew. -/
def Config.IsTimeSkew (cfg : Config) (id : String) : Prop :=
  ∃ argv monotonicOffsetSecs boottimeOffsetSecs,
    cfg.injectors.lookup id = some (.timeSkew argv monotonicOffsetSecs boottimeOffsetSecs)

theorem isTimeSkew_perform (ctx : FaultContext) (action : StepAction) (i : LiveInjector build) :
    (Runner.perform ctx action i).2.injector.IsTimeSkew ↔ i.injector.IsTimeSkew := by
  rcases action with _ | _
  · exact i.injector.isTimeSkew_arm i.host (i.env 0)
  · exact i.injector.isTimeSkew_disarm i.host (i.env 0)

/-- A registered injector is a clock skew exactly if its entry is, at first and later on. -/
theorem isTimeSkew_of_play {schedule : ValidatedSchedule} {ctx : FaultContext}
    {steps : List ScenarioStep} {id : String} {i : LiveInjector build}
    (hi : (Runner.play steps
      ⟨schedule, buildInjectors build host envs cfg, ctx, []⟩).2.injectors.lookup id = some i) :
    i.injector.IsTimeSkew ↔ cfg.IsTimeSkew id := by
  refine play_lookup (fun id (i : LiveInjector build) => i.injector.IsTimeSkew ↔ cfg.IsTimeSkew id)
    (fun id i ctx action h => (isTimeSkew_perform ctx action i).trans h) ?_ id i hi
  intro id i hi
  rw [lookup_buildInjectors, Option.map_eq_some_iff] at hi
  obtain ⟨ic, hic, rfl⟩ := hi
  rw [Injector.isTimeSkew_buildInjector, Config.IsTimeSkew, hic]
  simp

theorem not_armed_buildInjectors (id : String) :
    ¬ (buildInjectors build host envs cfg).Armed id := by
  rintro ⟨i, hi, harmed⟩
  rw [lookup_buildInjectors, Option.map_eq_some_iff] at hi
  obtain ⟨ic, -, rfl⟩ := hi
  exact absurd harmed (by simp [isArmed, Injector.isArmed_buildInjector])

/-- **After a failing call** the faults armed by the executed steps are armed, except for a clock
skew whose own `disarm` failed. -/
theorem armed_of_stopsAt {schedule : ValidatedSchedule} {j : ℕ} {step : ScenarioStep}
    {i : LiveInjector build} {before : Runner (LiveInjector build)} {err : HarnessError}
    (h : Runner.StopsAt schedule j step i before err)
    (hskew : i.injector.IsTimeSkew ↔ cfg.IsTimeSkew step.faultId) (id : String) :
    (before.call step.faultId step.action i).2.injectors.Armed id ↔
      ArmedBy (schedule.steps.take j) id ∧ ¬ (id = step.faultId ∧ cfg.IsTimeSkew id) := by
  show Registry.Armed (before.injectors.insert _ _) id ↔ _
  rw [Registry.armed_insert]
  by_cases hid : id = step.faultId
  · subst hid
    rw [if_pos rfl, schedule.armedBy_take_iff h.reached]
    have harmed : isArmed i = true ↔ step.action = .disarm := by
      rw [← schedule.armedBy_take_iff h.reached, ← h.executed.armed]
      simp [Registry.Armed, h.lookup]
    have hfailed := h.failed
    rcases haction : step.action with _ | _ <;> rw [haction] at hfailed harmed
    · -- a failing `arm` of an injector that was not armed
      rcases i.injector.armed_arm i.host (i.env 0) with ⟨hok, -⟩ | ⟨e, -, hsame⟩
      · exact absurd (hok.symm.trans hfailed) (by simp)
      · have hsame' : isArmed (Runner.perform before.ctx .arm i).2 = isArmed i := hsame
        simp [hsame', harmed]
    · rcases i.injector.armed_disarm i.host (i.env 0) with ⟨hok, -⟩ | ⟨e, -, hleft⟩
      · exact absurd (hok.symm.trans hfailed) (by simp)
      · have hleft' : isArmed (Runner.perform before.ctx .disarm i).2 = true ↔
            isArmed i = true ∧ ¬ i.injector.IsTimeSkew := hleft
        simp [hleft', harmed, hskew]
  · rw [if_neg hid, h.executed.armed]
    simp [hid]

end

/-- Once there is a runner, `execute_scenario` ends as its run does. -/
theorem exists_run_of_executeScenario {order : MapOrder (LiveInjector build)} {host : Endian}
    {envs : String → ℕ → CallEnv} {fuel : ℕ} {cfg : Config} {tickNs : UInt64} {realtime : Bool}
    {schedule : ValidatedSchedule} {r : Runner (LiveInjector build)}
    {e : ExecuteEnd (LiveInjector build)}
    (hvalid : ValidatedSchedule.validate ⟨cfg.name, cfg.seed, cfg.schedule⟩ = .ok schedule)
    (hnew : Runner.new schedule (buildInjectors build host envs cfg) ⟨cfg.seed⟩ = .ok r)
    (hend : executeScenario order host envs fuel cfg tickNs realtime = some e) :
    ∃ run, r.runInner fuel tickNs realtime = some run ∧ e = finish order run := by
  simp only [executeScenario, buildScenarioAndInjectors, hvalid, hnew] at hend
  obtain ⟨run, hrun, rfl⟩ := Option.map_eq_some_iff.mp hend
  refine ⟨run, ?_, rfl⟩
  rcases realtime with _ | _ <;> exact hrun

/-- A run that succeeds is followed by the drop of its runner. -/
theorem cleansUp_of_ok {I : Type} [FaultInjector I] (order : MapOrder I) {run : Runner.RunEnd I}
    {trace : Trace} (h : run.outcome = .ok trace) : (finish order run).CleansUp := by
  rw [finish, h]
  exact disarmedSince_drop (order.iterates _)

/-- A run that fails is followed by nothing. -/
theorem cleansUp_iff_of_err {I : Type} [FaultInjector I] (order : MapOrder I)
    {run : Runner.RunEnd I} {err : HarnessError} (h : run.outcome = .err err) :
    (finish order run).CleansUp ↔ ∀ id, ¬ run.runner.injectors.Armed id := by
  rw [finish, h]
  exact disarmedSince_self

/-- **When the command line cleans up.** However `execute_scenario` ends once it has a runner,
every injector that is armed when the run loop stops gets its `disarm` before the process ends if
and only if the first call that fails, should there be one, finds nothing armed but the fault it is
on, which is a clock skew. -/
theorem cleansUp_iff (order : MapOrder (LiveInjector build)) (host : Endian)
    (envs : String → ℕ → CallEnv) (fuel : ℕ) (cfg : Config) (tickNs : UInt64) (realtime : Bool)
    {schedule : ValidatedSchedule} {r : Runner (LiveInjector build)}
    {e : ExecuteEnd (LiveInjector build)}
    (hvalid : ValidatedSchedule.validate ⟨cfg.name, cfg.seed, cfg.schedule⟩ = .ok schedule)
    (hnew : Runner.new schedule (buildInjectors build host envs cfg) ⟨cfg.seed⟩ = .ok r)
    (hend : executeScenario order host envs fuel cfg tickNs realtime = some e) :
    e.CleansUp ↔
      ∀ k step, FailsAt r k step → ∀ id, ArmedBy (cfg.schedule.take k) id →
        id = step.faultId ∧ cfg.IsTimeSkew id := by
  have hscenario := ValidatedSchedule.scenario_of_validate hvalid
  have hsteps : schedule.steps = cfg.schedule := by rw [ValidatedSchedule.steps, hscenario]
  obtain ⟨run, hrun, rfl⟩ := exists_run_of_executeScenario hvalid hnew hend
  obtain ⟨hreg, rfl⟩ := Runner.new_ok_iff.mp hnew
  rcases Runner.run_cases (Runner.executed_zero hreg not_armed_buildInjectors) hrun with
    ⟨trace, ho, -⟩ | ⟨j, step, i, before, err, hstop, ho, hr, hbefore⟩
  · -- the run succeeded, so no step failed
    refine ⟨fun _ k step hk => ?_, fun _ => cleansUp_of_ok order ho⟩
    have hplayed := (Runner.play_of_runInner hrun).outcome
    rw [ho, Outcome.map_ok] at hplayed
    have hlt := (List.getElem?_eq_some_iff.mp hk.1).1
    refine absurd ?_ (hk.play_ne_ok hlt)
    rw [List.take_length]
    exact hplayed.symm
  · have hfails := failsAt_of_stopsAt hstop hbefore
    have hskew : i.injector.IsTimeSkew ↔ cfg.IsTimeSkew step.faultId := by
      have hlookup := hstop.lookup
      rw [show before = _ from (congrArg Prod.snd hbefore).symm] at hlookup
      exact isTimeSkew_of_play hlookup
    rw [cleansUp_iff_of_err order ho, hr]
    constructor
    · intro hnone k step' hk id harmed
      obtain ⟨rfl, rfl⟩ := hfails.unique hk
      by_contra hleft
      exact hnone id ((armed_of_stopsAt hstop hskew id).mpr ⟨hsteps ▸ harmed, hleft⟩)
    · intro hcond id harmed
      obtain ⟨harmed, hleft⟩ := (armed_of_stopsAt hstop hskew id).mp harmed
      exact hleft (hcond j step hfails id (hsteps ▸ harmed))

/-! ## Two scenarios -/

/-- A host where everything works and no process exits on its own. -/
def CallEnv.clear : CallEnv where
  xdp := ⟨.ok (), fun _ => some (.ok ()), .ok (), fun _ => .ok (), fun _ => .ok⟩
  cgroup := ⟨fun _ => true, .ok "", fun _ => true, fun _ => .ok (), fun _ _ => .ok ()⟩
  timeSkew := ⟨fun _ => .ok ⟨1⟩, fun _ => .ok false, fun _ => .ok ()⟩
  fix := ⟨fun _ => .ok ()⟩

/-- An iteration order, by choice. -/
noncomputable def MapOrder.some {I : Type} : MapOrder I where
  keys injectors := (exists_iterates injectors).choose
  iterates injectors := (exists_iterates injectors).choose_spec

/-- One fault that is armed and never disarmed by the schedule. -/
def armOnly : Config where
  name := "arm-only"
  seed := 1
  injectors := ⟨[⟨"reject", .fixSilentReject "127.0.0.1:1" "127.0.0.1:2"⟩], by simp⟩
  schedule := [⟨0, "reject", .arm⟩]

/-- The same fault, and then one that cannot be armed because it has no command to launch. -/
def armThenFail : Config where
  name := "arm-then-fail"
  seed := 1
  injectors := ⟨[⟨"reject", .fixSilentReject "127.0.0.1:1" "127.0.0.1:2"⟩,
    ⟨"skew", .timeSkew [] 0 0⟩], by simp⟩
  schedule := [⟨0, "reject", .arm⟩, ⟨0, "skew", .arm⟩]

theorem cleansUp_armOnly :
    ∃ e, executeScenario (MapOrder.some : MapOrder (LiveInjector .release)) .little
      (fun _ _ => .clear) 2 armOnly 1 false = some e ∧ e.CleansUp := by
  refine ⟨_, rfl, ?_⟩
  have hvalid : ValidatedSchedule.validate ⟨armOnly.name, armOnly.seed, armOnly.schedule⟩ = _ :=
    ValidatedSchedule.validate_of_check (by decide)
  have hnew : Runner.new ⟨⟨armOnly.name, armOnly.seed, armOnly.schedule⟩, by decide⟩
      (buildInjectors .release .little (fun _ _ => .clear) armOnly) ⟨armOnly.seed⟩ = .ok _ := rfl
  refine (cleansUp_iff MapOrder.some .little (fun _ _ => .clear) 2 armOnly 1 false hvalid hnew
    rfl).mpr ?_
  intro k step hfails id harmed
  rcases k with _ | k
  · exact absurd harmed (not_armedBy_nil id)
  · cases hfails.1

/-- The second `arm` fails and the process exits with the first fault still armed. -/
theorem died_while_armed :
    ∃ err stopped, executeScenario (MapOrder.some : MapOrder (LiveInjector .release)) .little
        (fun _ _ => .clear) 2 armThenFail 1 false = some (.died (.runFailed err) stopped) ∧
      stopped.injectors.Armed "reject" ∧
      ¬ (ExecuteEnd.died (.runFailed err) stopped).CleansUp := by
  have harmed : ∀ stopped : Runner (LiveInjector .release), stopped.injectors.Armed "reject" →
      ¬ DisarmedSince stopped stopped := fun stopped h hclean => disarmedSince_self.mp hclean _ h
  refine ⟨_, _, rfl, ⟨_, rfl, rfl⟩, harmed _ ⟨_, rfl, rfl⟩⟩

end Blackswan.Cli
