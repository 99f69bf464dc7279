import Blackswan.Cli.Execute

/-!
# The command line

`blackswan run` executes a scenario in real time and may save the trace; `blackswan replay` loads a
saved trace, executes a scenario at full speed and compares. `main` is both, over a file system that
outlives the process, so that the two can be put together. Only the files that `main` itself opens
are in it.

What a process meets is an `Invocation`: the host, the answers to its calls, and the results of its
file operations. The libraries behind the two file formats are taken as `Formats`, of which only one
law is used: a trace that was written is read back.

1. `steps_of_returned`: what a run that returned has recorded is the schedule of its config.
2. `replay_exit`: what `replay` answers, given what it loaded.
3. `replay_after_run` and `main_leaves`: the two commands together, and what a process leaves.
-/

namespace Blackswan.Cli

open Lib (Endian Outcome)
open Replay

abbrev PathBuf := String

/-! ## Files -/

/-- The files that `main` opens itself, with their contents: the configs and the traces. What the
injectors write elsewhere, such as the control files of a cgroup, is not among them. -/
abbrev Files (Text : Type) := PathBuf → Option Text

/-- `toml` and `serde_json`, as far as they are used. -/
structure Formats (Text : Type) where
  /-- `toml::from_str::<Config>`. -/
  fromToml : Text → Except String Config
  /-- `serde_json::to_string_pretty::<Trace>`. -/
  toJson : Trace → Except String Text
  /-- `serde_json::from_slice::<Trace>`. -/
  fromJson : Text → Except String Trace
  round_trip : ∀ trace json, toJson trace = .ok json → fromJson json = .ok trace

/-- How the file operations of one process end. A `write_all` that fails leaves something behind
in the file that `File::create` truncated. -/
structure FileIo (Text : Type) where
  readError : PathBuf → Option String
  create : PathBuf → Except String Unit
  writeAll : PathBuf → Text → Except (String × Text) Unit

variable {Text : Type}

/-- `std::fs::read` and `std::fs::read_to_string`. -/
def FileIo.read (io : FileIo Text) (files : Files Text) (path : PathBuf) : Except String Text :=
  match io.readError path with
  | some reason => .error reason
  | none =>
    match files path with
    | none => .error "No such file or directory (os error 2)"
    | some text => .ok text

/-- `Trace::save`. -/
def saveTrace (formats : Formats Text) (io : FileIo Text) (files : Files Text) (trace : Trace)
    (path : PathBuf) : Except HarnessError Unit × Files Text :=
  match formats.toJson trace with
  | .error reason => (.error (.invalidScenario reason), files)
  | .ok json =>
    match io.create path with
    | .error reason => (.error (.io reason), files)
    | .ok () =>
      match io.writeAll path json with
      | .error (reason, left) => (.error (.io reason), Function.update files path (some left))
      | .ok () => (.ok (), Function.update files path (some json))

/-- `Trace::load`. -/
def loadTrace (formats : Formats Text) (io : FileIo Text) (files : Files Text) (path : PathBuf) :
    Except HarnessError Trace :=
  match io.read files path with
  | .error reason => .error (.io reason)
  | .ok bytes =>
    match formats.fromJson bytes with
    | .error reason => .error (.invalidScenario reason)
    | .ok trace => .ok trace

/-! ## The command -/

inductive Command where
  | run (config : PathBuf) (tickNs : UInt64) (traceOut : Option PathBuf)
  | replay (config : PathBuf) (tickNs : UInt64) (against : PathBuf)
  deriving DecidableEq, Repr

/-- The calls of `die`, with what they print. -/
inductive Death where
  | reading (path : PathBuf) (reason : String)
  | parsing (path : PathBuf) (reason : String)
  | executing (cause : DieCause)
  | savingTrace (e : HarnessError)
  | loadingBaseline (against : PathBuf) (e : HarnessError)
  | mismatch (against : PathBuf)
  deriving DecidableEq, Repr

inductive Exit where
  | success
  /-- `die`: a line on the standard error, and exit code 1. -/
  | died (death : Death)
  | panicked
  deriving DecidableEq, Repr

/-- `load_config`. -/
def loadConfig (formats : Formats Text) (io : FileIo Text) (files : Files Text) (path : PathBuf) :
    Except Death Config :=
  match io.read files path with
  | .error reason => .error (.reading path reason)
  | .ok text =>
    match formats.fromToml text with
    | .error reason => .error (.parsing path reason)
    | .ok cfg => .ok cfg

def actionName : StepAction → String
  | .arm => "Arm"
  | .disarm => "Disarm"

/-- The format specification `:>n`. -/
def alignRight (n : ℕ) (text : String) : String := "".pushn ' ' (n - text.length) ++ text

/-- The format specification `:<n`. -/
def alignLeft (n : ℕ) (text : String) : String := text.pushn ' ' (n - text.length)

/-- `print_trace_summary`, line by line. -/
def traceSummary (trace : Trace) : List String :=
  s!"scenario: {trace.scenarioName} (seed {trace.seed})" ::
    trace.events.map fun event =>
      "  " ++ alignRight 14 (toString event.step.atNs) ++ " ns  " ++
        alignLeft 20 event.step.faultId ++ " " ++ actionName event.step.action

/-- What one process meets. -/
structure Invocation (build : Build) (Text : Type) where
  order : MapOrder (LiveInjector build)
  host : Endian
  envs : String → ℕ → CallEnv
  io : FileIo Text

variable {build : Build}

/-- How a process ends: what it printed, its exit, the files it leaves, and how the scenario ended
if it came to execute one. -/
structure MainEnd (build : Build) (Text : Type) where
  stdout : List String
  exit : Exit
  files : Files Text
  executed : Option (ExecuteEnd (LiveInjector build))

/-- The end of a process that does not get past `execute_scenario`. -/
def ExecuteEnd.exit {I : Type} : ExecuteEnd I → Exit
  | .diedEarly cause => .died (.executing cause)
  | .died cause _ => .died (.executing cause)
  | .returned _ _ _ => .success
  | .panicked _ _ => .panicked

/-- What `main` does with the result of `execute_scenario`. -/
def conclude (files : Files Text) (onTrace : Trace → List String × Exit × Files Text)
    (executed : ExecuteEnd (LiveInjector build)) : MainEnd build Text :=
  match executed with
  | .returned trace _ _ =>
    let (lines, exit, files) := onTrace trace
    ⟨traceSummary trace ++ lines, exit, files, some executed⟩
  | _ => ⟨[], executed.exit, files, some executed⟩

/-- `main` once the arguments are parsed, with fuel for the run loop. -/
def main (formats : Formats Text) (inv : Invocation build Text) (fuel : ℕ) (files : Files Text) :
    Command → Option (MainEnd build Text)
  | .run config tickNs traceOut =>
    match loadConfig formats inv.io files config with
    | .error death => some ⟨[], .died death, files, none⟩
    | .ok cfg =>
      (executeScenario inv.order inv.host inv.envs fuel cfg tickNs true).map <|
        conclude files fun trace =>
          match traceOut with
          | none => ([], .success, files)
          | some out =>
            match saveTrace formats inv.io files trace out with
            | (.error e, files') => ([], .died (.savingTrace e), files')
            | (.ok (), files') => ([s!"trace saved to {out}"], .success, files')
  | .replay config tickNs against =>
    match loadTrace formats inv.io files against with
    | .error e => some ⟨[], .died (.loadingBaseline against e), files, none⟩
    | .ok baseline =>
      match loadConfig formats inv.io files config with
      | .error death => some ⟨[], .died death, files, none⟩
      | .ok cfg =>
        (executeScenario inv.order inv.host inv.envs fuel cfg tickNs false).map <|
          conclude files fun trace =>
            if trace.matchesSchedule baseline then
              ([s!"MATCH: this run reproduces {against}"], .success, files)
            else ([], .died (.mismatch against), files)

/-! ## What a run that returned has recorded -/

section
variable {order : MapOrder (LiveInjector build)} {host : Endian} {envs : String → ℕ → CallEnv}
  {fuel : ℕ} {cfg : Config} {tickNs : UInt64} {realtime : Bool}

/-- `execute_scenario` dies before there is a runner, or ends as the run of its runner does. -/
theorem executeScenario_cases {e : ExecuteEnd (LiveInjector build)}
    (h : executeScenario order host envs fuel cfg tickNs realtime = some e) :
    (∃ cause, e = .diedEarly cause) ∨
      ∃ schedule run, schedule.scenario = ⟨cfg.name, cfg.seed, cfg.schedule⟩ ∧
        Runner.runInner fuel tickNs realtime
          ⟨schedule, buildInjectors build host envs cfg, ⟨cfg.seed⟩, []⟩ = some run ∧
        e = finish order run := by
  cases hvalid : ValidatedSchedule.validate ⟨cfg.name, cfg.seed, cfg.schedule⟩ with
  | error err =>
    simp only [executeScenario, buildScenarioAndInjectors, hvalid] at h
    exact Or.inl ⟨_, (Option.some.inj h).symm⟩
  | ok schedule =>
    cases hnew : Runner.new schedule (buildInjectors build host envs cfg) ⟨cfg.seed⟩ with
    | error err =>
      simp only [executeScenario, buildScenarioAndInjectors, hvalid, hnew] at h
      exact Or.inl ⟨_, (Option.some.inj h).symm⟩
    | ok r =>
      obtain ⟨run, hrun, he⟩ := exists_run_of_executeScenario hvalid hnew h
      obtain ⟨-, rfl⟩ := Runner.new_ok_iff.mp hnew
      exact Or.inr ⟨schedule, run, ValidatedSchedule.scenario_of_validate hvalid, hrun, he⟩

/-- **A run that returned** has recorded the schedule of its config, whatever the tick size, the
host and the injectors. -/
theorem steps_of_returned {trace : Trace} {stopped dropped : Runner (LiveInjector build)}
    (h : executeScenario order host envs fuel cfg tickNs realtime =
      some (.returned trace stopped dropped)) :
    trace.scenarioName = cfg.name ∧ trace.seed = cfg.seed ∧ trace.steps = cfg.schedule := by
  rcases executeScenario_cases h with ⟨cause, he⟩ | ⟨schedule, run, hscenario, hrun, he⟩
  · cases he
  · have houtcome : run.outcome = .ok trace := by
      unfold finish at he
      cases ho : run.outcome with
      | ok trace' =>
        rw [ho] at he
        cases he
        rfl
      | err err =>
        rw [ho] at he
        cases he
      | panic =>
        rw [ho] at he
        cases he
    obtain ⟨hname, hseed, hsteps⟩ := (Runner.play_of_runInner hrun).trace trace houtcome
    simp only [ValidatedSchedule.name, ValidatedSchedule.seed, ValidatedSchedule.steps,
      hscenario] at hname hseed hsteps
    exact ⟨hname, hseed, hsteps⟩

/-- However the scenario ended, other than by a failing call, what was armed has been disarmed. -/
theorem cleansUp_of_executeScenario {e : ExecuteEnd (LiveInjector build)}
    (h : executeScenario order host envs fuel cfg tickNs realtime = some e)
    (hfailed : ∀ err, e.exit ≠ .died (.executing (.runFailed err))) : e.CleansUp := by
  rcases executeScenario_cases h with ⟨cause, rfl⟩ | ⟨schedule, run, -, -, rfl⟩
  · trivial
  · unfold finish at hfailed ⊢
    cases ho : run.outcome with
    | ok trace => exact disarmedSince_drop (order.iterates _)
    | err err =>
      rw [ho] at hfailed
      exact absurd rfl (hfailed err)
    | panic => exact disarmedSince_drop (order.iterates _)

end

/-! ## Saving and loading -/

section
variable {formats : Formats Text} {io io' : FileIo Text} {files files' : Files Text}
  {trace : Trace} {path : PathBuf}

/-- A trace that was saved is what the file holds. -/
theorem saveTrace_ok (h : saveTrace formats io files trace path = (.ok (), files')) :
    ∃ json, formats.toJson trace = .ok json ∧ files' = Function.update files path (some json) := by
  unfold saveTrace at h
  cases hjson : formats.toJson trace with
  | error reason =>
    rw [hjson] at h
    cases h
  | ok json =>
    simp only [hjson] at h
    refine ⟨json, rfl, ?_⟩
    split at h
    · cases h
    · split at h
      · cases h
      · cases h
        rfl

/-- Saving touches one file. -/
theorem saveTrace_frame (formats : Formats Text) (io : FileIo Text) (files : Files Text)
    (trace : Trace) (path other : PathBuf) (hother : other ≠ path) :
    (saveTrace formats io files trace path).2 other = files other := by
  unfold saveTrace
  repeat' split
  all_goals first | rfl | exact Function.update_of_ne hother _ _

/-- **The round trip of a trace through the file system.** -/
theorem loadTrace_of_saved (h : saveTrace formats io files trace path = (.ok (), files'))
    {later : Files Text} (hsame : later path = files' path) (hread : io'.readError path = none) :
    loadTrace formats io' later path = .ok trace := by
  obtain ⟨json, hjson, rfl⟩ := saveTrace_ok h
  rw [Function.update_self] at hsame
  simp only [loadTrace, FileIo.read, hread, hsame, formats.round_trip trace json hjson]

end

/-! ## The two commands -/

section
variable {formats : Formats Text} {inv inv' : Invocation build Text} {fuel fuel' : ℕ}
  {files files' : Files Text} {config config' out against : PathBuf} {tickNs tickNs' : UInt64}
  {cfg cfg' : Config} {e : MainEnd build Text}

/-- What `replay` answers depends on what it loaded, and on nothing that happened in its run. -/
theorem replay_exit {baseline trace : Trace} {stopped dropped : Runner (LiveInjector build)}
    (hload : loadTrace formats inv.io files against = .ok baseline)
    (hcfg : loadConfig formats inv.io files config = .ok cfg)
    (hexec : executeScenario inv.order inv.host inv.envs fuel cfg tickNs false =
      some (.returned trace stopped dropped)) :
    ∃ e, main formats inv fuel files (.replay config tickNs against) = some e ∧
      e.files = files ∧
      e.exit = if baseline.seed = cfg.seed ∧ baseline.steps = cfg.schedule then .success
        else .died (.mismatch against) := by
  obtain ⟨-, hseed, hsteps⟩ := steps_of_returned hexec
  simp only [main, hload, hcfg, hexec, Option.map_some, conclude]
  refine ⟨_, rfl, ?_⟩
  by_cases hmatch : trace.matchesSchedule baseline = true
  · have hsame := (Trace.matchesSchedule_iff trace baseline).mp hmatch
    rw [hseed, hsteps] at hsame
    rw [if_pos hmatch, if_pos ⟨hsame.1.symm, hsame.2.symm⟩]
    exact ⟨rfl, rfl⟩
  · have hdiffer := mt (Trace.matchesSchedule_iff trace baseline).mpr hmatch
    rw [hseed, hsteps] at hdiffer
    rw [if_neg hmatch, if_neg fun h => hdiffer ⟨h.1.symm, h.2.symm⟩]
    exact ⟨rfl, rfl⟩

/-- A `run` that succeeds has saved the trace of a run that returned. -/
theorem saved_of_run (hcfg : loadConfig formats inv.io files config = .ok cfg)
    (hrun : main formats inv fuel files (.run config tickNs (some out)) = some e)
    (hexit : e.exit = .success) :
    ∃ trace, trace.seed = cfg.seed ∧ trace.steps = cfg.schedule ∧
      saveTrace formats inv.io files trace out = (.ok (), e.files) := by
  simp only [main, hcfg] at hrun
  obtain ⟨executed, hexec, rfl⟩ := Option.map_eq_some_iff.mp hrun
  cases executed with
  | diedEarly cause => cases hexit
  | died cause stopped => cases hexit
  | panicked stopped dropped => cases hexit
  | returned trace stopped dropped =>
    obtain ⟨-, hseed, hsteps⟩ := steps_of_returned hexec
    refine ⟨trace, hseed, hsteps, ?_⟩
    simp only [conclude] at hexit ⊢
    rcases hsave : saveTrace formats inv.io files trace out with ⟨err | ⟨⟩, files'⟩
    · rw [hsave] at hexit
      cases hexit
    · rfl

/-- **A replay of a run.** After `blackswan run --trace-out` has succeeded, and as long as the trace
file is as it was left, `blackswan replay` against it with any config, tick size and host, once its
own run returns, finds a match exactly if the two configs have the same seed and schedule. It
writes no file itself. -/
theorem replay_after_run {trace : Trace} {stopped dropped : Runner (LiveInjector build)}
    (hcfg : loadConfig formats inv.io files config = .ok cfg)
    (hrun : main formats inv fuel files (.run config tickNs (some out)) = some e)
    (hexit : e.exit = .success) (hsame : files' out = e.files out)
    (hread : inv'.io.readError out = none)
    (hcfg' : loadConfig formats inv'.io files' config' = .ok cfg')
    (hexec : executeScenario inv'.order inv'.host inv'.envs fuel' cfg' tickNs' false =
      some (.returned trace stopped dropped)) :
    ∃ e', main formats inv' fuel' files' (.replay config' tickNs' out) = some e' ∧
      e'.files = files' ∧
      e'.exit = if cfg.seed = cfg'.seed ∧ cfg.schedule = cfg'.schedule then .success
        else .died (.mismatch out) := by
  obtain ⟨saved, hseed, hsteps, hsave⟩ := saved_of_run hcfg hrun hexit
  have hload := loadTrace_of_saved hsave hsame hread
  have hreplay := replay_exit hload hcfg' hexec
  rwa [hseed, hsteps] at hreplay

/-- A process ends before it executes anything, with the files as they are, or it concludes an
execution, and then only the trace file of a `run` may change. -/
theorem main_cases {cmd : Command} (h : main formats inv fuel files cmd = some e) :
    (e.executed = none ∧ e.files = files ∧ ∃ death, e.exit = .died death) ∨
      ∃ cfg tickNs realtime executed onTrace,
        executeScenario inv.order inv.host inv.envs fuel cfg tickNs realtime = some executed ∧
        e = conclude files onTrace executed ∧
        ∀ trace path, (onTrace trace).2.2 path ≠ files path →
          ∃ config tickNs, cmd = .run config tickNs (some path) := by
  cases cmd with
  | run config tickNs traceOut =>
    cases hcfg : loadConfig formats inv.io files config with
    | error death =>
      simp only [main, hcfg] at h
      cases h
      exact Or.inl ⟨rfl, rfl, death, rfl⟩
    | ok cfg =>
      simp only [main, hcfg] at h
      obtain ⟨executed, hexec, he⟩ := Option.map_eq_some_iff.mp h
      refine Or.inr ⟨cfg, tickNs, true, executed, _, hexec, he.symm, ?_⟩
      intro trace path hpath
      cases traceOut with
      | none => exact absurd rfl hpath
      | some out =>
        by_cases hout : path = out
        · exact ⟨config, tickNs, by rw [hout]⟩
        · have hsame := saveTrace_frame formats inv.io files trace out path hout
          dsimp only at hpath
          rcases hsave : saveTrace formats inv.io files trace out with ⟨err | ⟨⟩, files'⟩ <;>
            rw [hsave] at hpath hsame <;> exact absurd hsame hpath
  | replay config tickNs against =>
    cases hload : loadTrace formats inv.io files against with
    | error err =>
      simp only [main, hload] at h
      cases h
      exact Or.inl ⟨rfl, rfl, _, rfl⟩
    | ok baseline =>
      cases hcfg : loadConfig formats inv.io files config with
      | error death =>
        simp only [main, hload, hcfg] at h
        cases h
        exact Or.inl ⟨rfl, rfl, death, rfl⟩
      | ok cfg =>
        simp only [main, hload, hcfg] at h
        obtain ⟨executed, hexec, he⟩ := Option.map_eq_some_iff.mp h
        refine Or.inr ⟨cfg, tickNs, false, executed, _, hexec, he.symm, ?_⟩
        intro trace path hpath
        split_ifs at hpath <;> exact absurd rfl hpath

/-- **What a process leaves behind.** Of the files that `main` opens it changes none but the one
that `run` saves its trace in, and that one only after the run has returned. It exits with success
only after such a run. And unless it exits because a call failed in the run, every injector that
was armed when the run loop stopped has been disarmed by then, also on a mismatch or when saving
fails. -/
theorem main_leaves {cmd : Command} (h : main formats inv fuel files cmd = some e) :
    (∀ path, e.files path ≠ files path → ∃ config tickNs trace stopped dropped,
      cmd = .run config tickNs (some path) ∧ e.executed = some (.returned trace stopped dropped)) ∧
    (e.exit = .success → ∃ trace stopped dropped,
      e.executed = some (.returned trace stopped dropped)) ∧
    ((∀ err, e.exit ≠ .died (.executing (.runFailed err))) →
      ∀ executed, e.executed = some executed → executed.CleansUp) := by
  rcases main_cases h with ⟨hnone, hfiles, death, hexit⟩ |
    ⟨cfg, tickNs, realtime, executed, onTrace, hexec, rfl, hframe⟩
  · refine ⟨fun path hpath => ?_, fun hsuccess => ?_, fun _ executed hsome => ?_⟩
    · rw [hfiles] at hpath
      exact absurd rfl hpath
    · rw [hexit] at hsuccess
      cases hsuccess
    · rw [hnone] at hsome
      cases hsome
  · have hclean := cleansUp_of_executeScenario hexec
    cases executed with
    | returned trace stopped dropped =>
      refine ⟨fun path hpath => ?_, fun _ => ⟨trace, stopped, dropped, rfl⟩, fun _ _ hsome => ?_⟩
      · obtain ⟨config, tickNs, rfl⟩ := hframe trace path hpath
        exact ⟨config, tickNs, trace, stopped, dropped, rfl, rfl⟩
      · cases hsome
        exact hclean fun err hne => by cases hne
    | diedEarly cause =>
      refine ⟨fun path hpath => absurd rfl hpath, fun hsuccess => (by cases hsuccess), ?_⟩
      intro _ _ hsome
      cases hsome
      trivial
    | died cause stopped =>
      refine ⟨fun path hpath => absurd rfl hpath, fun hsuccess => (by cases hsuccess), ?_⟩
      intro hexit _ hsome
      cases hsome
      exact hclean hexit
    | panicked stopped dropped =>
      refine ⟨fun path hpath => absurd rfl hpath, fun hsuccess => (by cases hsuccess), ?_⟩
      intro hexit _ hsome
      cases hsome
      exact hclean hexit

end

/-! ## A host on which everything works -/

/-- Formats whose texts are the values themselves. -/
def documents : Formats (Config ⊕ Trace) where
  fromToml
    | .inl cfg => .ok cfg
    | .inr _ => .error "not a config"
  toJson trace := .ok (.inr trace)
  fromJson
    | .inl _ => .error "not a trace"
    | .inr trace => .ok trace
  round_trip := by
    intro trace json h
    cases h
    rfl

noncomputable def clearInvocation : Invocation .release (Config ⊕ Trace) where
  order := MapOrder.some
  host := .little
  envs := fun _ _ => .clear
  io := ⟨fun _ => none, fun _ => .ok (), fun _ _ => .ok ()⟩

def armOnlyFile : Files (Config ⊕ Trace) := fun path =>
  if path = "a.toml" then some (.inl armOnly) else none

theorem replay_after_run_armOnly :
    ∃ e e', main documents clearInvocation 2 armOnlyFile
        (.run "a.toml" 1 (some "a.json")) = some e ∧
      main documents clearInvocation 2 e.files (.replay "a.toml" 7 "a.json") = some e' ∧
      e'.exit = .success := by
  obtain ⟨e, hrun, hexit, hfile⟩ : ∃ e, main documents clearInvocation 2 armOnlyFile
      (.run "a.toml" 1 (some "a.json")) = some e ∧ e.exit = .success ∧
      e.files "a.toml" = some (.inl armOnly) := ⟨_, rfl, rfl, rfl⟩
  obtain ⟨trace, stopped, dropped, hexec⟩ : ∃ trace stopped dropped,
      executeScenario clearInvocation.order clearInvocation.host clearInvocation.envs 2 armOnly 7
        false = some (.returned trace stopped dropped) := ⟨_, _, _, rfl⟩
  have hcfg : loadConfig documents clearInvocation.io armOnlyFile "a.toml" = .ok armOnly := rfl
  have hcfg' : loadConfig documents clearInvocation.io e.files "a.toml" = .ok armOnly := by
    simp only [loadConfig, FileIo.read, hfile]
    rfl
  obtain ⟨e', he', -, hexit'⟩ := replay_after_run hcfg hrun hexit rfl rfl hcfg' hexec
  exact ⟨e, e', hrun, he', hexit'⟩

/-- The saved trace is compared with a scenario of another seed. -/
theorem main_leaves_mismatch :
    ∃ e, main documents clearInvocation 2 (fun path => if path = "a.toml" then
        some (.inl armOnly) else some (.inr ⟨"arm-only", 2, []⟩))
        (.replay "a.toml" 1 "a.json") = some e ∧ e.exit = .died (.mismatch "a.json") ∧
      ∀ executed, e.executed = some executed → executed.CleansUp := by
  obtain ⟨e, he, hexit⟩ : ∃ e, main documents clearInvocation 2 (fun path =>
        if path = "a.toml" then some (.inl armOnly) else some (.inr ⟨"arm-only", 2, []⟩))
        (.replay "a.toml" 1 "a.json") = some e ∧ e.exit = .died (.mismatch "a.json") :=
    ⟨_, rfl, rfl⟩
  refine ⟨e, he, hexit, (main_leaves he).2.2 fun err h => ?_⟩
  rw [hexit] at h
  cases h

end Blackswan.Cli
