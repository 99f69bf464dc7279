import Blackswan.Cli.Cells
import Blackswan.Fix.Flags

/-!
# A run and the FIX clients

The other half of what a scenario is for: what a client of a FIX proxy gets to see while the run
goes on. The runner fires its steps, and between them the threads of the proxy accept clients and
relay messages. Also in the middle of an `arm`: its `start` and its store to `enabled` are two
moments. The machine keeps for each flag that a relay thread loads how many steps had been fired.

1. `Follows` is the invariant: the flag is on exactly if the steps fired leave the fault armed, and
   so was every flag loaded at its time.
2. `Follows.fire`, `Follows.begin` and `Follows.inner` show that every event keeps it.
3. `messages_follow_schedule` reads off what is written to a client.
-/

namespace Blackswan.Cli

open Lib (Endian run eventsOf)
open Replay Blackswan.Fix

variable {build : Build}

/-! ## The runner and a proxy -/

/-- What a call on a FIX fault does to its proxy, moment by moment. -/
def callEvents (env : FixEnv) : StepAction → List ProxyEvent
  | .arm => [.start env, .store true]
  | .disarm => [.store false]

/-- The runner fires its next step. Or it has begun to, by the `start` of an `arm`. Or a thread of
the proxy makes a step. -/
inductive FloorEvent where
  | fire
  | begin
  | proxy (event : ProxyEvent)

/-- The runner and how many steps it has fired, the proxy of one fault, and how many steps had been
fired when the relay threads of its sessions loaded their flags. -/
structure Floor (build : Build) where
  runner : Runner (LiveInjector build)
  fired : ℕ
  system : ProxySystem (FixAdapter build)
  loads : ℕ → Direction → List ℕ

/-- The proxy of a FIX fault that is registered. -/
def proxyOf (r : Runner (LiveInjector build)) (id : String) :
    Option (FixProxy (FixAdapter build)) :=
  (r.injectors.lookup id).bind fun live =>
    match live.injector with
    | .fix i => some i.proxy
    | _ => none

namespace Floor

def start (r : Runner (LiveInjector build)) (proxy : FixProxy (FixAdapter build)) : Floor build :=
  ⟨r, 0, ⟨proxy, false, none, false, []⟩, fun _ _ => []⟩

/-- The next step of the schedule. A call that fails ends the run. -/
def fire (id : String) (f : Floor build) : Option (Floor build) :=
  match f.runner.schedule.steps[f.fired]? with
  | none => none
  | some step =>
    match f.runner.injectors.lookup step.faultId, f.runner.fireStep step with
    | some live, (.ok (), runner) =>
      let calls := if step.faultId = id then callEvents (live.env 0).fix step.action else []
      (run (ProxySystem.step build) calls f.system).map fun system =>
        { f with runner := runner, fired := f.fired + 1, system := system }
    | _, _ => none

/-- The `start` of an `arm` that the runner is in. When the step is fired, the same `start` finds
its work done. -/
def begin (id : String) (f : Floor build) : Option (Floor build) :=
  match f.runner.schedule.steps[f.fired]?, f.runner.injectors.lookup id with
  | some step, some live =>
    if step.faultId = id ∧ step.action = .arm then
      (ProxySystem.step build f.system (.start (live.env 0).fix)).map fun system =>
        { f with system := system }
    else none
  | _, _ => none

/-- A flag that is loaded is marked with the steps fired so far. -/
def marked (f : Floor build) : Option (ℕ × Direction) → ℕ → Direction → List ℕ
  | none => f.loads
  | some (k, d) =>
    fun k' d' => f.loads k' d' ++ if (k, d) = (k', d') then [f.fired] else []

def inner (f : Floor build) (e : ProxyEvent) : Option (Floor build) :=
  if e.Inner then
    (ProxySystem.step build f.system e).map fun system =>
      { f with system := system, loads := f.marked e.load? }
  else none

def step (id : String) (f : Floor build) : FloorEvent → Option (Floor build)
  | .fire => f.fire id
  | .begin => f.begin id
  | .proxy e => f.inner e

end Floor

/-! ## The invariant -/

/-- A proxy that nobody has called yet. -/
def Fresh (proxy : FixProxy (FixAdapter build)) : Prop :=
  proxy = .new proxy.listenAddr proxy.upstreamAddr proxy.adapter

theorem fresh_proxyOf {host : Endian} {envs : String → ℕ → CallEnv} {cfg : Config}
    {schedule : ValidatedSchedule} {ctx : FaultContext} {id : String}
    {proxy : FixProxy (FixAdapter build)}
    (h : proxyOf ⟨schedule, buildInjectors build host envs cfg, ctx, []⟩ id = some proxy) :
    Fresh proxy := by
  obtain ⟨live, hlive, hproxy⟩ := Option.bind_eq_some_iff.mp h
  dsimp only at hlive
  rw [lookup_buildInjectors] at hlive
  obtain ⟨ic, -, rfl⟩ := Option.map_eq_some_iff.mp hlive
  cases ic <;> cases hproxy <;> rfl

/-- The flags of the proxy are those that the schedule asks for, each at its time. -/
structure Floor.Follows (r : Runner (LiveInjector build)) (id : String)
    (proxy : FixProxy (FixAdapter build)) (f : Floor build) : Prop where
  schedule : f.runner.schedule = r.schedule
  played : r.play (r.schedule.steps.take f.fired) = (.ok (), f.runner)
  reached : ∃ events, run (ProxySystem.step build) events
    (.new proxy.listenAddr proxy.upstreamAddr proxy.adapter) = some f.system
  enabled : f.system.proxy.enabled = decide (ArmedBy (r.schedule.steps.take f.fired) id)
  flags : ∀ k d, f.system.flagsOf k d =
    (f.loads k d).map fun n => decide (ArmedBy (r.schedule.steps.take n) id)
  marks : ∀ k d, (f.loads k d).Pairwise (· ≤ ·) ∧ ∀ n ∈ f.loads k d, n ≤ f.fired

namespace Floor

variable {r : Runner (LiveInjector build)} {id : String} {proxy : FixProxy (FixAdapter build)}
  {f f' : Floor build}

theorem follows_start (h : Fresh proxy) : Follows r id proxy (start r proxy) where
  schedule := rfl
  played := rfl
  reached := ⟨[], congrArg (fun p => some (ProxySystem.mk p false none false [])) h.symm⟩
  enabled := by
    show proxy.enabled = _
    rw [h]
    rfl
  flags := fun _ _ => rfl
  marks := fun _ _ => ⟨List.Pairwise.nil, fun _ hn => by cases hn⟩

theorem Follows.orderly (h : Follows r id proxy f) : f.system.Orderly := by
  obtain ⟨events, hevents⟩ := h.reached
  exact ProxySystem.orderly_of_run hevents

/-- More events of the proxy, from where it is. -/
theorem Follows.reach (h : Follows r id proxy f) {more : List ProxyEvent}
    {system : ProxySystem (FixAdapter build)}
    (hmore : run (ProxySystem.step build) more f.system = some system) :
    ∃ events, run (ProxySystem.step build) events
      (.new proxy.listenAddr proxy.upstreamAddr proxy.adapter) = some system := by
  obtain ⟨events, hevents⟩ := h.reached
  refine ⟨events ++ more, ?_⟩
  rw [Lib.run_append, hevents]
  exact hmore

/-- A call on the fault sets the flag, and its threads have loaded nothing meanwhile. -/
theorem run_callEvents {s s' : ProxySystem (FixAdapter build)} (h : s.Orderly) {env : FixEnv}
    {action : StepAction}
    (hrun : run (ProxySystem.step build) (callEvents env action) s = some s') :
    s'.proxy.enabled = decide (action = .arm) ∧ ∀ k d, s'.flagsOf k d = s.flagsOf k d := by
  cases action with
  | arm =>
    obtain ⟨mid, hmid, hrest⟩ := Lib.run_cons_eq_some hrun
    cases hrest
    refine ⟨rfl, fun k d => ?_⟩
    exact (ProxySystem.flagsOf_step h hmid k d).trans (List.append_nil _)
  | disarm =>
    cases hrun
    exact ⟨rfl, fun k d => rfl⟩

/-- What a step that is fired leaves. -/
theorem fire_eq_some (h : f.fire id = some f') :
    ∃ step env runner system, f.runner.schedule.steps[f.fired]? = some step ∧
      f.runner.fireStep step = (.ok (), runner) ∧ runner.schedule = f.runner.schedule ∧
      run (ProxySystem.step build) (if step.faultId = id then callEvents env step.action else [])
        f.system = some system ∧
      f' = { f with runner := runner, fired := f.fired + 1, system := system } := by
  unfold fire at h
  cases hstep : f.runner.schedule.steps[f.fired]? with
  | none =>
    rw [hstep] at h
    cases h
  | some step =>
    rw [hstep] at h
    dsimp only at h
    cases hlive : f.runner.injectors.lookup step.faultId with
    | none =>
      rw [hlive] at h
      cases h
    | some live =>
      rw [hlive, Runner.fireStep_of_lookup hlive] at h
      cases hres : (Runner.perform f.runner.ctx step.action live).1 with
      | error e =>
        rw [hres] at h
        cases h
      | ok _ =>
        rw [hres] at h
        obtain ⟨system, hsystem, rfl⟩ := Option.map_eq_some_iff.mp h
        refine ⟨step, _, (f.runner.call step.faultId step.action live).2, system, rfl, ?_, rfl,
          hsystem, rfl⟩
        rw [Runner.fireStep_of_lookup hlive, hres]
        rfl

/-- **A step** that is fired keeps the invariant. -/
theorem Follows.fire (h : Follows r id proxy f) (hfire : f.fire id = some f') :
    Follows r id proxy f' := by
  obtain ⟨step, env, runner, system, hk, hstep, hschedule, hcalls, rfl⟩ := fire_eq_some hfire
  rw [h.schedule] at hk
  have htake := Runner.take_succ_of_getElem? hk
  have heffect : system.proxy.enabled =
      decide (ArmedBy (r.schedule.steps.take (f.fired + 1)) id) ∧
        ∀ k d, system.flagsOf k d = f.system.flagsOf k d := by
    rw [htake]
    by_cases hid : step.faultId = id
    · rw [if_pos hid] at hcalls
      obtain ⟨henabled, hflags⟩ := run_callEvents h.orderly hcalls
      refine ⟨henabled.trans ?_, hflags⟩
      rw [decide_eq_decide, armedBy_concat, if_pos hid.symm]
    · rw [if_neg hid] at hcalls
      cases hcalls
      refine ⟨h.enabled.trans ?_, fun _ _ => rfl⟩
      rw [decide_eq_decide, armedBy_concat, if_neg (Ne.symm hid)]
  refine ⟨hschedule.trans h.schedule, ?_, h.reach hcalls, heffect.1, fun k d => ?_, fun k d => ?_⟩
  · rw [htake, Runner.play_append_of_ok h.played, Runner.play_cons_ok hstep]
    rfl
  · exact (heffect.2 k d).trans (h.flags k d)
  · exact ⟨(h.marks k d).1, fun n hn => Nat.le_succ_of_le ((h.marks k d).2 n hn)⟩

/-- The first half of an `arm` keeps it: the flag is not on yet. -/
theorem Follows.begin (h : Follows r id proxy f) (hbegin : f.begin id = some f') :
    Follows r id proxy f' := by
  unfold Floor.begin at hbegin
  split at hbegin
  · split_ifs at hbegin
    obtain ⟨system, hsystem, rfl⟩ := Option.map_eq_some_iff.mp hbegin
    refine ⟨h.schedule, h.played, h.reach (Lib.run_singleton hsystem), Eq.trans ?_ h.enabled,
      fun k d => ?_, h.marks⟩
    · rw [ProxySystem.step] at hsystem
      split_ifs at hsystem
      cases hsystem
      obtain heq | ⟨-, heq⟩ := f.system.started_cases _ <;> rw [heq]
    · refine Eq.trans ?_ (h.flags k d)
      exact (ProxySystem.flagsOf_step h.orderly hsystem k d).trans (List.append_nil _)
  · cases hbegin

/-- **A thread of the proxy** keeps it: a flag that it loads is the one of this moment. -/
theorem Follows.inner (h : Follows r id proxy f) {e : ProxyEvent}
    (hinner : f.inner e = some f') : Follows r id proxy f' := by
  unfold Floor.inner at hinner
  split_ifs at hinner with hthread
  obtain ⟨system, hsystem, rfl⟩ := Option.map_eq_some_iff.mp hinner
  have hloads : ∀ k d, f.marked e.load? k d =
      f.loads k d ++ if e.load? = some (k, d) then [f.fired] else [] := by
    intro k d
    cases e.load? with
    | none => exact (List.append_nil _).symm
    | some at_ => simp [marked]
  refine ⟨h.schedule, h.played, h.reach (Lib.run_singleton hsystem), ?_, fun k d => ?_,
    fun k d => ?_⟩
  · exact (ProxySystem.enabled_of_inner hthread hsystem).trans h.enabled
  · show system.flagsOf k d = (f.marked e.load? k d).map _
    rw [ProxySystem.flagsOf_step h.orderly hsystem, hloads, List.map_append, h.flags, h.enabled]
    split_ifs <;> rfl
  · show (f.marked e.load? k d).Pairwise _ ∧ ∀ n ∈ f.marked e.load? k d, n ≤ f.fired
    obtain ⟨hsorted, hle⟩ := h.marks k d
    rw [hloads]
    split_ifs
    · rw [List.pairwise_append, List.forall_mem_append, List.forall_mem_singleton]
      refine ⟨⟨hsorted, List.pairwise_singleton _ _, fun n hn m hm => ?_⟩, hle, le_rfl⟩
      rw [List.mem_singleton.mp hm]
      exact hle n hn
    · rw [List.append_nil]
      exact h.marks k d

theorem follows_of_run (h : Fresh proxy) {events : List FloorEvent}
    (hrun : run (step id) events (start r proxy) = some f) : Follows r id proxy f := by
  refine Lib.run_invariant (Follows r id proxy) ?_ (follows_start h) hrun
  intro f e f' hf hstep
  cases e with
  | fire => exact hf.fire hstep
  | begin => exact hf.begin hstep
  | proxy e => exact hf.inner hstep

end Floor

/-- **From the schedule to the client.** In every run of a scenario with a FIX fault, however the
steps of the runner, the accept thread and the relay threads of the proxy interleave, and as long
as the calls succeed: the steps fired are those that the run without a clock has played; the
messages that a relay thread has dealt with, the one in hand and its buffer are the bytes it has
read; each message is treated by whether the steps fired when its turn came leave the fault armed;
and what is written is what the adapter makes of the messages so treated, up to where the thread
was cut short. Inbound, that is message by message what the configured adapter leaves of it. -/
theorem messages_follow_schedule (host : Endian) (envs : String → ℕ → CallEnv) (cfg : Config)
    {schedule : ValidatedSchedule} {r : Runner (LiveInjector build)}
    (hvalid : ValidatedSchedule.validate ⟨cfg.name, cfg.seed, cfg.schedule⟩ = .ok schedule)
    (hnew : Runner.new schedule (buildInjectors build host envs cfg) ⟨cfg.seed⟩ = .ok r)
    {id : String} {proxy : FixProxy (FixAdapter build)} (hproxy : proxyOf r id = some proxy)
    (events : List FloorEvent) {f : Floor build}
    (hrun : run (Floor.step id) events (.start r proxy) = some f)
    {k : ℕ} {session : Session (FixAdapter build)} (hk : f.system.sessions[k]? = some session)
    (direction : Direction) :
    let own := eventsOf direction session.events
    let thread := session.threads direction
    let marks := f.loads k direction
    let flags := marks.map fun n => decide (ArmedBy (cfg.schedule.take n) id)
    let expected := due direction (fun i => flags.getD i false) 0 session.opening thread.log.frames
    r.play (cfg.schedule.take f.fired) = (.ok (), f.runner) ∧
    thread.log.frames.flatten ++ thread.pending ++ thread.buf = bytesIn own ∧
    (thread.log.frames.length ≤ marks.length ∧ marks.Pairwise (· ≤ ·) ∧ ∀ n ∈ marks, n ≤ f.fired) ∧
    thread.log.written <+: expected ∧ (thread.Unbroken own → thread.log.written = expected) ∧
    (direction = .inbound → expected = ((thread.log.frames.zip marks).filterMap fun p =>
      if ArmedBy (cfg.schedule.take p.2) id then effect proxy.adapter p.1
      else some p.1).flatten) := by
  intro own thread marks flags expected
  obtain ⟨-, rfl⟩ := Runner.new_ok_iff.mp hnew
  have hsteps : schedule.steps = cfg.schedule := by
    rw [ValidatedSchedule.steps, ValidatedSchedule.scenario_of_validate hvalid]
  have h := Floor.follows_of_run (fresh_proxyOf hproxy) hrun
  obtain ⟨all, hall⟩ := h.reached
  have hsession : session ∈ f.system.sessions := List.mem_of_getElem? hk
  obtain ⟨b, hb⟩ := ProxySystem.exists_run_alone hall hsession direction
  -- the flags that the thread has loaded are those of the schedule
  have hflags : flagsIn own = flags := by
    have hloaded := h.flags k direction
    rw [ProxySystem.flagsOf, hk, Option.map_some, Option.getD_some] at hloaded
    rw [hloaded]
    exact congrArg (fun steps => marks.map fun n => decide (ArmedBy (steps.take n) id)) hsteps
  obtain ⟨more, hframes, hwithin, hwhole⟩ := Thread.written_of_run hb (Thread.supplies_new own)
  obtain rfl : thread.log.frames = more := hframes
  have henabled : (envOf own).enabled = fun i => flags.getD i false := by rw [← hflags]; rfl
  rw [henabled] at hwithin hwhole
  have hlength : thread.log.frames.length ≤ marks.length := by
    have hle := frames_le_flags hb
    rw [show eventsOf direction session.events = own from rfl, hflags, List.length_map] at hle
    exact hle
  refine ⟨hsteps ▸ h.played, Thread.bytes_of_run hb, ⟨hlength, h.marks k direction⟩, hwithin,
    hwhole, ?_⟩
  intro hinbound
  have halike := (ProxySystem.kept_of_run hall).openings session hsession
  have hexpected : expected = due .inbound (fun i => flags.getD i false) 0 session.opening
      thread.log.frames := by rw [← hinbound]
  have hmarks := filterMap_zipIdx (fun m on => if on then effect proxy.adapter m else some m)
    (fun n => decide (ArmedBy (cfg.schedule.take n) id)) thread.log.frames marks 0
    (by rw [Nat.zero_add]; exact hlength)
  simp only [decide_eq_true_eq, List.drop_zero] at hmarks
  rw [hexpected, due_inbound, ← hmarks]
  simp only [effect_alike halike]
  rfl

/-- A client connects in the middle of the `arm` and gets two Rejects at once. The flag of the first
is loaded before the step is fired and the flag of the second after it. -/
def rejectsAtArm : List FloorEvent :=
  [.begin, .proxy .check, .proxy (.accept .connected),
    .proxy (.relay 0 .inbound (.poll ⟨false, .ok (rejectMessage ++ rejectMessage)⟩)),
    .proxy (.relay 0 .inbound (.load false)), .proxy (.relay 0 .inbound (.act .ok)), .fire,
    .proxy (.relay 0 .inbound (.load true)), .proxy (.relay 0 .inbound (.act .ok))]

/-- Only the first one comes through. -/
theorem messages_follow_rejectsAtArm :
    ∃ proxy f session, proxyOf armOnlyRunner "reject" = some proxy ∧
      run (Floor.step "reject") rejectsAtArm (.start armOnlyRunner proxy) = some f ∧
      f.system.sessions[0]? = some session ∧
      (session.threads .inbound).log.frames = [rejectMessage, rejectMessage] ∧
      (session.threads .inbound).log.written = rejectMessage := by
  have hvalid : ValidatedSchedule.validate ⟨armOnly.name, armOnly.seed, armOnly.schedule⟩ = _ :=
    ValidatedSchedule.validate_of_check (by decide)
  obtain ⟨proxy, hproxy⟩ : ∃ proxy, proxyOf armOnlyRunner "reject" = some proxy := ⟨_, rfl⟩
  obtain ⟨f, hrun, hdata⟩ : ∃ f, run (Floor.step "reject") rejectsAtArm
      (.start armOnlyRunner proxy) = some f ∧
      (f.system.sessions.map fun x => ((x.threads .inbound).pc, (x.threads .inbound).log.frames),
        f.loads 0 .inbound) = ([(.polling, [rejectMessage, rejectMessage])], [0, 1]) := by
    cases hproxy
    exact ⟨_, rfl, rfl⟩
  obtain ⟨hsessions, hloads⟩ := Prod.mk.inj hdata
  obtain ⟨session, hone, hthread⟩ := List.map_eq_singleton_iff.mp hsessions
  obtain ⟨hpc, hframes⟩ := Prod.mk.inj hthread
  have hk : f.system.sessions[0]? = some session := by rw [hone]; rfl
  obtain ⟨-, -, -, -, hwhole, hinbound⟩ := messages_follow_schedule .little (fun _ _ => .clear)
    armOnly hvalid (r := armOnlyRunner) rfl hproxy rejectsAtArm hrun hk .inbound
  refine ⟨proxy, f, session, hproxy, hrun, hk, hframes, ?_⟩
  have hunbroken : (session.threads .inbound).Unbroken (eventsOf .inbound session.events) := by
    unfold Thread.Unbroken
    rw [hpc]
    exact ⟨(fun hc => by cases hc), (fun hc => by cases hc)⟩
  rw [hwhole hunbroken, hinbound rfl, hframes, hloads]
  cases hproxy
  decide

end Blackswan.Cli
