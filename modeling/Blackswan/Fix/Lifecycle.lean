import Blackswan.Fix.Directed
import Blackswan.Fix.Injector
import Blackswan.Fix.Session

/-!
# The proxy as a system of threads

`FixProxy` is a caller with `start`, `stop` and the `enabled` flag, an accept thread that serves one
session after the other, and two relay threads per session. `ProxySystem` lets all of them
interleave: every event is one step of one thread, up to the next thing it shares or waits for.

1. `Orderly` says how the threads wait for each other; `orderly_of_run` holds of every run.
2. `step_sessions`: an event opens a session, is a step of a thread of the latest one, or leaves
   the sessions alone. So they do not overlap (`sessions_do_not_overlap`).
3. `Replayed` says that a session is an interleaving of its two threads. As these are separate,
   each direction does what `relay` does on its own (`session_relays`, `session_bytes`).
-/

namespace Blackswan.Fix

open Lib (Outcome run interleave eventsOf Extracts)

/-! ## The threads -/

/-- Where the accept thread stands. -/
inductive AcceptPc where
  /-- At the head of its loop, about to load `shutdown`. -/
  | checking
  /-- About to call `accept`. -/
  | accepting
  /-- In `run_session`, waiting for the relay thread of this direction. -/
  | joining (direction : Direction)
  | finished
  deriving DecidableEq, Repr

/-- How `accept` ends, and what follows it up to the next wait. -/
inductive Accept where
  /-- Nobody is there; the thread sleeps for a while. -/
  | wouldBlock
  | error
  /-- A client, but `connect` to the upstream address fails: the client is dropped. -/
  | unreachable
  /-- A client and an upstream connection, but a `try_clone` fails: the thread panics. -/
  | uncloneable
  /-- Both relay threads are spawned. -/
  | connected
  deriving DecidableEq, Repr

/-- A session: its relay threads, all their events in order, and the adapter as it was when the
session began. -/
structure Session (A : Type) where
  opening : A
  events : List (Direction × ThreadEvent)
  threads : Direction → Thread

/-- `thread` is the accept thread spawned last, if any; `stopping` says that a call of `stop` is
waiting for it. -/
structure ProxySystem (A : Type) where
  proxy : FixProxy A
  shutdown : Bool
  thread : Option AcceptPc
  stopping : Bool
  sessions : List (Session A)

inductive ProxyEvent where
  /-- A call of `start`. -/
  | start (env : FixEnv)
  /-- A store to the `enabled` flag. -/
  | store (enabled : Bool)
  /-- A call of `stop`, up to its `join`. -/
  | stop
  /-- The `join` of `stop` returns. -/
  | stopped
  /-- The accept thread loads `shutdown`. -/
  | check
  | accept (result : Accept)
  /-- The `join` the accept thread is waiting in returns. -/
  | joined
  /-- A relay thread of the `k`-th session makes a step. -/
  | relay (k : ℕ) (direction : Direction) (event : ThreadEvent)

variable {A : Type}

def Session.new (adapter : A) : Session A := ⟨adapter, [], fun _ => .new⟩

def Session.Over (session : Session A) : Prop := ∀ direction, (session.threads direction).Over

namespace ProxySystem

def new (listenAddr upstreamAddr : String) (adapter : A) : ProxySystem A :=
  ⟨.new listenAddr upstreamAddr adapter, false, none, false, []⟩

/-- `start` spawns an accept thread if the proxy had none and the listener could be bound. -/
def started (s : ProxySystem A) (env : FixEnv) : ProxySystem A :=
  let proxy := (s.proxy.start env).2
  { s with
    proxy := proxy
    thread := if s.proxy.running = false ∧ proxy.running = true then some .checking else s.thread }

/-- `stop` sets the flag and takes the handle; it waits if there was one. -/
def stopCalled (s : ProxySystem A) : ProxySystem A :=
  { s with
    shutdown := true
    stopping := s.proxy.running
    proxy := { s.proxy with running := false } }

def accepted (s : ProxySystem A) : Accept → ProxySystem A
  | .wouldBlock => { s with thread := some .checking }
  | .error => { s with thread := some .finished }
  | .unreachable => { s with thread := some .checking }
  | .uncloneable => { s with thread := some .finished }
  | .connected =>
    { s with
      thread := some (.joining .outbound)
      sessions := s.sessions ++ [.new s.proxy.adapter] }

/-- What follows the `join` of a relay thread in `run_session`. -/
def afterJoin : Direction → AcceptPc
  | .outbound => .joining .inbound
  | .inbound => .checking

/-- The relay thread of this direction in the latest session has ended. -/
def Joinable (s : ProxySystem A) (direction : Direction) : Prop :=
  ∀ session ∈ s.sessions.getLast?, (session.threads direction).Over

instance (s : ProxySystem A) (direction : Direction) : Decidable (s.Joinable direction) := by
  unfold Joinable; infer_instance

/-- What the thread finds in the flags it loads is what they hold. -/
def Sees (s : ProxySystem A) : ThreadEvent → Prop
  | .poll p => p.shutdown = s.shutdown
  | .load enabled => enabled = s.proxy.enabled
  | .act _ => True

instance (s : ProxySystem A) (e : ThreadEvent) : Decidable (s.Sees e) := by
  cases e <;> unfold Sees <;> infer_instance

variable [ProtocolAdapter A]

/-- A relay thread makes a step on the shared adapter. -/
def relayed (build : Build) (s : ProxySystem A) (k : ℕ) (session : Session A)
    (e : Direction × ThreadEvent) : Option (ProxySystem A) :=
  (interleave (Thread.step build) (s.proxy.adapter, session.threads) e).map fun r =>
    { s with
      proxy := { s.proxy with adapter := r.1 }
      sessions := s.sessions.set k ⟨session.opening, session.events ++ [e], r.2⟩ }

def step (build : Build) (s : ProxySystem A) : ProxyEvent → Option (ProxySystem A)
  | .start env => if s.stopping then none else some (s.started env)
  | .store enabled => some { s with proxy := { s.proxy with enabled := enabled } }
  | .stop => if s.stopping then none else some s.stopCalled
  | .stopped =>
    if s.stopping ∧ s.thread = some .finished then some { s with stopping := false } else none
  | .check =>
    if s.thread = some .checking then
      some { s with thread := some (if s.shutdown then .finished else .accepting) }
    else none
  | .accept result => if s.thread = some .accepting then some (s.accepted result) else none
  | .joined =>
    match s.thread with
    | some (.joining direction) =>
      if s.Joinable direction then some { s with thread := some (afterJoin direction) } else none
    | _ => none
  | .relay k direction e =>
    match s.sessions[k]? with
    | some session => if s.Sees e then relayed build s k session (direction, e) else none
    | none => none

/-! ## Who waits for whom -/

/-- What the accept thread knows about the latest session from where it stands. -/
def Awaited : Option AcceptPc → Session A → Prop
  | some (.joining .outbound), _ => True
  | some (.joining .inbound), session => (session.threads .outbound).Over
  | _, session => session.Over

/-- How the threads of the proxy wait for each other. Only the latest session can have a thread
that runs, and only while the accept thread waits for it. -/
structure Orderly (s : ProxySystem A) : Prop where
  earlier : ∀ session ∈ s.sessions.dropLast, session.Over
  latest : ∀ session ∈ s.sessions.getLast?, Awaited s.thread session
  served : ∀ direction, s.thread = some (.joining direction) → s.sessions ≠ []
  handle : s.proxy.running = true ∨ s.stopping = true → s.thread ≠ none
  idle : s.proxy.running = false → s.stopping = false →
    s.thread = none ∨ s.thread = some .finished
  stopping : s.stopping = true → s.shutdown = true ∧ s.proxy.running = false

variable {build : Build} {s s' : ProxySystem A}

omit [ProtocolAdapter A] in
theorem orderly_new (listenAddr upstreamAddr : String) (adapter : A) :
    Orderly (new listenAddr upstreamAddr adapter) where
  earlier := fun _ h => by cases h
  latest := fun _ h => by cases h
  served := fun _ h => by cases h
  handle := by
    rintro (h | h) <;> cases h
  idle := fun _ _ => Or.inl rfl
  stopping := fun h => by cases h

/-- An element of a list is before its last one or is it. -/
theorem mem_dropLast_or_last {α : Type} {l : List α} {k : ℕ} {x : α} (h : l[k]? = some x) :
    x ∈ l.dropLast ∨ l = l.dropLast ++ [x] ∧ k = l.dropLast.length := by
  rcases List.eq_nil_or_concat l with rfl | ⟨init, y, rfl⟩
  · cases h
  · rw [List.concat_eq_append, List.dropLast_concat] at *
    by_cases hk : k < init.length
    · rw [List.getElem?_append_left hk] at h
      exact Or.inl (List.mem_of_getElem? h)
    · rw [List.getElem?_append_right (by omega), List.getElem?_singleton] at h
      split_ifs at h with h0
      cases h
      exact Or.inr ⟨rfl, by omega⟩

namespace Orderly

omit [ProtocolAdapter A] in
/-- Unless the accept thread waits in `run_session`, every session is over. -/
theorem all_over (h : Orderly s) (hthread : ∀ direction, s.thread ≠ some (.joining direction)) :
    ∀ session ∈ s.sessions, session.Over := by
  intro session hmem
  obtain ⟨k, hk⟩ := List.mem_iff_getElem?.mp hmem
  rcases mem_dropLast_or_last hk with hbefore | ⟨hlast, -⟩
  · exact h.earlier session hbefore
  · have hawait := h.latest session (by rw [hlast, List.getLast?_concat]; rfl)
    rcases hpc : s.thread with _ | _ | _ | direction | _ <;> rw [hpc] at hawait
    · exact hawait
    · exact hawait
    · exact hawait
    · exact absurd hpc (hthread direction)
    · exact hawait

/-- **A relay thread that makes a step** belongs to the latest session, for which the accept
thread waits; the thread it waits for has not ended. -/
theorem of_relayed (h : Orderly s) {k : ℕ} {session : Session A} {direction : Direction}
    {e : ThreadEvent} (hk : s.sessions[k]? = some session)
    (hstep : relayed build s k session (direction, e) = some s') :
    ∃ a t, Thread.step build direction (s.proxy.adapter, session.threads direction) e =
        some (a, t) ∧
      s.sessions = s.sessions.dropLast ++ [session] ∧
      s' = { s with
        proxy := { s.proxy with adapter := a }
        sessions := s.sessions.dropLast ++ [⟨session.opening, session.events ++ [(direction, e)],
          Function.update session.threads direction t⟩] } ∧
      (s.thread = some (.joining .outbound) ∨
        s.thread = some (.joining .inbound) ∧ (session.threads .outbound).Over ∧
          direction = .inbound) := by
  obtain ⟨⟨a, threads⟩, hr, rfl⟩ := Option.map_eq_some_iff.mp hstep
  obtain ⟨t, ht, hthreads⟩ := Lib.interleave_eq_some hr
  dsimp only at ht hthreads
  have halive : ¬ (session.threads direction).Over := by
    intro hover
    rw [Thread.step_of_over (s := (s.proxy.adapter, session.threads direction)) hover] at ht
    cases ht
  rcases mem_dropLast_or_last hk with hbefore | ⟨hlast, hlen⟩
  · exact absurd (h.earlier session hbefore direction) halive
  · refine ⟨a, t, ht, hlast, ?_, ?_⟩
    · rw [hthreads]
      congr 1
      conv_lhs => rw [hlast, hlen]
      rw [List.set_append_right _ _ (Nat.le_refl _), Nat.sub_self]
      rfl
    · have hawait := h.latest session (by rw [hlast, List.getLast?_concat]; rfl)
      rcases hpc : s.thread with _ | _ | _ | waiting | _ <;> rw [hpc] at hawait
      · exact absurd (hawait direction) halive
      · exact absurd (hawait direction) halive
      · exact absurd (hawait direction) halive
      · cases waiting with
        | outbound => exact Or.inl rfl
        | inbound =>
          refine Or.inr ⟨rfl, hawait, ?_⟩
          cases direction with
          | inbound => rfl
          | outbound => exact absurd hawait halive
      · exact absurd (hawait direction) halive

end Orderly

omit [ProtocolAdapter A] in
/-- A call of `start` changes nothing, or it spawns the accept thread. -/
theorem started_cases (s : ProxySystem A) (env : FixEnv) :
    s.started env = s ∨ s.proxy.running = false ∧ s.started env =
      { s with proxy := { s.proxy with running := true }, thread := some .checking } := by
  unfold started FixProxy.start
  by_cases hrun : s.proxy.running = true
  · left
    simp [hrun]
  · rw [Bool.not_eq_true] at hrun
    rcases env.bind s.proxy.listenAddr with e | ⟨⟩
    · left
      simp [hrun]
    · right
      simp [hrun]

omit [ProtocolAdapter A] in
theorem awaited_of_over {session : Session A} (h : session.Over) (pc : Option AcceptPc) :
    Awaited pc session := by
  unfold Awaited
  split
  · trivial
  · exact h .outbound
  · exact h

omit [ProtocolAdapter A] in
/-- The accept thread moves on to `next`. -/
theorem Orderly.moves (h : Orderly s) {pc next : AcceptPc} (hpc : s.thread = some pc)
    (hfin : pc ≠ .finished)
    (hlatest : ∀ session ∈ s.sessions.getLast?, Awaited (some next) session)
    (hserved : ∀ direction, next = .joining direction → s.sessions ≠ []) :
    Orderly { s with thread := some next } where
  earlier := h.earlier
  latest := hlatest
  served := fun direction heq => hserved direction (Option.some.inj heq)
  handle := fun _ hc => by cases hc
  idle := by
    intro hrun hs
    rcases h.idle hrun hs with hnone | hfinished
    · rw [hnone] at hpc
      cases hpc
    · rw [hfinished] at hpc
      exact absurd (Option.some.inj hpc).symm hfin
  stopping := h.stopping

omit [ProtocolAdapter A] in
/-- The same, from a place at which no session is going on. -/
theorem Orderly.moves_between (h : Orderly s) {pc next : AcceptPc} (hpc : s.thread = some pc)
    (hbetween : pc = .checking ∨ pc = .accepting)
    (hnext : ∀ direction, next ≠ .joining direction) :
    Orderly { s with thread := some next } := by
  have hover := h.all_over fun direction hc => by
    rw [hpc] at hc
    cases hc
    rcases hbetween with hb | hb <;> cases hb
  refine h.moves hpc ?_ ?_ fun direction hc => absurd hc (hnext direction)
  · rintro rfl
    rcases hbetween with hb | hb <;> cases hb
  · exact fun session hmem => awaited_of_over (hover session (List.mem_of_getLast? hmem)) _

omit [ProtocolAdapter A] in
/-- What `accept` leads to. -/
theorem Orderly.accepted (h : Orderly s) (hpc : s.thread = some .accepting) (result : Accept) :
    Orderly (s.accepted result) := by
  have hother (next : AcceptPc) (hnext : ∀ direction, next ≠ .joining direction) :
      Orderly { s with thread := some next } := h.moves_between hpc (Or.inr rfl) hnext
  cases result with
  | wouldBlock => exact hother _ fun _ hc => by cases hc
  | error => exact hother _ fun _ hc => by cases hc
  | unreachable => exact hother _ fun _ hc => by cases hc
  | uncloneable => exact hother _ fun _ hc => by cases hc
  | connected =>
    -- all the sessions so far are over, and the new one is the latest
    have hover := h.all_over fun direction hc => by
      rw [hpc] at hc
      cases hc
    exact {
      earlier := by
        intro session hmem
        dsimp only [ProxySystem.accepted] at hmem
        rw [List.dropLast_concat] at hmem
        exact hover session hmem
      latest := fun session _ => trivial
      served := fun _ _ => List.concat_ne_nil _ _
      handle := fun _ hc => by cases hc
      idle := by
        intro hrun hs
        rcases h.idle hrun hs with hc | hc <;> rw [hpc] at hc <;> cases hc
      stopping := h.stopping }

/-- **Step lemma.** Every event of every thread keeps the order. -/
theorem orderly_step (h : Orderly s) {e : ProxyEvent} (hstep : step build s e = some s') :
    Orderly s' := by
  cases e with
  | start env =>
    rw [step] at hstep
    split_ifs at hstep with hstopping
    cases hstep
    rcases s.started_cases env with heq | ⟨hrun, heq⟩ <;> rw [heq]
    · exact h
    · have hover := h.all_over fun direction hpc => by
        rcases h.idle hrun (Bool.not_eq_true _ ▸ hstopping) with hnone | hfin
        · rw [hnone] at hpc
          cases hpc
        · rw [hfin] at hpc
          cases hpc
      exact {
        earlier := h.earlier
        latest := fun session hmem => hover session (List.mem_of_getLast? hmem)
        served := fun _ hpc => by cases hpc
        handle := fun _ hpc => by cases hpc
        idle := fun hrun' _ => by cases hrun'
        stopping := fun hs => absurd hs hstopping }
  | store enabled =>
    cases hstep
    exact ⟨h.earlier, h.latest, h.served, h.handle, h.idle, h.stopping⟩
  | stop =>
    rw [step] at hstep
    split_ifs at hstep with hstopping
    cases hstep
    exact {
      earlier := h.earlier
      latest := h.latest
      served := h.served
      handle := by
        rintro (hrun | hs)
        · cases hrun
        · exact h.handle (Or.inl hs)
      idle := fun _ hs => h.idle hs (Bool.not_eq_true _ ▸ hstopping)
      stopping := fun _ => ⟨rfl, rfl⟩ }
  | stopped =>
    rw [step] at hstep
    split_ifs at hstep with hfin
    cases hstep
    exact {
      earlier := h.earlier
      latest := h.latest
      served := h.served
      handle := fun _ => by rw [hfin.2]; exact fun hc => by cases hc
      idle := fun _ _ => Or.inr hfin.2
      stopping := fun hs => by cases hs }
  | check =>
    rw [step] at hstep
    split at hstep
    case isFalse => cases hstep
    case isTrue hpc =>
      cases hstep
      refine h.moves_between hpc (Or.inl rfl) fun direction hc => ?_
      split_ifs at hc
  | accept result =>
    rw [step] at hstep
    split_ifs at hstep with hpc
    cases hstep
    exact h.accepted hpc result
  | joined =>
    rw [step] at hstep
    split at hstep
    case h_2 => cases hstep
    case h_1 direction hpc =>
      split_ifs at hstep with hjoin
      cases hstep
      refine h.moves hpc (fun hc => by cases hc) (fun session hmem => ?_)
        fun _ _ => h.served direction hpc
      have hawait := h.latest session hmem
      rw [hpc] at hawait
      cases direction with
      | outbound => exact hjoin session hmem
      | inbound =>
        intro direction
        cases direction with
        | outbound => exact hawait
        | inbound => exact hjoin session hmem
  | relay k direction e =>
    rw [step] at hstep
    split at hstep
    case h_2 => cases hstep
    case h_1 session hk =>
      split_ifs at hstep with hsees
      obtain ⟨a, t, -, hlast, rfl, hpc⟩ := h.of_relayed hk hstep
      exact {
        earlier := by
          intro x hx
          dsimp only at hx
          rw [List.dropLast_concat] at hx
          exact h.earlier x hx
        latest := by
          intro x hx
          dsimp only at hx ⊢
          rw [List.getLast?_concat] at hx
          cases hx
          rcases hpc with hpc | ⟨hpc, hover, rfl⟩ <;> rw [hpc]
          · trivial
          · show (Function.update session.threads .inbound t .outbound).Over
            rw [Function.update_of_ne (by decide)]
            exact hover
        served := fun _ _ => List.concat_ne_nil _ _
        handle := h.handle
        idle := h.idle
        stopping := h.stopping }

theorem orderly_of_run {listenAddr upstreamAddr : String} {adapter : A}
    {events : List ProxyEvent}
    (h : run (step build) events (new listenAddr upstreamAddr adapter) = some s) : Orderly s :=
  Lib.run_invariant Orderly (fun _ _ _ hs hstep => orderly_step hs hstep)
    (orderly_new listenAddr upstreamAddr adapter) h

/-! ## The sessions -/

/-- The relay thread of `direction` in the latest session makes the step `e`. -/
structure Relays (build : Build) (s s' : ProxySystem A) (session : Session A)
    (direction : Direction) (e : ThreadEvent) (a : A) (t : Thread) : Prop where
  sees : s.Sees e
  made : Thread.step build direction (s.proxy.adapter, session.threads direction) e = some (a, t)
  before : s.sessions = s.sessions.dropLast ++ [session]
  after : s'.sessions = s.sessions.dropLast ++ [⟨session.opening,
    session.events ++ [(direction, e)], Function.update session.threads direction t⟩]
  adapter : s'.proxy.adapter = a

/-- **What an event does to the sessions**: nothing, or it opens one, or a thread of the latest
one makes a step. -/
theorem step_sessions (h : Orderly s) {e : ProxyEvent} (hstep : step build s e = some s') :
    (s'.sessions = s.sessions ∧ s'.proxy.adapter = s.proxy.adapter) ∨
      (s.thread = some .accepting ∧ s'.sessions = s.sessions ++ [.new s.proxy.adapter] ∧
        s'.proxy.adapter = s.proxy.adapter) ∨
      ∃ k session direction te a t, e = .relay k direction te ∧
        Relays build s s' session direction te a t := by
  cases e with
  | start env =>
    rw [step] at hstep
    split_ifs at hstep
    cases hstep
    rcases s.started_cases env with heq | ⟨-, heq⟩ <;> rw [heq] <;> exact Or.inl ⟨rfl, rfl⟩
  | store enabled =>
    cases hstep
    exact Or.inl ⟨rfl, rfl⟩
  | stop =>
    rw [step] at hstep
    split_ifs at hstep
    cases hstep
    exact Or.inl ⟨rfl, rfl⟩
  | stopped =>
    rw [step] at hstep
    split_ifs at hstep
    cases hstep
    exact Or.inl ⟨rfl, rfl⟩
  | check =>
    rw [step] at hstep
    split at hstep
    · cases hstep
      exact Or.inl ⟨rfl, rfl⟩
    · cases hstep
  | accept result =>
    rw [step] at hstep
    split_ifs at hstep with hpc
    cases hstep
    cases result with
    | connected => exact Or.inr (Or.inl ⟨hpc, rfl, rfl⟩)
    | wouldBlock => exact Or.inl ⟨rfl, rfl⟩
    | error => exact Or.inl ⟨rfl, rfl⟩
    | unreachable => exact Or.inl ⟨rfl, rfl⟩
    | uncloneable => exact Or.inl ⟨rfl, rfl⟩
  | joined =>
    rw [step] at hstep
    split at hstep
    · split_ifs at hstep
      cases hstep
      exact Or.inl ⟨rfl, rfl⟩
    · cases hstep
  | relay k direction e =>
    rw [step] at hstep
    split at hstep
    · rename_i session hk
      split_ifs at hstep with hsees
      obtain ⟨a, t, hmade, hbefore, rfl, -⟩ := h.of_relayed hk hstep
      exact Or.inr (Or.inr ⟨k, session, direction, e, a, t, rfl, hsees, hmade, hbefore, rfl, rfl⟩)
    · cases hstep

end ProxySystem

/-- The session is an interleaving of its two threads, which leaves the adapter as `a`. -/
def Session.Ran [ProtocolAdapter A] (build : Build) (session : Session A) (a : A) : Prop :=
  run (interleave (Thread.step build)) session.events (session.opening, fun _ => .new) =
    some (a, session.threads)

namespace ProxySystem

variable [ProtocolAdapter A] {build : Build} {s s' : ProxySystem A}

/-- Every session ran; the latest one left the adapter as it is now. -/
structure Replayed (build : Build) (s : ProxySystem A) : Prop where
  orderly : Orderly s
  ran : ∀ session ∈ s.sessions, ∃ a, session.Ran build a
  latest : ∀ session ∈ s.sessions.getLast?, session.Ran build s.proxy.adapter

theorem replayed_new (listenAddr upstreamAddr : String) (adapter : A) :
    Replayed build (new listenAddr upstreamAddr adapter) where
  orderly := orderly_new listenAddr upstreamAddr adapter
  ran := fun _ h => by cases h
  latest := fun _ h => by cases h

theorem replayed_step (h : Replayed build s) {e : ProxyEvent}
    (hstep : step build s e = some s') : Replayed build s' := by
  suffices hdata : (∀ session ∈ s'.sessions, ∃ a, session.Ran build a) ∧
      ∀ session ∈ s'.sessions.getLast?, session.Ran build s'.proxy.adapter from
    ⟨orderly_step h.orderly hstep, hdata.1, hdata.2⟩
  rcases step_sessions h.orderly hstep with ⟨hsessions, hadapter⟩ |
    ⟨-, hsessions, hadapter⟩ | ⟨-, session, direction, te, a, t, -, hrelay⟩
  · rw [hsessions, hadapter]
    exact ⟨h.ran, h.latest⟩
  · rw [hsessions, hadapter]
    have hnew : (Session.new s.proxy.adapter).Ran build s.proxy.adapter := rfl
    refine ⟨fun x hx => ?_, fun x hx => ?_⟩
    · rcases List.mem_append.mp hx with hx | hx
      · exact h.ran x hx
      · rw [List.mem_singleton.mp hx]
        exact ⟨_, hnew⟩
    · rw [List.getLast?_concat] at hx
      cases hx
      exact hnew
  · -- the step is the last one of its session so far
    have hran : session.Ran build s.proxy.adapter :=
      h.latest session (by rw [hrelay.before, List.getLast?_concat]; rfl)
    have hran' : Session.Ran build ⟨session.opening, session.events ++ [(direction, te)],
        Function.update session.threads direction t⟩ a := by
      unfold Session.Ran at hran ⊢
      rw [Lib.run_append, hran]
      show (interleave (Thread.step build) _ _).bind _ = _
      rw [interleave, hrelay.made]
      rfl
    rw [hrelay.after, hrelay.adapter]
    refine ⟨fun x hx => ?_, fun x hx => ?_⟩
    · rcases List.mem_append.mp hx with hx | hx
      · exact h.ran x (List.mem_of_mem_dropLast hx)
      · rw [List.mem_singleton.mp hx]
        exact ⟨a, hran'⟩
    · rw [List.getLast?_concat] at hx
      cases hx
      exact hran'

theorem replayed_of_run {listenAddr upstreamAddr : String} {adapter : A}
    {events : List ProxyEvent}
    (h : run (step build) events (new listenAddr upstreamAddr adapter) = some s) :
    Replayed build s :=
  Lib.run_invariant (Replayed build) (fun _ _ _ hs hstep => replayed_step hs hstep)
    (replayed_new listenAddr upstreamAddr adapter) h

/-- A thread of a session, run alone from the adapter as the session found it. -/
theorem exists_run_alone [DirectedAdapter A] {listenAddr upstreamAddr : String} {adapter : A}
    {events : List ProxyEvent}
    (h : run (step build) events (new listenAddr upstreamAddr adapter) = some s)
    {session : Session A} (hsession : session ∈ s.sessions) (direction : Direction) :
    ∃ b, run (Thread.step build direction) (eventsOf direction session.events)
      (session.opening, .new) = some (b, session.threads direction) := by
  obtain ⟨a, hran⟩ := (replayed_of_run h).ran session hsession
  obtain ⟨b, hb, -⟩ := (separate_threads build).project hran
    (DirectedAdapter.refl direction session.opening)
  exact ⟨b, hb⟩

/-- A listener that can be bound. -/
def binds : FixEnv := ⟨fun _ => .ok ()⟩

/-- The throttle is enabled and a client is there. It sends two orders while a message for it is
under way: the inbound thread has loaded the flag before the outbound one asks the adapter, twice,
and goes on after that. -/
def servedRun : List ProxyEvent :=
  [.start binds, .store true, .check, .accept .connected,
    .relay 0 .outbound (.poll ⟨false, .ok (emptyMessage ++ emptyMessage)⟩),
    .relay 0 .inbound (.poll ⟨false, .ok emptyMessage⟩), .relay 0 .outbound (.load true),
    .relay 0 .inbound (.load true), .relay 0 .outbound (.act .ok), .relay 0 .outbound (.load true),
    .relay 0 .outbound (.act .ok), .relay 0 .inbound (.act .ok)]

/-- A proxy that lets one order pass. -/
def throttled : ProxySystem (FixAdapter .release) :=
  new "127.0.0.1:1" "127.0.0.1:2" (.rateLimitThrottle (.new 1))

/-- **Each direction is relayed as if it were alone.** In every run of the proxy, with any
interleaving of its threads, of arming, disarming and stopping: a relay thread that is not in the
middle of a message is where `relay` would be with the reads, flags and writes of this thread and
the adapter as its session found it. What the other thread did to the adapter does not matter. -/
theorem session_relays {adapter : FixAdapter build} {s : ProxySystem (FixAdapter build)}
    {listenAddr upstreamAddr : String} {events : List ProxyEvent}
    (h : run (step build) events (new listenAddr upstreamAddr adapter) = some s)
    {session : Session (FixAdapter build)} (hsession : session ∈ s.sessions)
    {direction : Direction} {status : RelayStatus}
    (hstatus : (session.threads direction).status? = some status) :
    ∃ b bound, ∀ fuel ≥ bound,
      relay build direction (envOf (eventsOf direction session.events)) fuel
          (pollsIn (eventsOf direction session.events)) session.opening =
        some ⟨(session.threads direction).buf, (session.threads direction).log.sharing b,
          status⟩ := by
  obtain ⟨b, hb⟩ := exists_run_alone h hsession direction
  exact ⟨b, Thread.relay_of_run hb hstatus⟩

/-- The first order and the message for the client have passed, the second order has not. -/
theorem session_relays_servedRun :
    ∃ s session, run (step .release) servedRun throttled = some s ∧ session ∈ s.sessions ∧
      (session.threads .outbound).log.written = emptyMessage ∧
      (session.threads .inbound).log.written = emptyMessage ∧
      ∀ direction, ∃ b bound, ∀ fuel ≥ bound,
        relay .release direction (envOf (eventsOf direction session.events)) fuel
            (pollsIn (eventsOf direction session.events)) session.opening =
          some ⟨(session.threads direction).buf, (session.threads direction).log.sharing b,
            .running⟩ := by
  obtain ⟨s, hs, hdata⟩ : ∃ s, run (step .release) servedRun throttled = some s ∧
      (s.sessions.map fun x => ((x.threads .outbound).status?, (x.threads .inbound).status?,
          (x.threads .outbound).log.written, (x.threads .inbound).log.written)) =
        [(some .running, some .running, emptyMessage, emptyMessage)] :=
    Option.map_eq_some_iff.mp rfl
  obtain ⟨session, hsessions, hsession⟩ := List.map_eq_singleton_iff.mp hdata
  simp only [Prod.mk.injEq] at hsession
  obtain ⟨hout, hin, hwout, hwin⟩ := hsession
  have hmem : session ∈ s.sessions := by rw [hsessions]; exact List.mem_singleton_self _
  refine ⟨s, session, hs, hmem, hwout, hwin, fun direction => ?_⟩
  cases direction with
  | outbound => exact session_relays hs hmem hout
  | inbound => exact session_relays hs hmem hin

/-- **Nothing is lost, doubled or reordered.** At every moment of every run, for each session and
direction: the messages dealt with, the one in hand and the buffer are together the bytes read;
and the bytes written are a prefix of what the adapter's answers to these messages come to, taken
one after the other from the adapter as the session found it. They are all of it unless a panic
or a failed write cut the thread short. -/
theorem session_bytes {adapter : FixAdapter build} {s : ProxySystem (FixAdapter build)}
    {listenAddr upstreamAddr : String} {events : List ProxyEvent}
    (h : run (step build) events (new listenAddr upstreamAddr adapter) = some s)
    {session : Session (FixAdapter build)} (hsession : session ∈ s.sessions)
    (direction : Direction) :
    let own := eventsOf direction session.events
    let thread := session.threads direction
    let expected := due direction (envOf own).enabled 0 session.opening thread.log.frames
    thread.log.frames.flatten ++ thread.pending ++ thread.buf = bytesIn own ∧
      thread.log.written <+: expected ∧
      (thread.Unbroken own → thread.log.written = expected) := by
  intro own thread expected
  obtain ⟨b, hb⟩ := exists_run_alone h hsession direction
  obtain ⟨more, hframes, hwithin, hwhole⟩ :=
    Thread.written_of_run hb (Thread.supplies_new own)
  obtain rfl : thread.log.frames = more := hframes
  exact ⟨Thread.bytes_of_run hb, hwithin, hwhole⟩

/-- After ten events the outbound thread has written the first order and has the second in hand. -/
theorem session_bytes_servedRun :
    ∃ s session, run (step .release) (servedRun.take 10) throttled = some s ∧
      session ∈ s.sessions ∧ (session.threads .outbound).pending = emptyMessage ∧
      (session.threads .outbound).log.written = emptyMessage ∧
      (session.threads .outbound).log.frames.flatten ++ (session.threads .outbound).pending ++
        (session.threads .outbound).buf = bytesIn (eventsOf .outbound session.events) ∧
      (session.threads .outbound).log.written <+:
        due .outbound (envOf (eventsOf .outbound session.events)).enabled 0 session.opening
          (session.threads .outbound).log.frames := by
  obtain ⟨s, hs, hdata⟩ : ∃ s, run (step .release) (servedRun.take 10) throttled = some s ∧
      (s.sessions.map fun x => ((x.threads .outbound).pending,
        (x.threads .outbound).log.written)) = [(emptyMessage, emptyMessage)] :=
    Option.map_eq_some_iff.mp rfl
  obtain ⟨session, hsessions, hsession⟩ := List.map_eq_singleton_iff.mp hdata
  simp only [Prod.mk.injEq] at hsession
  have hmem : session ∈ s.sessions := by rw [hsessions]; exact List.mem_singleton_self _
  obtain ⟨hbytes, hwithin, -⟩ := session_bytes hs hmem .outbound
  exact ⟨s, session, hs, hmem, hsession.1, hsession.2, hbytes, hwithin⟩

/-- **Sessions do not overlap.** In every run all sessions but the latest have ended in both
directions, and so has the latest one when another is opened. -/
theorem sessions_do_not_overlap {listenAddr upstreamAddr : String} {adapter : A}
    {events : List ProxyEvent}
    (h : run (step build) events (new listenAddr upstreamAddr adapter) = some s) :
    (∀ session ∈ s.sessions.dropLast, session.Over) ∧
      ∀ e s', step build s e = some s' → s'.sessions.length ≠ s.sessions.length →
        ∀ session ∈ s.sessions, session.Over := by
  have horderly := orderly_of_run h
  refine ⟨horderly.earlier, fun e s' hstep hlen => ?_⟩
  rcases step_sessions horderly hstep with ⟨hsessions, -⟩ | ⟨hpc, -, -⟩ |
    ⟨-, session, direction, te, a, t, -, hrelay⟩
  · exact absurd (congrArg List.length hsessions) hlen
  · exact horderly.all_over fun direction hc => by
      rw [hpc] at hc
      cases hc
  · refine absurd ?_ hlen
    rw [hrelay.after]
    conv_rhs => rw [hrelay.before]
    rw [List.length_append, List.length_append]
    rfl

/-- Both sides close, both threads are joined, and the accept thread is about to accept again. -/
def closedRun : List ProxyEvent :=
  servedRun ++ [.relay 0 .inbound (.poll ⟨false, .ok []⟩),
    .relay 0 .outbound (.poll ⟨false, .ok []⟩), .joined, .joined, .check]

/-- A second client is served after the first one. -/
theorem sessions_do_not_overlap_closedRun :
    ∃ s s', run (step .release) closedRun throttled = some s ∧
      step .release s (.accept .connected) = some s' ∧ s'.sessions.length = 2 ∧
      (∀ session ∈ s.sessions, session.Over) ∧ ∀ session ∈ s'.sessions.dropLast, session.Over := by
  obtain ⟨s, hs, hdata⟩ : ∃ s, run (step .release) closedRun throttled = some s ∧
      (s.sessions.length, (step .release s (.accept .connected)).map fun s' => s'.sessions.length) =
        (1, some 2) := Option.map_eq_some_iff.mp rfl
  rw [Prod.mk.injEq] at hdata
  obtain ⟨s', hs', hlen⟩ := Option.map_eq_some_iff.mp hdata.2
  have hrun : run (step .release) (closedRun ++ [.accept .connected]) throttled = some s' := by
    rw [Lib.run_append, hs]
    exact Lib.run_singleton hs'
  refine ⟨s, s', hs, hs', hlen, ?_, (sessions_do_not_overlap hrun).1⟩
  exact (sessions_do_not_overlap hs).2 _ s' hs' (by rw [hlen, hdata.1]; decide)

end ProxySystem

end Blackswan.Fix
