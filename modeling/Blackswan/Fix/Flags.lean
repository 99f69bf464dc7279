import Blackswan.Fix.Chain
import Blackswan.Fix.Lifecycle

/-!
# The flags that the relay threads load

Every message is treated by the `enabled` flag as its relay thread finds it. `flagsOf_step` says
what one event of the proxy does to the flags loaded so far: a load adds the flag as it is, and
nothing else does anything. The threads do not touch the flag itself (`enabled_of_inner`), and no
message changes how an adapter treats inbound ones (`kept_of_run`). A thread has loaded a flag for
each message it has dealt with (`frames_le_flags`).
-/

namespace Blackswan.Fix

open Lib (run eventsOf)
open ProtocolAdapter (intercept)

variable {build : Build}

/-! ## The flags of a proxy -/

/-- The thread whose flag this event loads. -/
def ProxyEvent.load? : ProxyEvent → Option (ℕ × Direction)
  | .relay k direction (.load _) => some (k, direction)
  | _ => none

/-- An event of a thread of the proxy, and not a call on it. -/
def ProxyEvent.Inner : ProxyEvent → Prop
  | .start _ | .store _ | .stop | .stopped => False
  | _ => True

instance (e : ProxyEvent) : Decidable e.Inner := by
  cases e <;> unfold ProxyEvent.Inner <;> infer_instance

theorem flagsIn_append (events more : List ThreadEvent) :
    flagsIn (events ++ more) = flagsIn events ++ flagsIn more := List.filterMap_append

theorem eventsOf_concat (direction d : Direction) (events : List (Direction × ThreadEvent))
    (e : ThreadEvent) : eventsOf direction (events ++ [(d, e)]) =
      eventsOf direction events ++ if d = direction then [e] else [] := by
  unfold eventsOf
  rw [List.filterMap_append]
  by_cases h : d = direction <;> simp [h]

namespace ProxySystem

section
variable {A : Type}

/-- The flags that a relay thread of the `k`-th session has loaded. -/
def flagsOf (s : ProxySystem A) (k : ℕ) (direction : Direction) : List Bool :=
  (s.sessions[k]?.map fun session => flagsIn (eventsOf direction session.events)).getD []

variable [ProtocolAdapter A] {s s' : ProxySystem A}

/-- What a step of a relay thread leaves. -/
theorem relay_eq_some {k : ℕ} {d : Direction} {te : ThreadEvent}
    (hstep : step build s (.relay k d te) = some s') :
    ∃ session a threads, s.sessions[k]? = some session ∧ s.Sees te ∧
      Thread.step build d (s.proxy.adapter, session.threads d) te = some (a, threads d) ∧
      s' = { s with
        proxy := { s.proxy with adapter := a }
        sessions := s.sessions.set k ⟨session.opening, session.events ++ [(d, te)], threads⟩ } := by
  rw [step] at hstep
  split at hstep
  · rename_i session hk
    split_ifs at hstep with hsees
    obtain ⟨⟨a, threads⟩, hr, rfl⟩ := Option.map_eq_some_iff.mp hstep
    obtain ⟨t, ht, hthreads⟩ := Lib.interleave_eq_some hr
    dsimp only at ht hthreads
    refine ⟨session, a, threads, hk, hsees, ?_, rfl⟩
    rw [hthreads, Function.update_self]
    exact ht
  · cases hstep

omit [ProtocolAdapter A] in
/-- The flag that an event of a thread adds to those of a direction. -/
theorem flagsIn_event (k : ℕ) (d direction : Direction) {te : ThreadEvent} (hsees : s.Sees te) :
    flagsIn (if d = direction then [te] else []) =
      if (ProxyEvent.relay k d te).load? = some (k, direction) then [s.proxy.enabled] else [] := by
  cases te with
  | load enabled =>
    obtain rfl : enabled = s.proxy.enabled := hsees
    by_cases hd : d = direction <;> simp [hd, ProxyEvent.load?, flagsIn]
  | poll p => by_cases hd : d = direction <;> simp [hd, ProxyEvent.load?, flagsIn]
  | act w => by_cases hd : d = direction <;> simp [hd, ProxyEvent.load?, flagsIn]

/-- An event of another kind leaves the sessions, or opens one. -/
theorem sessions_of_not_relay (h : Orderly s) {e : ProxyEvent}
    (hstep : step build s e = some s') (hnot : ∀ k d te, e ≠ .relay k d te) :
    s'.proxy.adapter = s.proxy.adapter ∧
      (s'.sessions = s.sessions ∨ s'.sessions = s.sessions ++ [.new s.proxy.adapter]) := by
  rcases step_sessions h hstep with ⟨hsessions, hadapter⟩ | ⟨-, hsessions, hadapter⟩ |
    ⟨k, -, d, te, -, -, he, -⟩
  · exact ⟨hadapter, Or.inl hsessions⟩
  · exact ⟨hadapter, Or.inr hsessions⟩
  · exact absurd he (hnot k d te)

/-- The threads of the proxy do not touch the flag. -/
theorem enabled_of_inner {e : ProxyEvent} (hinner : e.Inner) (hstep : step build s e = some s') :
    s'.proxy.enabled = s.proxy.enabled := by
  cases e with
  | check =>
    rw [step] at hstep
    split at hstep <;> cases hstep
    rfl
  | accept result =>
    rw [step] at hstep
    split_ifs at hstep
    cases hstep
    cases result <;> rfl
  | joined =>
    rw [step] at hstep
    split at hstep
    · split_ifs at hstep
      cases hstep
      rfl
    · cases hstep
  | relay k d te =>
    obtain ⟨session, a, threads, -, -, -, rfl⟩ := relay_eq_some hstep
    rfl
  | start env => exact absurd hinner id
  | store enabled => exact absurd hinner id
  | stop => exact absurd hinner id
  | stopped => exact absurd hinner id

/-- **What an event does to the flags loaded**: a load adds the flag as it is. -/
theorem flagsOf_step (h : Orderly s) {e : ProxyEvent} (hstep : step build s e = some s') (k : ℕ)
    (direction : Direction) : s'.flagsOf k direction =
      s.flagsOf k direction ++ if e.load? = some (k, direction) then [s.proxy.enabled] else [] := by
  by_cases hrelay : ∃ k' d te, e = .relay k' d te
  · obtain ⟨k', d, te, rfl⟩ := hrelay
    obtain ⟨session, a, threads, hk', hsees, -, rfl⟩ := relay_eq_some hstep
    have hlt : k' < s.sessions.length := (List.getElem?_eq_some_iff.mp hk').1
    unfold flagsOf
    dsimp only
    by_cases hk : k' = k
    · subst hk
      rw [List.getElem?_set_self hlt, hk', Option.map_some, Option.map_some, Option.getD_some,
        Option.getD_some, eventsOf_concat, flagsIn_append]
      rw [flagsIn_event k' d direction hsees]
    · have hload : (ProxyEvent.relay k' d te).load? ≠ some (k, direction) := by
        cases te <;> simp [ProxyEvent.load?, hk]
      rw [List.getElem?_set_ne hk, if_neg hload, List.append_nil]
  · have hnot : ∀ k d te, e ≠ .relay k d te := fun k d te he => hrelay ⟨k, d, te, he⟩
    have hload : e.load? ≠ some (k, direction) := by
      cases e with
      | relay k' d te => exact absurd rfl (hnot k' d te)
      | _ => exact fun hc => by cases hc
    rw [if_neg hload, List.append_nil]
    unfold flagsOf
    rcases (sessions_of_not_relay h hstep hnot).2 with hsame | hopened
    · rw [hsame]
    · -- a session that is opened has loaded no flag
      rw [hopened, List.getElem?_append]
      split_ifs with hlt
      · rfl
      · rw [List.getElem?_eq_none (Nat.le_of_not_lt hlt), List.getElem?_singleton]
        split_ifs <;> rfl

end

/-! ## The adapter of a proxy -/

/-- Any message leaves an adapter as it was for inbound ones. -/
theorem alike_answer {a adapter : FixAdapter build} (h : FixAdapter.Alike .inbound a adapter)
    (d : Direction) (enabled : Bool) (m : List UInt8) :
    FixAdapter.Alike .inbound (answer d enabled a m).2 adapter := by
  unfold answer
  split_ifs
  · cases d with
    | inbound =>
      rw [FixAdapter.intercept_inbound]
      exact h
    | outbound => exact FixAdapter.alike_other _ (fun hc => by cases hc) h
  · exact h

theorem alike_thread {a b adapter : FixAdapter build} (h : FixAdapter.Alike .inbound a adapter)
    {d : Direction} {te : ThreadEvent} {t t' : Thread}
    (hstep : Thread.step build d (a, t) te = some (b, t')) :
    FixAdapter.Alike .inbound b adapter := by
  rcases Thread.step_cases hstep with ⟨p, -, -, heq⟩ | ⟨f, m, -, -, heq⟩ | ⟨w, m, f, -, -, heq⟩
  · obtain rfl : b = a := congrArg Prod.fst heq
    exact h
  · obtain rfl : b = a := congrArg Prod.fst heq
    exact h
  · have hb : b = (answer d f a m).2 :=
      (congrArg Prod.fst heq).trans (Thread.act_writes build d m f w a t).1
    rw [hb]
    exact alike_answer h d f m

/-- The adapter, now and as each session found it, treats inbound messages as it did at first. -/
structure Kept (adapter : FixAdapter build) (s : ProxySystem (FixAdapter build)) : Prop where
  now : FixAdapter.Alike .inbound s.proxy.adapter adapter
  openings : ∀ session ∈ s.sessions, FixAdapter.Alike .inbound session.opening adapter

theorem Kept.step {adapter : FixAdapter build} {s s' : ProxySystem (FixAdapter build)}
    (h : Kept adapter s) (horderly : Orderly s) {e : ProxyEvent}
    (hstep : step build s e = some s') : Kept adapter s' := by
  by_cases hrelay : ∃ k d te, e = .relay k d te
  · obtain ⟨k, d, te, rfl⟩ := hrelay
    obtain ⟨session, a, threads, hk, -, hmade, rfl⟩ := relay_eq_some hstep
    refine ⟨alike_thread h.now hmade, fun x hx => ?_⟩
    rcases List.mem_or_eq_of_mem_set hx with hold | rfl
    · exact h.openings x hold
    · exact h.openings session (List.mem_of_getElem? hk)
  · obtain ⟨hadapter, hsame | hopened⟩ := sessions_of_not_relay horderly hstep
      fun k d te he => hrelay ⟨k, d, te, he⟩
    · refine ⟨hadapter ▸ h.now, ?_⟩
      rw [hsame]
      exact h.openings
    · refine ⟨hadapter ▸ h.now, ?_⟩
      rw [hopened, List.forall_mem_append, List.forall_mem_singleton]
      exact ⟨h.openings, h.now⟩

theorem kept_of_run {listenAddr upstreamAddr : String} {adapter : FixAdapter build}
    {s : ProxySystem (FixAdapter build)} {events : List ProxyEvent}
    (h : run (step build) events (new listenAddr upstreamAddr adapter) = some s) :
    Kept adapter s := by
  refine (Lib.run_invariant (fun s => Orderly s ∧ Kept adapter s) ?_ ?_ h).2
  · exact fun s e s' hs hstep => ⟨orderly_step hs.1 hstep, hs.2.step hs.1 hstep⟩
  · exact ⟨orderly_new listenAddr upstreamAddr adapter, Or.inl rfl, fun _ hc => by cases hc⟩

end ProxySystem

theorem effect_alike {a b : FixAdapter build} (h : FixAdapter.Alike .inbound a b)
    (m : List UInt8) : effect a m = effect b m := by
  unfold effect
  rw [(FixAdapter.alike_own m h).1]

/-! ## The flags of a thread -/

def ThreadEvent.isLoad : ThreadEvent → Bool
  | .load _ => true
  | _ => false

theorem length_flagsIn (events : List ThreadEvent) :
    (flagsIn events).length = events.countP ThreadEvent.isLoad := by
  induction events with
  | nil => rfl
  | cons e events ih =>
    rw [List.countP_cons, ← ih]
    cases e <;> rfl

/-- A thread has loaded a flag for each message it has dealt with. -/
theorem frames_le_flags {A : Type} [ProtocolAdapter A] {direction : Direction} {a b : A}
    {t : Thread} {events : List ThreadEvent}
    (h : run (Thread.step build direction) events (a, .new) = some (b, t)) :
    t.log.frames.length ≤ (flagsIn events).length := by
  have hloads := Lib.run_measure_eq (fun s : A × Thread => s.2.loads) ThreadEvent.isLoad ?_ h
  · have hzero : Thread.new.loads = 0 := rfl
    have hle : t.log.frames.length ≤ t.loads := by
      unfold Thread.loads
      split <;> omega
    dsimp only at hloads
    rw [hzero, Nat.zero_add, ← length_flagsIn] at hloads
    omega
  · intro s e s' hstep
    rcases Thread.step_cases hstep with ⟨p, rfl, hpc, rfl⟩ | ⟨f, m, rfl, hpc, rfl⟩ |
      ⟨w, m, f, rfl, hpc, rfl⟩
    · have hbefore : s.2.loads = s.2.log.frames.length := by rw [Thread.loads, hpc]
      exact (Thread.loads_poll build p hpc).2.1.trans hbefore.symm
    · have hbefore : s.2.loads = s.2.log.frames.length := by rw [Thread.loads, hpc]
      rw [hbefore]
      rfl
    · have hbefore : s.2.loads = s.2.log.frames.length + 1 := by rw [Thread.loads, hpc]
      exact (Thread.loads_act build direction m f w s.1 s.2).2.1.trans hbefore.symm

/-- Messages with the numbers of their flags, and messages with what the flags stand for. -/
theorem filterMap_zipIdx {α : Type} (g : List UInt8 → Bool → Option α) (armed : ℕ → Bool)
    (messages : List (List UInt8)) (marks : List ℕ) (i : ℕ)
    (h : i + messages.length ≤ marks.length) :
    ((messages.zipIdx i).filterMap fun p => g p.1 ((marks.map armed).getD p.2 false)) =
      (messages.zip (marks.drop i)).filterMap fun p => g p.1 (armed p.2) := by
  induction messages generalizing i with
  | nil => rfl
  | cons m rest ih =>
    rw [List.length_cons] at h
    have hlt : i < marks.length := by omega
    rw [List.zipIdx_cons, List.drop_eq_getElem_cons hlt, List.zip_cons_cons, List.filterMap_cons,
      List.filterMap_cons, ih (i + 1) (by omega)]
    simp [List.getD_eq_getElem?_getD, List.getElem?_eq_getElem hlt]

end Blackswan.Fix
