import Blackswan.Fix.Lifecycle

/-!
# Stopping the proxy

What `stop`, a dead accept thread and a silent peer mean for the clients of the proxy, in any
interleaving of its threads.

1. `Barred`: once `shutdown` is set or the accept thread is gone, no session begins, whatever
   `start` returns (`no_session_once_barred`).
2. `Left` counts the steps that the threads have left after a call of `stop`. Every step lowers it
   (`left_step`). There is always one to make as long as what the threads wait for outside returns
   (`Answers`, `exists_step_of_stopping`). The sockets have a timeout for reads only, so this is an
   assumption about writes and about `connect`: a write that does not return keeps `stop` waiting
   (`blocked_step`).
3. `Held`: a side that neither sends nor closes keeps its relay thread waiting, and with it the
   accept thread and the next client (`silent_side_holds_proxy`).
-/

namespace Blackswan.Fix

open Lib (run interleave eventsOf Extracts)

variable {A : Type}

/-- A call of `start` or `stop`. -/
def ProxyEvent.isCall : ProxyEvent → Bool
  | .start _ => true
  | .stop => true
  | _ => false

/-- A step that one of the threads makes, or the waiting `stop` when it returns. -/
def ProxyEvent.isStep : ProxyEvent → Bool
  | .start _ => false
  | .stop => false
  | .store _ => false
  | _ => true

namespace ProxySystem

variable [ProtocolAdapter A] {build : Build} {s s' : ProxySystem A}

/-! ## No session after the end -/

/-- `stop` has been called, or the accept thread is gone while its handle is still there. -/
def Barred (s : ProxySystem A) : Prop :=
  s.shutdown = true ∨ s.proxy.running = true ∧ s.thread = some .finished

/-- One session may still begin: `accept` is about to be called. -/
def begins (s : ProxySystem A) : ℕ := if s.thread = some .accepting then 1 else 0

theorem barred_step (h : s.Barred) {e : ProxyEvent} (hstep : step build s e = some s') :
    s'.Barred ∧ s'.sessions.length + s'.begins ≤ s.sessions.length + s.begins := by
  cases e with
  | start env =>
    rw [step] at hstep
    split_ifs at hstep
    cases hstep
    rcases s.started_cases env with heq | ⟨hrun, heq⟩ <;> rw [heq]
    · exact ⟨h, Nat.le_refl _⟩
    · rcases h with hshutdown | ⟨hrun', -⟩
      · exact ⟨Or.inl hshutdown, Nat.le_add_right _ _⟩
      · rw [hrun] at hrun'
        cases hrun'
  | store enabled =>
    cases hstep
    exact ⟨h, Nat.le_refl _⟩
  | stop =>
    rw [step] at hstep
    split_ifs at hstep
    cases hstep
    exact ⟨Or.inl rfl, Nat.le_refl _⟩
  | stopped =>
    rw [step] at hstep
    split_ifs at hstep
    cases hstep
    exact ⟨h, Nat.le_refl _⟩
  | check =>
    rw [step] at hstep
    split at hstep
    · rename_i hpc
      cases hstep
      rcases h with hshutdown | ⟨-, hfin⟩
      · rw [if_pos hshutdown]
        exact ⟨Or.inl hshutdown, Nat.le_add_right _ _⟩
      · rw [hpc] at hfin
        cases hfin
    · cases hstep
  | accept result =>
    rw [step] at hstep
    split_ifs at hstep with hpc
    cases hstep
    have hone : s.begins = 1 := if_pos hpc
    rcases h with hshutdown | ⟨-, hfin⟩
    · rw [hone]
      cases result with
      | connected =>
        refine ⟨Or.inl hshutdown, ?_⟩
        show (s.sessions ++ [_]).length + 0 ≤ _
        rw [List.length_append]
        exact Nat.le_refl _
      | wouldBlock => exact ⟨Or.inl hshutdown, Nat.le_add_right _ _⟩
      | error => exact ⟨Or.inl hshutdown, Nat.le_add_right _ _⟩
      | unreachable => exact ⟨Or.inl hshutdown, Nat.le_add_right _ _⟩
      | uncloneable => exact ⟨Or.inl hshutdown, Nat.le_add_right _ _⟩
    · rw [hpc] at hfin
      cases hfin
  | joined =>
    rw [step] at hstep
    split at hstep
    · rename_i direction hpc
      split_ifs at hstep
      cases hstep
      rcases h with hshutdown | ⟨-, hfin⟩
      · refine ⟨Or.inl hshutdown, ?_⟩
        cases direction <;> exact Nat.le_add_right _ _
      · rw [hpc] at hfin
        cases hfin
    · cases hstep
  | relay k direction e =>
    rw [step] at hstep
    split at hstep
    · split_ifs at hstep
      obtain ⟨r, -, rfl⟩ := Option.map_eq_some_iff.mp hstep
      refine ⟨h, ?_⟩
      show (s.sessions.set k _).length + s.begins ≤ _
      rw [List.length_set]
    · cases hstep

/-- **A stopped proxy stays stopped.** Once `shutdown` is set, or the accept thread has ended on
its own, no session begins, however often `start` is called and whatever it returns, except for
one whose `accept` was already under way. -/
theorem no_session_once_barred (hbarred : s.Barred) {events : List ProxyEvent}
    (h : run (step build) events s = some s') :
    s'.sessions.length ≤
      s.sessions.length + if s.thread = some .accepting then 1 else 0 := by
  have hinv := Lib.run_invariant
    (fun x => x.Barred ∧ x.sessions.length + x.begins ≤ s.sessions.length + s.begins)
    (fun x e x' hx hstep => by
      obtain ⟨hb, hle⟩ := barred_step hx.1 hstep
      exact ⟨hb, hle.trans hx.2⟩)
    ⟨hbarred, Nat.le_refl _⟩ h
  exact (Nat.le_add_right _ _).trans hinv.2

/-- `stop`, then `start` again, which succeeds: the new accept thread ends at once. -/
theorem no_session_after_restart :
    ∃ s s' : ProxySystem (FixAdapter .release),
      run (step .release) [.start binds, .stop, .check, .stopped]
          (new "127.0.0.1:1" "127.0.0.1:2" (.silentReject ⟨⟩)) = some s ∧
        run (step .release) [.start binds, .check] s = some s' ∧
        s'.proxy.running = true ∧ s'.sessions.length ≤ s.sessions.length := by
  obtain ⟨s, hs, hdata⟩ : ∃ s : ProxySystem (FixAdapter .release),
      run (step .release) [.start binds, .stop, .check, .stopped]
          (new "127.0.0.1:1" "127.0.0.1:2" (.silentReject ⟨⟩)) = some s ∧
        (s.shutdown, s.thread, (run (step .release) [.start binds, .check] s).map
          fun s' => s'.proxy.running) = (true, some .finished, some true) :=
    Option.map_eq_some_iff.mp rfl
  simp only [Prod.mk.injEq] at hdata
  obtain ⟨hshutdown, hthread, hrest⟩ := hdata
  obtain ⟨s', hs', hrunning⟩ := Option.map_eq_some_iff.mp hrest
  have hle := no_session_once_barred (Or.inl hshutdown) hs'
  rw [hthread, if_neg (by decide)] at hle
  exact ⟨s, s', hs, hs', hrunning, hle⟩

end ProxySystem

/-! ## How `stop` returns -/

section
variable {build : Build} {direction : Direction}

/-- A relay thread that finds `shutdown` set at its next poll has `n` steps left: two for each
message that still stands at the front of its buffer and some for the one in hand. -/
def Thread.Left (build : Build) (t : Thread) (n : ℕ) : Prop :=
  match t.pc with
  | .polling => n = 1
  | .drained _ => ∃ frames rest, Extracts (framer build) t.buf frames rest ∧
      n = 2 * frames.length + 3
  | .loaded _ _ => ∃ frames rest, Extracts (framer build) t.buf frames rest ∧
      n = 2 * frames.length + 2
  | .returned => n = 0
  | .panicked => n = 0

theorem Thread.exists_left {t : Thread}
    (h : ∃ frames rest, Extracts (framer build) t.buf frames rest) : ∃ n, t.Left build n := by
  obtain ⟨frames, rest, hext⟩ := h
  unfold Thread.Left
  cases t.pc with
  | polling => exact ⟨1, rfl⟩
  | drained _ => exact ⟨_, frames, rest, hext, rfl⟩
  | loaded _ _ => exact ⟨_, frames, rest, hext, rfl⟩
  | returned => exact ⟨0, rfl⟩
  | panicked => exact ⟨0, rfl⟩

/-- A look at the buffer finds the first of the messages in it, or nothing. -/
theorem Thread.exists_left_look {t : Thread} {frames : List (List UInt8)} {rest : List UInt8}
    (h : Extracts (framer build) t.buf frames rest) :
    ∃ n ≤ 2 * frames.length + 1, (t.look build).Left build n := by
  rcases t.look_cases build with ⟨n, hf, hlook⟩ | ⟨hno, ⟨-, hlook⟩ | ⟨-, hlook⟩⟩ <;> rw [hlook]
  · cases h with
    | stop hno => exact absurd hf (hno n)
    | @cut b n' frames rest hf' hext =>
      rw [hf', Lib.Verdict.frame.injEq] at hf
      subst hf
      exact ⟨2 * frames.length + 3, by rw [List.length_cons]; omega, frames, rest, hext, rfl⟩
  · exact ⟨1, by omega, rfl⟩
  · exact ⟨0, by omega, rfl⟩

variable [ProtocolAdapter A]

/-- **Step lemma.** Every step of the thread brings it nearer to its end. -/
theorem Thread.left_step {s s' : A × Thread} {e : ThreadEvent} {n : ℕ} (h : s.2.Left build n)
    (hshutdown : ∀ p, e = .poll p → p.shutdown = true)
    (hstep : Thread.step build direction s e = some s') : ∃ m < n, s'.2.Left build m := by
  unfold Thread.Left at h
  rcases Thread.step_cases hstep with ⟨p, rfl, hpc, rfl⟩ | ⟨f, m, rfl, hpc, rfl⟩ |
    ⟨w, m, f, rfl, hpc, rfl⟩ <;> rw [hpc] at h
  · obtain rfl : n = 1 := h
    refine ⟨0, Nat.one_pos, ?_⟩
    show (s.2.poll build p).Left build 0
    rw [Thread.poll, if_pos (hshutdown p rfl)]
    exact rfl
  · obtain ⟨frames, rest, hext, rfl⟩ := h
    exact ⟨2 * frames.length + 2, by omega, frames, rest, hext, rfl⟩
  · obtain ⟨frames, rest, hext, rfl⟩ := h
    unfold Thread.act
    dsimp only
    split
    · obtain ⟨k, hk, hleft⟩ := Thread.exists_left_look (t := ⟨s.2.pc, s.2.buf,
        (deliver direction ⟨fun _ => f, fun _ => w⟩ m (s.2.log.sharing s.1)).1.apart⟩) hext
      exact ⟨k, by omega, hleft⟩
    · exact ⟨0, by omega, rfl⟩
    · exact ⟨0, by omega, rfl⟩

end

namespace ProxySystem

variable [ProtocolAdapter A] {build : Build} {s s' : ProxySystem A}

/-- What may happen next, given what the outside answers: the threads go on by themselves, a read
returns, by its timeout if nothing else, and so do every write, and every `accept` with the
`connect` that follows it. -/
structure Answers (offered : ProxyEvent → Prop) : Prop where
  check : offered .check
  joined : offered .joined
  stopped : offered .stopped
  load : ∀ k direction enabled, offered (.relay k direction (.load enabled))
  read : ∀ k direction shutdown, ∃ r, offered (.relay k direction (.poll ⟨shutdown, r⟩))
  write : ∀ k direction, ∃ result, offered (.relay k direction (.act result))
  accept : ∃ result, offered (.accept result)

/-- A relay thread that has not ended has a step to make. -/
theorem exists_thread_step (build : Build) (s : ProxySystem A) {offered : ProxyEvent → Prop}
    (hanswers : Answers offered) {t : Thread} (h : ¬ t.Over) (k : ℕ) (direction : Direction) :
    ∃ e, offered (.relay k direction e) ∧ s.Sees e ∧
      ∃ r, Thread.step build direction (s.proxy.adapter, t) e = some r := by
  cases hpc : t.pc with
  | polling =>
    obtain ⟨r, hr⟩ := hanswers.read k direction s.shutdown
    exact ⟨.poll ⟨s.shutdown, r⟩, hr, rfl, _, by rw [Thread.step, hpc]⟩
  | drained m =>
    exact ⟨.load s.proxy.enabled, hanswers.load k direction _, rfl, _, by rw [Thread.step, hpc]⟩
  | loaded m f =>
    obtain ⟨result, hresult⟩ := hanswers.write k direction
    exact ⟨.act result, hresult, trivial, _, by rw [Thread.step, hpc]⟩
  | returned => exact absurd (Or.inl hpc) h
  | panicked => exact absurd (Or.inr hpc) h

/-- How many steps the accept thread has left once `shutdown` is set, the relay threads of a
session it may still open included. -/
def acceptLeft : Option AcceptPc → ℕ
  | none => 0
  | some .finished => 0
  | some .checking => 1
  | some (.joining .inbound) => 2
  | some (.joining .outbound) => 3
  | some .accepting => 6

/-- How many steps the relay threads of the latest session have left. -/
def SessionLeft (build : Build) : Option (Session A) → ℕ → Prop
  | none, n => n = 0
  | some session, n => ∃ o i, (session.threads .outbound).Left build o ∧
      (session.threads .inbound).Left build i ∧ n = o + i

/-- After a call of `stop`: how many steps all the threads have left, until it has returned. -/
structure Left (build : Build) (s : ProxySystem A) (n : ℕ) : Prop where
  orderly : Orderly s
  shutdown : s.shutdown = true
  bound : ∃ m, SessionLeft build s.sessions.getLast? m ∧
    n = acceptLeft s.thread + m + if s.stopping then 1 else 0

omit [ProtocolAdapter A] in
/-- The accept thread moves on, the sessions stay as they are. -/
theorem Left.moves {n : ℕ} (h : Left build s n) {next : AcceptPc}
    (horderly : Orderly { s with thread := some next })
    (hlt : acceptLeft (some next) < acceptLeft s.thread) :
    ∃ m, Left build { s with thread := some next } m ∧ m + 1 ≤ n := by
  obtain ⟨m, hm, rfl⟩ := h.bound
  exact ⟨acceptLeft (some next) + m + if s.stopping then 1 else 0,
    ⟨horderly, h.shutdown, m, hm, rfl⟩, by omega⟩

/-- A relay thread of the latest session makes a step. -/
theorem Left.relays {n : ℕ} (h : Left build s n) (horderly : Orderly s')
    {session : Session A} {direction : Direction} {e : ThreadEvent} {a : A} {t : Thread}
    (hrelay : Relays build s s' session direction e a t) (hthread : s'.thread = s.thread)
    (hstopping : s'.stopping = s.stopping) (hshutdown : s'.shutdown = s.shutdown) :
    ∃ m, Left build s' m ∧ m + 1 ≤ n := by
  obtain ⟨m, hm, rfl⟩ := h.bound
  rw [hrelay.before, List.getLast?_concat] at hm
  obtain ⟨o, i, ho, hi, rfl⟩ := hm
  have hpoll : ∀ p, e = .poll p → p.shutdown = true := by
    rintro p rfl
    exact hrelay.sees.trans h.shutdown
  have hlast : s'.sessions.getLast? = some ⟨session.opening, session.events ++ [(direction, e)],
      Function.update session.threads direction t⟩ := by
    rw [hrelay.after, List.getLast?_concat]
  cases direction with
  | outbound =>
    obtain ⟨o', ho', hleft⟩ := Thread.left_step ho hpoll hrelay.made
    refine ⟨acceptLeft s.thread + (o' + i) + if s.stopping then 1 else 0,
      ⟨horderly, hshutdown.trans h.shutdown, o' + i, ?_, by rw [hthread, hstopping]⟩, by omega⟩
    rw [hlast]
    exact ⟨o', i, hleft, hi, rfl⟩
  | inbound =>
    obtain ⟨i', hi', hleft⟩ := Thread.left_step hi hpoll hrelay.made
    refine ⟨acceptLeft s.thread + (o + i') + if s.stopping then 1 else 0,
      ⟨horderly, hshutdown.trans h.shutdown, o + i', ?_, by rw [hthread, hstopping]⟩, by omega⟩
    rw [hlast]
    exact ⟨o, i', ho, hleft, rfl⟩

/-- **Step lemma.** After a call of `stop` every step of a thread is one less to make. -/
theorem left_step {n : ℕ} (h : Left build s n) {e : ProxyEvent} (hcall : e.isCall = false)
    (hstep : step build s e = some s') :
    ∃ m, Left build s' m ∧ m + (if e.isStep then 1 else 0) ≤ n := by
  have horderly := orderly_step h.orderly hstep
  cases e with
  | start env => cases hcall
  | stop => cases hcall
  | store enabled =>
    cases hstep
    exact ⟨n, ⟨horderly, h.shutdown, h.bound⟩, Nat.le_refl n⟩
  | stopped =>
    rw [step] at hstep
    split_ifs at hstep with hfin
    cases hstep
    obtain ⟨m, hm, rfl⟩ := h.bound
    refine ⟨acceptLeft s.thread + m, ⟨horderly, h.shutdown, m, hm, rfl⟩, ?_⟩
    rw [if_pos hfin.1]
    exact Nat.le_refl _
  | check =>
    rw [step] at hstep
    split at hstep
    · rename_i hpc
      cases hstep
      rw [if_pos h.shutdown] at horderly ⊢
      exact h.moves horderly (by rw [hpc]; decide)
    · cases hstep
  | accept result =>
    rw [step] at hstep
    split_ifs at hstep with hpc
    cases hstep
    cases result with
    | connected =>
      obtain ⟨m, hm, rfl⟩ := h.bound
      refine ⟨3 + (1 + 1) + if s.stopping then 1 else 0,
        ⟨horderly, h.shutdown, 1 + 1, ?_, rfl⟩, ?_⟩
      · show SessionLeft build (s.sessions ++ [_]).getLast? _
        rw [List.getLast?_concat]
        exact ⟨1, 1, rfl, rfl, rfl⟩
      · rw [hpc]
        show 3 + (1 + 1) + _ + 1 ≤ 6 + m + _
        omega
    | wouldBlock => exact h.moves horderly (by rw [hpc]; decide)
    | error => exact h.moves horderly (by rw [hpc]; decide)
    | unreachable => exact h.moves horderly (by rw [hpc]; decide)
    | uncloneable => exact h.moves horderly (by rw [hpc]; decide)
  | joined =>
    rw [step] at hstep
    split at hstep
    · rename_i direction hpc
      split_ifs at hstep with hjoin
      cases hstep
      refine h.moves horderly ?_
      rw [hpc]
      cases direction <;> decide
    · cases hstep
  | relay k direction te =>
    rw [step] at hstep
    split at hstep
    · rename_i session hk
      split_ifs at hstep with hsees
      obtain ⟨a, t, hmade, hbefore, rfl, -⟩ := h.orderly.of_relayed hk hstep
      exact h.relays horderly ⟨hsees, hmade, hbefore, rfl, rfl⟩ rfl rfl rfl
    · cases hstep

/-- **Progress.** While `stop` waits, some thread has a step to make. -/
theorem exists_step_of_stopping {offered : ProxyEvent → Prop} (hanswers : Answers offered)
    (h : Orderly s) (hstop : s.stopping = true) :
    ∃ e s', e.isStep = true ∧ offered e ∧ step build s e = some s' := by
  cases hpc : s.thread with
  | none => exact absurd hpc (h.handle (Or.inr hstop))
  | some pc =>
    cases pc with
    | checking => exact ⟨.check, _, rfl, hanswers.check, by rw [step, if_pos hpc]⟩
    | accepting =>
      obtain ⟨result, hresult⟩ := hanswers.accept
      exact ⟨.accept result, _, rfl, hresult, by rw [step, if_pos hpc]⟩
    | finished => exact ⟨.stopped, _, rfl, hanswers.stopped, by rw [step, if_pos ⟨hstop, hpc⟩]⟩
    | joining direction =>
      by_cases hjoin : s.Joinable direction
      · exact ⟨.joined, _, rfl, hanswers.joined, by rw [step, hpc]; exact if_pos hjoin⟩
      · -- the thread that is waited for has not ended
        simp only [Joinable, not_forall] at hjoin
        obtain ⟨session, hlast, halive⟩ := hjoin
        obtain ⟨e, hoffered, hsees, r, hr⟩ :=
          exists_thread_step build s hanswers halive (s.sessions.length - 1) direction
        have hk : s.sessions[s.sessions.length - 1]? = some session := by
          rw [← List.getLast?_eq_getElem?]
          exact hlast
        obtain ⟨s', hs'⟩ : ∃ s', relayed build s (s.sessions.length - 1) session (direction, e) =
            some s' := ⟨_, by rw [relayed, interleave, hr]; rfl⟩
        refine ⟨.relay (s.sessions.length - 1) direction e, s', rfl, hoffered, ?_⟩
        rw [step, hk]
        exact (if_pos hsees).trans hs'

/-- While `stop` waits, the relay thread of `direction` in the latest session is at its write. -/
structure Blocked (direction : Direction) (s : ProxySystem A) : Prop where
  orderly : Orderly s
  stopping : s.stopping = true
  writing : ∃ session ∈ s.sessions.getLast?, ∃ m f, (session.threads direction).pc = .loaded m f

omit [ProtocolAdapter A] in
theorem Blocked.joining {direction : Direction} (h : Blocked direction s) :
    ∃ d, s.thread = some (.joining d) := by
  obtain ⟨session, hlast, m, f, hpc⟩ := h.writing
  by_contra hnot
  have hover := h.orderly.all_over (fun d hd => hnot ⟨d, hd⟩) session
    (List.mem_of_getLast? hlast) direction
  unfold Thread.Over at hover
  rw [hpc] at hover
  rcases hover with hc | hc <;> cases hc

/-- `shutdown` is set by `stop` only, and only `stop` and its return change that `stop` waits. -/
theorem flags_step {e : ProxyEvent} (hstep : step build s e = some s') :
    e = .stop ∨ s'.shutdown = s.shutdown ∧
      (s'.stopping = s.stopping ∨ e = .stopped ∧ s.thread = some .finished) := by
  cases e with
  | start env =>
    rw [step] at hstep
    split_ifs at hstep
    cases hstep
    exact Or.inr ⟨rfl, Or.inl rfl⟩
  | store enabled =>
    cases hstep
    exact Or.inr ⟨rfl, Or.inl rfl⟩
  | stop => exact Or.inl rfl
  | stopped =>
    rw [step] at hstep
    split_ifs at hstep with hfin
    cases hstep
    exact Or.inr ⟨rfl, Or.inr ⟨rfl, hfin.2⟩⟩
  | check =>
    rw [step] at hstep
    split at hstep <;> cases hstep
    exact Or.inr ⟨rfl, Or.inl rfl⟩
  | accept result =>
    rw [step] at hstep
    split_ifs at hstep
    cases hstep
    cases result <;> exact Or.inr ⟨rfl, Or.inl rfl⟩
  | joined =>
    rw [step] at hstep
    split at hstep
    · split_ifs at hstep
      cases hstep
      exact Or.inr ⟨rfl, Or.inl rfl⟩
    · cases hstep
  | relay k direction e =>
    rw [step] at hstep
    split at hstep
    · split_ifs at hstep
      obtain ⟨r, -, rfl⟩ := Option.map_eq_some_iff.mp hstep
      exact Or.inr ⟨rfl, Or.inl rfl⟩
    · cases hstep

theorem shutdown_step {e : ProxyEvent} (he : e ≠ .stop) (hstep : step build s e = some s') :
    s'.shutdown = s.shutdown :=
  ((flags_step hstep).resolve_left he).1

theorem stopping_step {e : ProxyEvent} (hcall : e.isCall = false) {d : Direction}
    (hthread : s.thread = some (.joining d)) (hstep : step build s e = some s') :
    s'.stopping = s.stopping := by
  obtain rfl | ⟨-, hsame | ⟨-, hfinished⟩⟩ := flags_step hstep
  · cases hcall
  · exact hsame
  · rw [hthread] at hfinished
    cases hfinished

theorem blocked_step {direction : Direction} (h : Blocked direction s) {e : ProxyEvent}
    (hcall : e.isCall = false) (hwrite : ∀ k result, e ≠ .relay k direction (.act result))
    (hstep : step build s e = some s') : Blocked direction s' := by
  obtain ⟨session, hlast, m, f, hpc⟩ := h.writing
  obtain ⟨d, hthread⟩ := h.joining
  refine ⟨orderly_step h.orderly hstep, (stopping_step hcall hthread hstep).trans h.stopping, ?_⟩
  rcases step_sessions h.orderly hstep with ⟨hsessions, -⟩ | ⟨haccepting, -, -⟩ |
    ⟨k, session', direction', te, a, t, rfl, hrelay⟩
  · rw [hsessions]
    exact ⟨session, hlast, m, f, hpc⟩
  · rw [hthread] at haccepting
    cases haccepting
  · have hsame : session' = session := by
      rw [hrelay.before, List.getLast?_concat] at hlast
      exact Option.some.inj hlast
    subst hsame
    rw [hrelay.after, List.getLast?_concat]
    refine ⟨_, rfl, m, f, ?_⟩
    by_cases hd : direction = direction'
    · -- at its write a thread makes no other step
      subst hd
      rcases Thread.step_cases hrelay.made with ⟨p, rfl, hpc', -⟩ | ⟨flag, m', rfl, hpc', -⟩ |
        ⟨w, m', flag, rfl, -, -⟩
      · rw [hpc] at hpc'
        cases hpc'
      · rw [hpc] at hpc'
        cases hpc'
      · exact absurd rfl (hwrite k w)
    · show (Function.update session'.threads direction' t direction).pc = _
      rw [Function.update_of_ne hd]
      exact hpc

/-- **`stop` returns if the writes do.** Let it be waiting, in any run, with relay threads
whose buffers hold finitely many messages. Without further calls the threads make at most so many
steps from there on, whatever they meet; and if what they wait for outside returns, one of them has
a step to make as long as `stop` has not returned. But a write that does not return keeps `stop`
waiting, whatever the other threads do. -/
theorem stop_returns {listenAddr upstreamAddr : String} {adapter : A} {events : List ProxyEvent}
    (h : run (step build) events (new listenAddr upstreamAddr adapter) = some s)
    (hstop : s.stopping = true)
    (hbuf : ∀ session ∈ s.sessions.getLast?, ∀ direction, ∃ frames rest,
      Extracts (framer build) (session.threads direction).buf frames rest) :
    (∃ bound, ∀ more s', (∀ e ∈ more, e.isCall = false) → run (step build) more s = some s' →
      more.countP ProxyEvent.isStep ≤ bound ∧
        ∀ offered, Answers offered → s'.stopping = true →
          ∃ e s'', e.isStep = true ∧ offered e ∧ step build s' e = some s'') ∧
    ∀ session ∈ s.sessions.getLast?, ∀ direction m f,
      (session.threads direction).pc = .loaded m f →
      ∀ more s', (∀ e ∈ more, e.isCall = false) →
        (∀ e ∈ more, ∀ k result, e ≠ .relay k direction (.act result)) →
        run (step build) more s = some s' → s'.stopping = true := by
  have horderly := orderly_of_run h
  constructor
  · have hsession : ∃ m, SessionLeft build s.sessions.getLast? m := by
      cases hlast : s.sessions.getLast? with
      | none => exact ⟨0, rfl⟩
      | some session =>
        obtain ⟨o, ho⟩ := Thread.exists_left (hbuf session hlast .outbound)
        obtain ⟨i, hi⟩ := Thread.exists_left (hbuf session hlast .inbound)
        exact ⟨o + i, o, i, ho, hi, rfl⟩
    obtain ⟨m, hm⟩ := hsession
    refine ⟨acceptLeft s.thread + m + if s.stopping then 1 else 0, fun more s' hmore hrun => ?_⟩
    obtain ⟨n, hn, hle⟩ := Lib.run_countP_le (Left build) ProxyEvent.isStep
      (fun s e s' n he hs hstep => left_step hs (hmore e he) hstep)
      ⟨horderly, (horderly.stopping hstop).1, m, hm, rfl⟩ hrun
    exact ⟨by omega, fun offered hanswers => exists_step_of_stopping hanswers hn.orderly⟩
  · intro session hlast direction m f hpc more s' hmore hwrites hrun
    have halong : Lib.Along (step build) (fun _ e => e.isCall = false ∧
        ∀ k result, e ≠ .relay k direction (.act result)) more s := by
      rintro pre e post mid rfl -
      have hmem : e ∈ pre ++ e :: post := List.mem_append_right pre List.mem_cons_self
      exact ⟨hmore e hmem, hwrites e hmem⟩
    have hend := halong.throughout (fun x e x' hx he hstep => blocked_step hx he.1 he.2 hstep)
      ⟨horderly, hstop, session, hlast, m, f, hpc⟩ more [] s' (List.append_nil more).symm hrun
    exact hend.stopping

/-- Both sides are silent, every write fails and the upstream address cannot be reached. -/
def unresponsive : ProxyEvent → Prop
  | .relay _ _ (.poll p) => p.read = .wouldBlock
  | .relay _ _ (.act result) => result = .failed 0
  | .accept result => result = .unreachable
  | _ => True

theorem answers_unresponsive : Answers unresponsive where
  check := trivial
  joined := trivial
  stopped := trivial
  load := fun _ _ _ => trivial
  read := fun _ _ _ => ⟨.wouldBlock, rfl⟩
  write := fun _ _ => ⟨.failed 0, rfl⟩
  accept := ⟨.unreachable, rfl⟩

/-- `stop` is called while both threads are at a write. The inbound one gets it done and ends, the
outbound one does not, and `stop` goes on waiting. -/
theorem stop_returns_in_session :
    ∃ s, run (step .release) (servedRun.take 10 ++ [.stop]) throttled = some s ∧
      s.stopping = true ∧
      (∃ bound, ∀ more s', (∀ e ∈ more, e.isCall = false) →
        run (step .release) more s = some s' → more.countP ProxyEvent.isStep ≤ bound ∧
          (s'.stopping = true → ∃ e s'', e.isStep = true ∧ unresponsive e ∧
            step .release s' e = some s'')) ∧
      ∃ s', run (step .release) [.relay 0 .inbound (.act .ok),
          .relay 0 .inbound (.poll ⟨true, .wouldBlock⟩)] s = some s' ∧ s'.stopping = true := by
  obtain ⟨s', hs', -⟩ : ∃ s', run (step .release) ((servedRun.take 10 ++ [.stop]) ++
      [.relay 0 .inbound (.act .ok), .relay 0 .inbound (.poll ⟨true, .wouldBlock⟩)]) throttled =
        some s' ∧ s'.shutdown = true := Option.map_eq_some_iff.mp rfl
  obtain ⟨s, hs, hdata⟩ : ∃ s, run (step .release) (servedRun.take 10 ++ [.stop]) throttled =
      some s ∧ (s.stopping, s.sessions.map fun x => ((x.threads .outbound).pc,
        (x.threads .outbound).buf, (x.threads .inbound).buf)) =
      (true, [(.loaded emptyMessage true, [], [])]) := Option.map_eq_some_iff.mp rfl
  rw [Prod.mk.injEq] at hdata
  obtain ⟨session, hsessions, hsession⟩ := List.map_eq_singleton_iff.mp hdata.2
  simp only [Prod.mk.injEq] at hsession
  obtain ⟨hpc, hout, hin⟩ := hsession
  have hlast : s.sessions.getLast? = some session := by rw [hsessions]; rfl
  obtain ⟨⟨bound, hbound⟩, hblocked⟩ := stop_returns hs hdata.1 (by
    intro x hx direction
    obtain rfl : session = x := Option.some.inj (hlast.symm.trans hx)
    have hbuf : (session.threads direction).buf = [] := by
      cases direction with
      | outbound => exact hout
      | inbound => exact hin
    rw [hbuf]
    exact ⟨[], [], .stop look_nil_ne_frame⟩)
  rw [Lib.run_append, hs, Option.bind_some] at hs'
  refine ⟨s, hs, hdata.1, ⟨bound, fun more s' hmore hrun => ?_⟩, s', hs', ?_⟩
  · obtain ⟨hle, hprogress⟩ := hbound more s' hmore hrun
    exact ⟨hle, hprogress unresponsive answers_unresponsive⟩
  · refine hblocked session hlast .outbound _ _ hpc _ s' ?_ ?_ hs'
    · exact List.forall_mem_cons.mpr ⟨rfl, List.forall_mem_singleton.mpr rfl⟩
    · rintro e he k result rfl
      simp at he

/-! ## A silent side -/

/-- Nobody stops the proxy, and the side that `direction` reads from neither sends nor closes. -/
def Silent (direction : Direction) (e : ProxyEvent) : Prop :=
  e ≠ .stop ∧ ∀ k p, e = .relay k direction (.poll p) → p.read = .wouldBlock

/-- The relay of `direction` in the latest session, the `n`-th, waits for the other side. -/
structure Held (direction : Direction) (n : ℕ) (s : ProxySystem A) : Prop where
  orderly : Orderly s
  shutdown : s.shutdown = false
  length : s.sessions.length = n
  waiting : ∃ session ∈ s.sessions.getLast?, (session.threads direction).pc = .polling

/-- A thread that waits for a silent side goes on waiting. -/
theorem polling_of_silent {a a' : A} {t t' : Thread} {direction : Direction} {e : ThreadEvent}
    (hpc : t.pc = .polling) (hread : ∀ p, e = .poll p → p = ⟨false, .wouldBlock⟩)
    (hstep : Thread.step build direction (a, t) e = some (a', t')) : t'.pc = .polling := by
  rcases Thread.step_cases hstep with ⟨p, rfl, -, heq⟩ | ⟨f, m, rfl, hpc', -⟩ |
    ⟨w, m, f, rfl, hpc', -⟩
  · cases heq
    rw [hread p rfl]
    exact hpc
  · rw [hpc] at hpc'
    cases hpc'
  · rw [hpc] at hpc'
    cases hpc'

theorem held_step {direction : Direction} {n : ℕ} (h : Held direction n s) {e : ProxyEvent}
    (he : Silent direction e) (hstep : step build s e = some s') : Held direction n s' := by
  obtain ⟨session, hlast, hpc⟩ := h.waiting
  suffices hdata : s'.sessions.length = n ∧
      ∃ session ∈ s'.sessions.getLast?, (session.threads direction).pc = .polling from
    ⟨orderly_step h.orderly hstep, (shutdown_step he.1 hstep).trans h.shutdown,
      hdata.1, hdata.2⟩
  rcases step_sessions h.orderly hstep with ⟨hsessions, -⟩ | ⟨hthread, -, -⟩ |
    ⟨k, session', direction', te, a, t, rfl, hrelay⟩
  · rw [hsessions]
    exact ⟨h.length, session, hlast, hpc⟩
  · -- no session is opened while this one goes on
    have hover := h.orderly.all_over (fun d hc => by rw [hthread] at hc; cases hc) session
      (List.mem_of_getLast? hlast) direction
    unfold Thread.Over at hover
    rw [hpc] at hover
    rcases hover with hc | hc <;> cases hc
  · have hsame : session' = session := by
      rw [hrelay.before, List.getLast?_concat] at hlast
      exact Option.some.inj hlast
    subst hsame
    have hlen := congrArg List.length hrelay.before
    rw [List.length_append, h.length] at hlen
    rw [hrelay.after, List.getLast?_concat, List.length_append]
    refine ⟨hlen.symm, _, rfl, ?_⟩
    by_cases hd : direction = direction'
    · subst hd
      show (Function.update session'.threads direction t direction).pc = .polling
      rw [Function.update_self]
      refine polling_of_silent hpc (fun p hp => ?_) hrelay.made
      subst hp
      have hread := he.2 k p rfl
      have hflag : p.shutdown = false := Eq.trans hrelay.sees h.shutdown
      obtain ⟨shutdown, read⟩ := p
      rw [show shutdown = false from hflag, show read = .wouldBlock from hread]
    · show (Function.update session'.threads direction' t direction).pc = .polling
      rw [Function.update_of_ne hd]
      exact hpc

/-- **A silent side holds the proxy.** Let one relay thread of the latest session wait for its
side, in any run. As long as that side neither sends nor closes and nobody stops the proxy, the
thread goes on waiting and no other client is served, also if the thread of the other direction
has long ended because its side is gone. -/
theorem silent_side_holds_proxy {listenAddr upstreamAddr : String} {adapter : A}
    {events : List ProxyEvent}
    (h : run (step build) events (new listenAddr upstreamAddr adapter) = some s)
    (hup : s.shutdown = false) (session : Session A) (hlast : session ∈ s.sessions.getLast?)
    (direction : Direction) (hpc : (session.threads direction).pc = .polling)
    {more : List ProxyEvent} (hmore : ∀ e ∈ more, Silent direction e)
    (hrun : run (step build) more s = some s') :
    s'.sessions.length = s.sessions.length ∧
      ∃ session' ∈ s'.sessions.getLast?, (session'.threads direction).pc = .polling := by
  have hheld : Held direction s.sessions.length s :=
    ⟨orderly_of_run h, hup, rfl, session, hlast, hpc⟩
  have halong : Lib.Along (step build) (fun _ e => Silent direction e) more s := by
    rintro pre e post mid rfl -
    exact hmore e (by simp)
  have hend := halong.throughout (fun x e x' hx he hstep => held_step hx he hstep) hheld
    more [] s' (List.append_nil more).symm hrun
  exact ⟨hend.length, hend.waiting⟩

/-- The client is gone and its thread has ended, but the other side is silent. -/
theorem silent_side_holds_abandoned_session :
    ∃ s s' : ProxySystem (FixAdapter .release),
      run (step .release) [.start binds, .check, .accept .connected,
          .relay 0 .outbound (.poll ⟨false, .ok []⟩)]
          (new "127.0.0.1:1" "127.0.0.1:2" (.silentReject ⟨⟩)) = some s ∧
        run (step .release) [.joined, .relay 0 .inbound (.poll ⟨false, .wouldBlock⟩)] s =
          some s' ∧ s'.sessions.length = s.sessions.length := by
  obtain ⟨s, hs, hdata⟩ : ∃ s : ProxySystem (FixAdapter .release),
      run (step .release) [.start binds, .check, .accept .connected,
          .relay 0 .outbound (.poll ⟨false, .ok []⟩)]
          (new "127.0.0.1:1" "127.0.0.1:2" (.silentReject ⟨⟩)) = some s ∧
        (s.shutdown, s.sessions.map fun x => (x.threads .inbound).pc,
          (run (step .release) [.joined, .relay 0 .inbound (.poll ⟨false, .wouldBlock⟩)]
            s).isSome) = (false, [.polling], true) := Option.map_eq_some_iff.mp rfl
  simp only [Prod.mk.injEq] at hdata
  obtain ⟨hup, hpcs, hrest⟩ := hdata
  obtain ⟨session, hsessions, hpc⟩ := List.map_eq_singleton_iff.mp hpcs
  obtain ⟨s', hs'⟩ := Option.isSome_iff_exists.mp hrest
  refine ⟨s, s', hs, hs', (silent_side_holds_proxy hs hup session (by rw [hsessions]; rfl) .inbound
    hpc (fun e he => ?_) hs').1⟩
  rcases List.mem_pair.mp he with rfl | rfl
  · exact ⟨(fun hc => by cases hc), fun k p hc => by cases hc⟩
  · refine ⟨(fun hc => by cases hc), fun k p hc => ?_⟩
    cases hc
    rfl

end ProxySystem

end Blackswan.Fix
