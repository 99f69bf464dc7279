import Blackswan.Fix.Adapter
import Blackswan.Fix.Framing
import Blackswan.Lib.Loop

/-!
# The relay

`relay` is one direction of a proxied session: read into a buffer, cut complete messages off its
front, ask the adapter about each one while the fault is enabled, write the result. The model
keeps what the source does not: the frames cut, the messages the adapter was consulted on, the
bytes written and the time slept.

1. `Extracts` says which frames a buffer holds; `ends_drain` shows that the inner loop cuts
   exactly those and delivers them in order.
2. `exists_relay` is the same for a whole session, by induction over the reads: whatever the reads
   are, the frames are those of the whole stream.
3. `deliverAll_eq` says what delivering a list of messages amounts to, message by message.
-/

namespace Blackswan.Fix

open Lib (Outcome Turn Ends loop Extracts Verdict)
open ProtocolAdapter (intercept)

/-- What the other end of the session did when the relay read from it. -/
inductive Read where
  | ok (bytes : List UInt8)
  | wouldBlock
  | error
  deriving DecidableEq, Repr

/-- One evaluation of the outer loop: the shutdown flag it loads, then the read it makes. -/
structure Poll where
  shutdown : Bool
  read : Read
  deriving DecidableEq, Repr

/-- How a `write_all` ends; a failing one may have sent some bytes. -/
inductive WriteAll where
  | ok
  | failed (sent : ℕ)
  deriving DecidableEq, Repr

/-- What the relay meets at its `i`-th message: the flag it loads and how its write ends. -/
structure RelayEnv where
  enabled : ℕ → Bool
  writeAll : ℕ → WriteAll

inductive RelayStatus where
  | running
  | returned
  | panicked
  deriving DecidableEq, Repr

/-- The adapter and what has been done with the messages so far. -/
structure Delivery (A : Type) where
  adapter : A
  frames : List (List UInt8)
  consulted : List ℕ
  written : List UInt8
  sleptNs : ℕ

structure RelayState (A : Type) where
  buf : List UInt8
  delivery : Delivery A
  status : RelayStatus

variable {A : Type}

/-- `dst.write_all(bytes)`, with the `return` on an error. -/
def Delivery.write (d : Delivery A) (result : WriteAll) (bytes : List UInt8) :
    Delivery A × RelayStatus :=
  match result with
  | .ok => ({ d with written := d.written ++ bytes }, .running)
  | .failed sent => ({ d with written := d.written ++ bytes.take sent }, .returned)

/-- `match action { .. }`. -/
def Delivery.perform (d : Delivery A) (result : WriteAll) (message : List UInt8) :
    InterceptAction → Delivery A × RelayStatus
  | .forward => d.write result message
  | .drop => (d, .running)
  | .mutate bytes => d.write result bytes
  | .delay ns => { d with sleptNs := d.sleptNs + ns.toNat }.write result message

variable [ProtocolAdapter A]

/-- What is done with one message after it has been drained from the buffer. An error of the
adapter counts as `Forward`; its panic ends the thread. -/
def deliver (direction : Direction) (env : RelayEnv) (message : List UInt8) (d : Delivery A) :
    Delivery A × RelayStatus :=
  let i := d.frames.length
  let d := { d with frames := d.frames ++ [message] }
  if env.enabled i then
    let res := intercept d.adapter ⟨message, direction⟩
    let d := { d with adapter := res.2, consulted := d.consulted ++ [i] }
    match res.1 with
    | .ok action => d.perform (env.writeAll i) message action
    | .err _ => d.perform (env.writeAll i) message .forward
    | .panic => (d, .panicked)
  else d.perform (env.writeAll i) message .forward

/-- One evaluation of `while let Ok(Some(len)) = find_complete_message(&buf) { .. }`. -/
def drainOne (build : Build) (direction : Direction) (env : RelayEnv) (s : RelayState A) :
    Turn (RelayState A) (RelayState A) :=
  match findCompleteMessage build s.buf with
  | .ok (some len) =>
    match deliver direction env (s.buf.take len) s.delivery with
    | (d, .running) => .again ⟨s.buf.drop len, d, .running⟩
    | (d, status) => .done ⟨s.buf.drop len, d, status⟩
  | .ok none => .done s
  | .err _ => .done s
  | .panic => .done { s with status := .panicked }

/-- The outer loop over what the polls bring; after the last one the relay waits in its next
read. Each inner loop has `fuel` evaluations of its condition. -/
def relayLoop (build : Build) (direction : Direction) (env : RelayEnv) (fuel : ℕ) :
    List Poll → RelayState A → Option (RelayState A)
  | [], s => some s
  | poll :: rest, s =>
    if poll.shutdown then some { s with status := .returned }
    else
      match poll.read with
      | .ok [] => some { s with status := .returned }
      | .ok (b :: bytes) =>
        match loop (drainOne build direction env) fuel { s with buf := s.buf ++ b :: bytes } with
        | none => none
        | some s' =>
          match s'.status with
          | .running => relayLoop build direction env fuel rest s'
          | _ => some s'
      | .wouldBlock => relayLoop build direction env fuel rest s
      | .error => some { s with status := .returned }

/-- A relay that has just been spawned. -/
def RelayState.new (adapter : A) : RelayState A := ⟨[], ⟨adapter, [], [], [], 0⟩, .running⟩

def relay (build : Build) (direction : Direction) (env : RelayEnv) (fuel : ℕ) (polls : List Poll)
    (adapter : A) : Option (RelayState A) :=
  relayLoop build direction env fuel polls (.new adapter)

/-- The polls of a session in which every read brings bytes and nobody asks for shutdown. -/
def pollsOf (reads : List (List UInt8)) : List Poll := reads.map fun bytes => ⟨false, .ok bytes⟩

/-! ## Delivering messages -/

variable {build : Build} {direction : Direction} {env : RelayEnv}

/-- The messages delivered one after the other, up to one that ends the thread. -/
def deliverAll (direction : Direction) (env : RelayEnv) :
    List (List UInt8) → Delivery A → Delivery A × RelayStatus
  | [], d => (d, .running)
  | message :: rest, d =>
    match deliver direction env message d with
    | (d', .running) => deliverAll direction env rest d'
    | (d', status) => (d', status)

/-- What the adapter answers about each message in turn; `none` where the flag is off and it is
not asked. -/
def decisions (direction : Direction) (enabled : ℕ → Bool) :
    ℕ → A → List (List UInt8) → List (Option (Outcome HarnessError InterceptAction))
  | _, _, [] => []
  | i, adapter, message :: rest =>
    if enabled i then
      let res := intercept adapter ⟨message, direction⟩
      some res.1 :: decisions direction enabled (i + 1) res.2 rest
    else none :: decisions direction enabled (i + 1) adapter rest

/-- What one message contributes to the bytes written. -/
def contribution (decision : Option (Outcome HarnessError InterceptAction))
    (message : List UInt8) : List UInt8 :=
  match decision with
  | some (.ok .drop) => []
  | some (.ok (.mutate bytes)) => bytes
  | _ => message

/-- Asked about the messages one after the other, the adapter does not panic. -/
def Calm (direction : Direction) (enabled : ℕ → Bool) (i : ℕ) (adapter : A)
    (messages : List (List UInt8)) : Prop :=
  some .panic ∉ decisions direction enabled i adapter messages

theorem calm_cons_enabled {direction : Direction} {enabled : ℕ → Bool} {i : ℕ} {adapter : A}
    {message : List UInt8} {rest : List (List UInt8)} (hon : enabled i = true) :
    Calm direction enabled i adapter (message :: rest) ↔
      (intercept adapter ⟨message, direction⟩).1 ≠ .panic ∧
        Calm direction enabled (i + 1) (intercept adapter ⟨message, direction⟩).2 rest := by
  unfold Calm
  rw [decisions, if_pos hon, List.mem_cons, not_or, Option.some.injEq, ne_comm]

theorem calm_cons_disabled {direction : Direction} {enabled : ℕ → Bool} {i : ℕ} {adapter : A}
    {message : List UInt8} {rest : List (List UInt8)} (hoff : enabled i = false) :
    Calm direction enabled i adapter (message :: rest) ↔
      Calm direction enabled (i + 1) adapter rest := by
  unfold Calm
  rw [decisions, if_neg (by rw [hoff]; exact Bool.false_ne_true), List.mem_cons]
  simp

/-- An adapter that does not panic on any of the messages, in whatever state it is. -/
theorem calm_of_ne_panic (direction : Direction) {messages : List (List UInt8)}
    (h : ∀ m ∈ messages, ∀ adapter : A, (intercept adapter ⟨m, direction⟩).1 ≠ .panic)
    (enabled : ℕ → Bool) (i : ℕ) (adapter : A) : Calm direction enabled i adapter messages := by
  induction messages generalizing i adapter with
  | nil => exact List.not_mem_nil
  | cons message rest ih =>
    obtain ⟨hfirst, hrest⟩ := List.forall_mem_cons.mp h
    cases hon : enabled i with
    | true => exact (calm_cons_enabled hon).mpr ⟨hfirst adapter, ih hrest _ _⟩
    | false => exact (calm_cons_disabled hon).mpr (ih hrest _ _)

omit [ProtocolAdapter A] in
/-- An action whose write succeeds. -/
theorem perform_ok (d : Delivery A) (message : List UInt8) (action : InterceptAction) :
    ∃ sleptNs, d.perform .ok message action =
      ({ d with
        written := d.written ++ contribution (some (.ok action)) message
        sleptNs := sleptNs }, .running) := by
  rcases action with _ | _ | bytes | ns
  · exact ⟨d.sleptNs, rfl⟩
  · exact ⟨d.sleptNs, by simp [Delivery.perform, contribution]⟩
  · exact ⟨d.sleptNs, rfl⟩
  · exact ⟨d.sleptNs + ns.toNat, rfl⟩

/-- **One message**, while the flag is on. -/
theorem deliver_enabled (hwrite : ∀ i, env.writeAll i = .ok) {message : List UInt8}
    {d : Delivery A} (hne : (intercept d.adapter ⟨message, direction⟩).1 ≠ .panic)
    (hon : env.enabled d.frames.length = true) :
    ∃ sleptNs, deliver direction env message d =
      (⟨(intercept d.adapter ⟨message, direction⟩).2, d.frames ++ [message],
        d.consulted ++ [d.frames.length],
        d.written ++ contribution (some (intercept d.adapter ⟨message, direction⟩).1) message,
        sleptNs⟩, .running) := by
  unfold deliver
  simp only [hon, if_true, hwrite]
  rcases hres : (intercept d.adapter ⟨message, direction⟩).1 with action | e | _
  · exact perform_ok _ message action
  · exact perform_ok _ message .forward
  · exact absurd hres hne

/-- **One message**, while the flag is off. -/
theorem deliver_disabled (hwrite : ∀ i, env.writeAll i = .ok) (message : List UInt8)
    {d : Delivery A} (hoff : env.enabled d.frames.length = false) :
    deliver direction env message d =
      ({ d with frames := d.frames ++ [message], written := d.written ++ message }, .running) := by
  unfold deliver
  simp only [hoff, Bool.false_eq_true, if_false, hwrite]
  rfl

theorem deliverAll_cons_running {message : List UInt8} {rest : List (List UInt8)}
    {d d' : Delivery A} (h : deliver direction env message d = (d', .running)) :
    deliverAll direction env (message :: rest) d = deliverAll direction env rest d' := by
  rw [deliverAll, h]

theorem deliverAll_cons_stopped {message : List UInt8} {rest : List (List UInt8)}
    {d d' : Delivery A} {status : RelayStatus}
    (h : deliver direction env message d = (d', status)) (hstop : status ≠ .running) :
    deliverAll direction env (message :: rest) d = (d', status) := by
  rw [deliverAll, h]
  rcases status with _ | _ | _
  · exact absurd rfl hstop
  · rfl
  · rfl

/-- Delivering goes on after a first part that leaves the thread running, and ends with it
otherwise. -/
theorem deliverAll_append (first second : List (List UInt8)) (d : Delivery A) :
    deliverAll direction env (first ++ second) d =
      if (deliverAll direction env first d).2 = .running then
        deliverAll direction env second (deliverAll direction env first d).1
      else deliverAll direction env first d := by
  induction first generalizing d with
  | nil => rw [List.nil_append, deliverAll, if_pos rfl]
  | cons message first ih =>
    rcases hd : deliver direction env message d with ⟨d', status⟩
    by_cases hrun : status = .running
    · subst hrun
      rw [List.cons_append, deliverAll_cons_running hd, deliverAll_cons_running hd, ih]
    · rw [List.cons_append, deliverAll_cons_stopped hd hrun, deliverAll_cons_stopped hd hrun,
        if_neg hrun]

/-- **Any number of messages**, where writes succeed and the adapter does not panic: each
contributes once, in order, and the adapter is consulted once about each one that finds the flag
on. -/
theorem deliverAll_eq (hwrite : ∀ i, env.writeAll i = .ok) (messages : List (List UInt8))
    (d : Delivery A) (hcalm : Calm direction env.enabled d.frames.length d.adapter messages) :
    (deliverAll direction env messages d).2 = .running ∧
    (deliverAll direction env messages d).1.frames = d.frames ++ messages ∧
    (deliverAll direction env messages d).1.consulted = d.consulted ++
      (List.range' d.frames.length messages.length).filter env.enabled ∧
    (deliverAll direction env messages d).1.written = d.written ++
      (List.zipWith contribution
        (decisions direction env.enabled d.frames.length d.adapter messages) messages).flatten := by
  induction messages generalizing d with
  | nil => simp [deliverAll, decisions]
  | cons message rest ih =>
    rcases hon : env.enabled d.frames.length with _ | _
    · rw [deliverAll_cons_running (deliver_disabled hwrite message hon)]
      obtain ⟨h₀, h₁, h₂, h₃⟩ :=
        ih { d with frames := d.frames ++ [message], written := d.written ++ message } (by
          rw [List.length_append]
          exact (calm_cons_disabled hon).mp hcalm)
      rw [h₁, h₂, h₃]
      simp [h₀, decisions, hon, List.range'_succ, contribution]
    · obtain ⟨hne, hrest⟩ := (calm_cons_enabled hon).mp hcalm
      obtain ⟨sleptNs, hd⟩ := deliver_enabled hwrite hne hon
      rw [deliverAll_cons_running hd]
      obtain ⟨h₀, h₁, h₂, h₃⟩ := ih ⟨_, d.frames ++ [message], _, _, sleptNs⟩ (by
        rw [List.length_append]
        exact hrest)
      rw [h₁, h₂, h₃]
      simp [h₀, decisions, hon, List.range'_succ]

/-! ## The inner loop -/

/-- The thread dies if the look that ends the inner loop panics. -/
def statusAfter (build : Build) (rest : List UInt8) : RelayStatus :=
  if findCompleteMessage build rest = .panic then .panicked else .running

theorem drainOne_of_no_frame {b : List UInt8} {d : Delivery A}
    (h : ∀ n, (framer build).look b ≠ .frame n) :
    drainOne build direction env ⟨b, d, .running⟩ = .done ⟨b, d, statusAfter build b⟩ := by
  unfold drainOne statusAfter
  rcases hf : findCompleteMessage build b with (_ | n) | e | _
  · simp
  · exact absurd (verdict_eq_frame_iff.mpr hf) (h n)
  · simp
  · simp

theorem drainOne_of_frame (direction : Direction) (env : RelayEnv) {b : List UInt8} {n : ℕ}
    (h : (framer build).look b = .frame n) (d : Delivery A) :
    drainOne build direction env ⟨b, d, .running⟩ =
      match deliver direction env (b.take n) d with
      | (d', .running) => .again ⟨b.drop n, d', .running⟩
      | (d', status) => .done ⟨b.drop n, d', status⟩ := by
  unfold drainOne
  rw [verdict_eq_frame_iff.mp h]

/-- **The inner loop** cuts and delivers the frames its buffer holds. -/
theorem ends_drain (direction : Direction) (env : RelayEnv) {b rest : List UInt8}
    {frames : List (List UInt8)} (h : Extracts (framer build) b frames rest) (d : Delivery A) :
    ∃ s, Ends (drainOne build direction env) ⟨b, d, .running⟩ s ∧
      s.delivery = (deliverAll direction env frames d).1 ∧
      if (deliverAll direction env frames d).2 = .running then
        s.buf = rest ∧ s.status = statusAfter build rest
      else s.status = (deliverAll direction env frames d).2 := by
  induction h generalizing d with
  | stop hno =>
    refine ⟨_, Lib.ends_of_done (drainOne_of_no_frame hno), rfl, ?_⟩
    rw [deliverAll, if_pos rfl]
    exact ⟨rfl, rfl⟩
  | @cut b n frames rest hf _ ih =>
    have hone := drainOne_of_frame direction env hf d
    rcases hd : deliver direction env (b.take n) d with ⟨d', status⟩
    rw [hd] at hone
    by_cases hrun : status = .running
    · subst hrun
      obtain ⟨s, hends, hs⟩ := ih d'
      rw [deliverAll_cons_running hd]
      exact ⟨s, Lib.ends_of_again hone hends, hs⟩
    · rw [deliverAll_cons_stopped hd hrun]
      refine ⟨⟨b.drop n, d', status⟩, Lib.ends_of_done ?_, rfl, ?_⟩
      · rw [hone]
        rcases status with _ | _ | _
        · exact absurd rfl hrun
        · rfl
        · rfl
      · rw [if_neg hrun]

/-! ## The session -/

variable {fuel : ℕ} {bytes : List UInt8} {s s' : RelayState A}

/-- A read after which the relay goes on. -/
theorem relayLoop_cons_running (hne : bytes ≠ []) (rest : List Poll)
    (hloop : loop (drainOne build direction env) fuel { s with buf := s.buf ++ bytes } = some s')
    (hs : s'.status = .running) :
    relayLoop build direction env fuel (⟨false, .ok bytes⟩ :: rest) s =
      relayLoop build direction env fuel rest s' := by
  rcases bytes with _ | ⟨b, bytes⟩
  · exact absurd rfl hne
  · rw [relayLoop]
    dsimp only
    rw [if_neg Bool.false_ne_true, hloop]
    dsimp only
    rw [hs]

/-- A read after which the thread is gone. -/
theorem relayLoop_cons_stopped (hne : bytes ≠ []) (rest : List Poll)
    (hloop : loop (drainOne build direction env) fuel { s with buf := s.buf ++ bytes } = some s')
    (hs : s'.status ≠ .running) :
    relayLoop build direction env fuel (⟨false, .ok bytes⟩ :: rest) s = some s' := by
  rcases bytes with _ | ⟨b, bytes⟩
  · exact absurd rfl hne
  · rw [relayLoop]
    dsimp only
    rw [if_neg Bool.false_ne_true, hloop]
    dsimp only
    rcases hst : s'.status with _ | _ | _
    · exact absurd hst hs
    · rfl
    · rfl

/-- **A whole session** delivers the frames of the whole stream, however it was read. If no
delivery ends the thread, what is left over stays in the buffer or is something on which the
framer is stuck. -/
theorem exists_relay {reads : List (List UInt8)} (hne : ∀ bytes ∈ reads, bytes ≠ [])
    {b rest : List UInt8} {frames : List (List UInt8)}
    (hb : ∀ n, (framer build).look b ≠ .frame n)
    (h : Extracts (framer build) (b ++ reads.flatten) frames rest) (d : Delivery A) :
    ∃ s bound, (∀ fuel ≥ bound,
        relayLoop build direction env fuel (pollsOf reads) ⟨b, d, .running⟩ = some s) ∧
      s.delivery = (deliverAll direction env frames d).1 ∧
      ((deliverAll direction env frames d).2 = .running →
        (s.status = .running ∧ s.buf = rest) ∨
          s.status = .panicked ∧ (framer build).look rest = .stuck) := by
  induction reads generalizing b d frames with
  | nil =>
    rw [List.flatten_nil, List.append_nil] at h
    obtain ⟨rfl, rfl⟩ := h.unique (.stop hb)
    exact ⟨⟨rest, d, .running⟩, 0, fun fuel _ => rfl, rfl, fun _ => Or.inl ⟨rfl, rfl⟩⟩
  | cons bytes reads ih =>
    rw [List.flatten_cons, ← List.append_assoc] at h
    obtain ⟨first, mid, second, h₁, h₂, rfl⟩ := h.split
    obtain ⟨s₁, ⟨n, hn⟩, hdel₁, hs₁⟩ := ends_drain direction env h₁ d
    have hloop : ∀ fuel ≥ n, loop (drainOne build direction env) fuel
        (⟨b ++ bytes, d, .running⟩ : RelayState A) = some s₁ :=
      fun fuel hfuel => Lib.loop_mono hn hfuel
    have hbytes := hne bytes List.mem_cons_self
    rw [deliverAll_append]
    by_cases hrun : (deliverAll direction env first d).2 = .running
    · rw [if_pos hrun] at hs₁ ⊢
      obtain ⟨hbuf₁, hstatus₁⟩ := hs₁
      by_cases hpanic : findCompleteMessage build mid = .panic
      · -- the thread is gone; what would have come later cannot hold a frame
        have hstuck : (framer build).look mid = .stuck :=
          verdict_eq_stuck_iff.mpr (hpanic ▸ Outcome.fails_panic)
        have hdead : s₁.status = .panicked := hstatus₁.trans (if_pos hpanic)
        obtain ⟨rfl, hrest⟩ := Extracts.of_stuck hstuck h₂
        refine ⟨s₁, n, fun fuel hfuel => ?_, hdel₁, fun _ => Or.inr ⟨hdead, hrest⟩⟩
        exact relayLoop_cons_stopped (s := ⟨b, d, .running⟩) hbytes (pollsOf reads)
          (hloop fuel hfuel) (by rw [hdead]; decide)
      · have halive : s₁.status = .running := hstatus₁.trans (if_neg hpanic)
        have hs₁ : s₁ = ⟨mid, (deliverAll direction env first d).1, .running⟩ := by
          rw [← hbuf₁, ← hdel₁, ← halive]
        obtain ⟨s, bound, hs, hdel, hend⟩ :=
          ih (fun r hr => hne r (List.mem_cons_of_mem _ hr)) h₁.look_rest h₂
            (deliverAll direction env first d).1
        refine ⟨s, max n bound, fun fuel hfuel => ?_, hdel, hend⟩
        have hstep := relayLoop_cons_running (s := ⟨b, d, .running⟩) hbytes (pollsOf reads)
          (hloop fuel (le_trans (le_max_left _ _) hfuel)) halive
        rw [hs₁] at hstep
        exact hstep.trans (hs fuel (le_trans (le_max_right _ _) hfuel))
    · rw [if_neg hrun] at hs₁ ⊢
      refine ⟨s₁, n, fun fuel hfuel => ?_, hdel₁, fun hc => absurd hc hrun⟩
      exact relayLoop_cons_stopped (s := ⟨b, d, .running⟩) hbytes (pollsOf reads)
        (hloop fuel hfuel) (by rw [hs₁]; exact hrun)

end Blackswan.Fix
