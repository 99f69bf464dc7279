import Blackswan.Fix.Proxy
import Blackswan.Lib.Threads

/-!
# A relay thread in small steps

`relay` runs a direction of a session on its own. Here the same code is a thread that other
threads interleave with: it stops wherever it touches something shared, which is the `shutdown`
flag at the head of its loop, the `enabled` flag after it has drained a message, and the adapter.

1. `continues_step`: one event of the thread is the corresponding piece of `relayLoop`.
2. `relay_of_run`: a thread that runs alone does what `relay` does with the same reads, the same
   flags and the same writes.
3. `bytes_of_run` and `written_of_run` hold at any moment, also in the middle of a message: no byte
   that was read is lost, doubled or moved, and what was written is a prefix of what the answers of
   the adapter amount to.
-/

namespace Blackswan.Fix

open Lib (Outcome Ends loop run)
open ProtocolAdapter (intercept)

/-! ## The thread -/

/-- Where a relay thread stands. -/
inductive ThreadPc where
  /-- At the head of the outer loop, about to load `shutdown` and to read. -/
  | polling
  /-- A message is drained from the buffer, and `enabled` is to be loaded. -/
  | drained (message : List UInt8)
  /-- `enabled` is loaded; the adapter is to be asked, or not, and the result to be written. -/
  | loaded (message : List UInt8) (enabled : Bool)
  | returned
  | panicked
  deriving DecidableEq, Repr

/-- The local state of a relay thread. Its log lacks only the adapter, which is shared. -/
structure Thread where
  pc : ThreadPc
  buf : List UInt8
  log : Delivery Unit

/-- What a thread does between two moments at which others can come in, with what it sees there:
the flags it loads, the read it makes, how its write ends. -/
inductive ThreadEvent where
  | poll (poll : Poll)
  | load (enabled : Bool)
  | act (result : WriteAll)
  deriving DecidableEq, Repr

section
variable {A : Type}

def Delivery.sharing (log : Delivery Unit) (adapter : A) : Delivery A :=
  ⟨adapter, log.frames, log.consulted, log.written, log.sleptNs⟩

def Delivery.apart (d : Delivery A) : Delivery Unit :=
  ⟨(), d.frames, d.consulted, d.written, d.sleptNs⟩

end

namespace Thread

def new : Thread := ⟨.polling, [], ⟨(), [], [], [], 0⟩⟩

/-- The condition of the inner loop, and the `drain` if it holds. -/
def look (build : Build) (t : Thread) : Thread :=
  match findCompleteMessage build t.buf with
  | .ok (some len) => { t with pc := .drained (t.buf.take len), buf := t.buf.drop len }
  | .ok none => { t with pc := .polling }
  | .err _ => { t with pc := .polling }
  | .panic => { t with pc := .panicked }

/-- One evaluation of the outer loop up to the first look at the buffer. -/
def poll (build : Build) (p : Poll) (t : Thread) : Thread :=
  if p.shutdown then { t with pc := .returned }
  else
    match p.read with
    | .ok [] => { t with pc := .returned }
    | .ok (b :: bytes) => { t with buf := t.buf ++ b :: bytes }.look build
    | .wouldBlock => t
    | .error => { t with pc := .returned }

variable {A : Type} [ProtocolAdapter A]

/-- The rest of the inner loop's body, and its condition again. -/
def act (build : Build) (direction : Direction) (message : List UInt8) (enabled : Bool)
    (result : WriteAll) (adapter : A) (t : Thread) : A × Thread :=
  let res := deliver direction ⟨fun _ => enabled, fun _ => result⟩ message (t.log.sharing adapter)
  let t := { t with log := res.1.apart }
  (res.1.adapter,
    match res.2 with
    | .running => t.look build
    | .returned => { t with pc := .returned }
    | .panicked => { t with pc := .panicked })

def step (build : Build) (direction : Direction) (s : A × Thread) :
    ThreadEvent → Option (A × Thread)
  | .poll p =>
    match s.2.pc with
    | .polling => some (s.1, s.2.poll build p)
    | _ => none
  | .load enabled =>
    match s.2.pc with
    | .drained message => some (s.1, { s.2 with pc := .loaded message enabled })
    | _ => none
  | .act result =>
    match s.2.pc with
    | .loaded message enabled => some (s.2.act build direction message enabled result s.1)
    | _ => none

/-- The thread has ended. -/
def Over (t : Thread) : Prop := t.pc = .returned ∨ t.pc = .panicked

instance (t : Thread) : Decidable t.Over := by unfold Over; infer_instance

/-- The status of a thread that is not in the middle of a message. -/
def status? (t : Thread) : Option RelayStatus :=
  match t.pc with
  | .polling => some .running
  | .returned => some .returned
  | .panicked => some .panicked
  | _ => none

/-- The message that is drained and not yet dealt with. -/
def pending (t : Thread) : List UInt8 :=
  match t.pc with
  | .drained message => message
  | .loaded message _ => message
  | _ => []

variable {build : Build} {direction : Direction} {s s' : A × Thread}

/-- **The three kinds of event**, read off `step`. -/
theorem step_cases {e : ThreadEvent} (h : step build direction s e = some s') :
    (∃ p, e = .poll p ∧ s.2.pc = .polling ∧ s' = (s.1, s.2.poll build p)) ∨
      (∃ enabled message, e = .load enabled ∧ s.2.pc = .drained message ∧
        s' = (s.1, { s.2 with pc := .loaded message enabled })) ∨
      ∃ result message enabled, e = .act result ∧ s.2.pc = .loaded message enabled ∧
        s' = s.2.act build direction message enabled result s.1 := by
  unfold step at h
  cases e with
  | poll p =>
    left
    cases hpc : s.2.pc <;> rw [hpc] at h <;> cases h
    exact ⟨p, rfl, rfl, rfl⟩
  | load enabled =>
    right; left
    cases hpc : s.2.pc <;> rw [hpc] at h <;> cases h
    exact ⟨enabled, _, rfl, rfl, rfl⟩
  | act result =>
    right; right
    cases hpc : s.2.pc <;> rw [hpc] at h <;> cases h
    exact ⟨result, _, _, rfl, rfl, rfl⟩

/-- A thread that has ended does nothing any more. -/
theorem step_of_over (h : s.2.Over) (e : ThreadEvent) : step build direction s e = none := by
  rcases hs : step build direction s e with _ | s'
  · rfl
  · rcases step_cases hs with ⟨p, -, hpc, -⟩ | ⟨enabled, m, -, hpc, -⟩ | ⟨w, m, f, -, hpc, -⟩ <;>
      rcases h with h | h <;> rw [h] at hpc <;> cases hpc

end Thread

/-! ## What the events of a thread bring -/

def pollsIn (events : List ThreadEvent) : List Poll :=
  events.filterMap fun e => match e with
    | .poll p => some p
    | _ => none

def flagsIn (events : List ThreadEvent) : List Bool :=
  events.filterMap fun e => match e with
    | .load enabled => some enabled
    | _ => none

def writesIn (events : List ThreadEvent) : List WriteAll :=
  events.filterMap fun e => match e with
    | .act result => some result
    | _ => none

/-- What a poll brings into the buffer. -/
def Poll.bytes (p : Poll) : List UInt8 :=
  if p.shutdown then []
  else
    match p.read with
    | .ok bytes => bytes
    | _ => []

/-- The relay returns at this poll: it is told to, or the other end has closed or failed. -/
def Poll.Last (p : Poll) : Prop := p.shutdown = true ∨ p.read = .ok [] ∨ p.read = .error

/-- The bytes a thread has read. -/
def bytesIn (events : List ThreadEvent) : List UInt8 := ((pollsIn events).map Poll.bytes).flatten

/-- The environment of a relay that loads these flags and whose writes end like this. -/
def envOf (events : List ThreadEvent) : RelayEnv :=
  ⟨fun i => (flagsIn events).getD i false, fun i => (writesIn events).getD i .ok⟩

section
variable {A : Type} [ProtocolAdapter A] {build : Build} {direction : Direction}
variable {env : RelayEnv}

/-- A message is dealt with by its own flag and its own write. -/
theorem deliver_congr {d : Delivery A} {enabled : Bool} {result : WriteAll} (message : List UInt8)
    (hflag : env.enabled d.frames.length = enabled)
    (hwrite : env.writeAll d.frames.length = result) :
    deliver direction ⟨fun _ => enabled, fun _ => result⟩ message d =
      deliver direction env message d := by
  unfold deliver
  rw [← hflag, ← hwrite]

omit [ProtocolAdapter A] in
theorem Delivery.write_keeps (d : Delivery A) (result : WriteAll) (bytes : List UInt8) :
    (d.write result bytes).1.frames = d.frames ∧
      (d.write result bytes).1.adapter = d.adapter := by
  cases result <;> exact ⟨rfl, rfl⟩

omit [ProtocolAdapter A] in
theorem Delivery.perform_keeps (d : Delivery A) (result : WriteAll) (message : List UInt8)
    (action : InterceptAction) :
    (d.perform result message action).1.frames = d.frames ∧
      (d.perform result message action).1.adapter = d.adapter := by
  cases action with
  | forward => exact d.write_keeps result message
  | drop => exact ⟨rfl, rfl⟩
  | mutate bytes => exact d.write_keeps result bytes
  | delay ns => exact Delivery.write_keeps _ result message

/-- The frames of a log grow by the message that is dealt with. -/
theorem frames_deliver (direction : Direction) (env : RelayEnv) (message : List UInt8)
    (d : Delivery A) :
    (deliver direction env message d).1.frames = d.frames ++ [message] := by
  unfold deliver
  dsimp only
  split_ifs
  · split
    · exact (Delivery.perform_keeps _ _ _ _).1
    · exact (Delivery.perform_keeps _ _ _ _).1
    · rfl
  · exact (Delivery.perform_keeps _ _ _ _).1

end

/-! ## A thread that runs alone -/

namespace Thread

variable {A : Type} [ProtocolAdapter A] {build : Build} {direction : Direction}
variable {env : RelayEnv} {events : List ThreadEvent} {s s' : A × Thread}

/-- How many flags the thread has loaded: one for each message it has dealt with, and the one it
is about to act on. -/
def loads (t : Thread) : ℕ :=
  match t.pc with
  | .loaded _ _ => t.log.frames.length + 1
  | _ => t.log.frames.length

/-- The environment has what the thread has loaded already and what its further events bring, each
under the number of the message it is for. -/
structure Supplies (env : RelayEnv) (t : Thread) (events : List ThreadEvent) : Prop where
  loaded : ∀ m f, t.pc = .loaded m f → env.enabled t.log.frames.length = f
  flags : ∀ i f, (flagsIn events)[i]? = some f → env.enabled (t.loads + i) = f
  writes : ∀ i w, (writesIn events)[i]? = some w → env.writeAll (t.log.frames.length + i) = w

theorem supplies_new (events : List ThreadEvent) : Supplies (envOf events) .new events where
  loaded := fun m f h => by cases h
  flags := by
    intro i f h
    show (flagsIn events).getD (0 + i) false = f
    rw [Nat.zero_add, List.getD_eq_getElem?_getD, h]
    rfl
  writes := by
    intro i w h
    show (writesIn events).getD (0 + i) .ok = w
    rw [Nat.zero_add, List.getD_eq_getElem?_getD, h]
    rfl

/-- A message that the thread has drained is a frame at the front of what it was drained from. -/
def Framed (build : Build) (t : Thread) : Prop :=
  t.status? = none →
    findCompleteMessage build (t.pending ++ t.buf) = .ok (some t.pending.length)

/-- **What a look does**: it drains a frame, it finds none, or it panics. -/
theorem look_cases (build : Build) (t : Thread) :
    (∃ n, (framer build).look t.buf = .frame n ∧
        t.look build = { t with pc := .drained (t.buf.take n), buf := t.buf.drop n }) ∨
      (∀ n, (framer build).look t.buf ≠ .frame n) ∧
        ((statusAfter build t.buf = .running ∧ t.look build = { t with pc := .polling }) ∨
          statusAfter build t.buf = .panicked ∧ t.look build = { t with pc := .panicked }) := by
  have hno : ∀ n, findCompleteMessage build t.buf ≠ .ok (some n) →
      (framer build).look t.buf ≠ .frame n := fun n h hn => h (verdict_eq_frame_iff.mp hn)
  unfold statusAfter look
  rcases hf : findCompleteMessage build t.buf with (_ | n) | e | _
  · exact Or.inr ⟨fun n => hno n (by rw [hf]; simp), Or.inl ⟨by simp, rfl⟩⟩
  · exact Or.inl ⟨n, verdict_eq_frame_iff.mpr hf, rfl⟩
  · exact Or.inr ⟨fun n => hno n (by rw [hf]; simp), Or.inl ⟨by simp, rfl⟩⟩
  · exact Or.inr ⟨fun n => hno n (by rw [hf]; simp), Or.inr ⟨by simp, rfl⟩⟩

theorem framed_look (build : Build) (t : Thread) : (t.look build).Framed build := by
  intro h
  rcases t.look_cases build with ⟨n, hf, hlook⟩ | ⟨-, ⟨-, hlook⟩ | ⟨-, hlook⟩⟩ <;>
    rw [hlook] at h ⊢
  · show findCompleteMessage build (t.buf.take n ++ t.buf.drop n) =
      .ok (some (t.buf.take n).length)
    have hle := (framer build).frame_le hf
    rw [List.take_append_drop, verdict_eq_frame_iff.mp hf, List.length_take,
      Nat.min_eq_left hle]
  · cases h
  · cases h

theorem log_look (build : Build) (t : Thread) : (t.look build).log = t.log := by
  unfold look
  split <;> rfl

theorem loaded_ne_look {build : Build} {t : Thread} {m : List UInt8} {f : Bool} :
    (t.look build).pc ≠ .loaded m f := by
  unfold look
  split <;> exact fun h => by cases h

/-- **What a poll does**: it ends the thread, it brings nothing, or it brings bytes. -/
theorem poll_cases (build : Build) (p : Poll) (t : Thread) :
    (p.Last ∧ p.bytes = [] ∧ t.poll build p = { t with pc := .returned }) ∨
      (p = ⟨false, .wouldBlock⟩ ∧ t.poll build p = t) ∨
      ∃ bytes, bytes ≠ [] ∧ p = ⟨false, .ok bytes⟩ ∧
        t.poll build p = { t with buf := t.buf ++ bytes }.look build := by
  obtain ⟨shutdown, read⟩ := p
  cases shutdown with
  | true => exact Or.inl ⟨Or.inl rfl, rfl, rfl⟩
  | false =>
    cases read with
    | ok bytes =>
      cases bytes with
      | nil => exact Or.inl ⟨Or.inr (Or.inl rfl), rfl, rfl⟩
      | cons b bytes => exact Or.inr (Or.inr ⟨b :: bytes, List.cons_ne_nil b bytes, rfl, rfl⟩)
    | wouldBlock => exact Or.inr (Or.inl ⟨rfl, rfl⟩)
    | error => exact Or.inl ⟨Or.inr (Or.inr rfl), rfl, rfl⟩

/-! ### The bytes of a thread -/

/-- What the thread has read and where it is now: in the frames dealt with, in the message it is
at, in its buffer. -/
def held (t : Thread) : List UInt8 := t.log.frames.flatten ++ t.pending ++ t.buf

theorem held_look (build : Build) (t : Thread) :
    (t.look build).held = t.log.frames.flatten ++ t.buf := by
  unfold look
  split
  · show _ ++ t.buf.take _ ++ t.buf.drop _ = _
    rw [List.append_assoc, List.take_append_drop]
  · exact congrArg (· ++ t.buf) (List.append_nil _)
  · exact congrArg (· ++ t.buf) (List.append_nil _)
  · exact congrArg (· ++ t.buf) (List.append_nil _)

theorem held_of_pending {t : Thread} (h : t.pending = []) :
    t.held = t.log.frames.flatten ++ t.buf := by
  rw [held, h, List.append_nil]

theorem pending_of_polling {t : Thread} (h : t.pc = .polling) : t.pending = [] := by
  rw [pending, h]

theorem pending_of_loaded {t : Thread} {m : List UInt8} {f : Bool} (h : t.pc = .loaded m f) :
    t.pending = m := by
  rw [pending, h]

/-- The thread has dealt with its message, and looks at its buffer again or has ended. -/
theorem held_act (message : List UInt8) (enabled : Bool) (result : WriteAll) (adapter : A)
    (t : Thread) :
    (t.act build direction message enabled result adapter).2.held =
      t.log.frames.flatten ++ message ++ t.buf := by
  have hframes := frames_deliver direction ⟨fun _ => enabled, fun _ => result⟩ message
    (t.log.sharing adapter)
  have hflat : (deliver direction ⟨fun _ => enabled, fun _ => result⟩ message
      (t.log.sharing adapter)).1.apart.frames.flatten = t.log.frames.flatten ++ message := by
    rw [show (Delivery.apart _).frames = _ from hframes, List.flatten_append,
      List.flatten_singleton]
    rfl
  rw [← hflat]
  unfold act
  dsimp only
  split
  · exact held_look build _
  · exact held_of_pending rfl
  · exact held_of_pending rfl

theorem bytesIn_cons (e : ThreadEvent) (events : List ThreadEvent) :
    bytesIn (e :: events) = bytesIn [e] ++ bytesIn events := by
  cases e <;> simp [bytesIn, pollsIn]

/-- **Step lemma.** What an event brings is added at the end. -/
theorem held_step {e : ThreadEvent} (h : step build direction s e = some s') :
    s'.2.held = s.2.held ++ bytesIn [e] := by
  rcases step_cases h with ⟨p, rfl, hpc, rfl⟩ | ⟨f, m, rfl, hpc, rfl⟩ | ⟨w, m, f, rfl, hpc, rfl⟩
  · have hbytes : bytesIn [.poll p] = p.bytes := List.append_nil _
    have hheld := held_of_pending (pending_of_polling hpc)
    rw [hbytes, hheld]
    rcases s.2.poll_cases build p with ⟨-, hb, hp⟩ | ⟨rfl, hp⟩ | ⟨bytes, -, rfl, hp⟩
    · rw [hb, List.append_nil, hp]
      exact held_of_pending rfl
    · rw [hp]
      exact hheld.trans (List.append_nil _).symm
    · rw [hp, held_look, List.append_assoc]
      rfl
  · show s.2.log.frames.flatten ++ m ++ s.2.buf = s.2.held ++ []
    rw [List.append_nil, held, pending, hpc]
  · rw [held_act, held, pending_of_loaded hpc]
    exact (List.append_nil _).symm

/-- **No byte is lost, doubled or moved**, at any moment of a run. -/
theorem bytes_of_run (h : run (step build direction) events s = some s') :
    s'.2.held = s.2.held ++ bytesIn events := by
  induction events generalizing s with
  | nil =>
    cases h
    exact (List.append_nil _).symm
  | cons e events ih =>
    obtain ⟨mid, hmid, hrest⟩ := Lib.run_cons_eq_some h
    rw [ih hrest, held_step hmid, List.append_assoc, ← bytesIn_cons]

/-! ### The flags and the writes of a thread -/

theorem loads_look (build : Build) (t : Thread) :
    (t.look build).loads = t.log.frames.length := by
  unfold look
  split <;> rfl

/-- Between two messages as many flags have been loaded as messages dealt with. -/
theorem loads_poll (build : Build) (p : Poll) {t : Thread} (h : t.pc = .polling) :
    (t.poll build p).log = t.log ∧ (t.poll build p).loads = t.log.frames.length ∧
      ∀ m f, (t.poll build p).pc ≠ .loaded m f := by
  rcases t.poll_cases build p with ⟨-, -, hp⟩ | ⟨-, hp⟩ | ⟨bytes, -, -, hp⟩
  · rw [hp]
    exact ⟨rfl, rfl, fun m f hc => by cases hc⟩
  · rw [hp]
    refine ⟨rfl, ?_, fun m f hc => ?_⟩
    · rw [loads, h]
    · rw [h] at hc
      cases hc
  · rw [hp]
    exact ⟨log_look build _, loads_look build _, fun m f => loaded_ne_look⟩

theorem loads_act (build : Build) (direction : Direction) (message : List UInt8) (enabled : Bool)
    (result : WriteAll) (adapter : A) (t : Thread) :
    (t.act build direction message enabled result adapter).2.log.frames =
        t.log.frames ++ [message] ∧
      (t.act build direction message enabled result adapter).2.loads =
        t.log.frames.length + 1 ∧
      ∀ m f, (t.act build direction message enabled result adapter).2.pc ≠ .loaded m f := by
  have hframes := frames_deliver direction ⟨fun _ => enabled, fun _ => result⟩ message
    (t.log.sharing adapter)
  have hlen := congrArg List.length hframes
  rw [List.length_append, List.length_singleton] at hlen
  unfold act
  dsimp only
  split
  · exact ⟨(congrArg Delivery.frames (log_look build _)).trans hframes,
      (loads_look build _).trans hlen, fun m f => loaded_ne_look⟩
  · exact ⟨hframes, hlen, fun m f hc => by cases hc⟩
  · exact ⟨hframes, hlen, fun m f hc => by cases hc⟩

/-- What supplies a run supplies the rest of it after the first event. -/
theorem Supplies.tail {e : ThreadEvent} (h : Supplies env s.2 (e :: events))
    (hstep : step build direction s e = some s') : Supplies env s'.2 events := by
  rcases step_cases hstep with ⟨p, rfl, hpc, rfl⟩ | ⟨f, m, rfl, hpc, rfl⟩ |
    ⟨w, m, f, rfl, hpc, rfl⟩
  · obtain ⟨hlog, hloads, hpc'⟩ := loads_poll build p hpc
    have hloads' : s.2.loads = s.2.log.frames.length := by rw [loads, hpc]
    refine ⟨fun m f hc => absurd hc (hpc' m f), fun i f hi => ?_, fun i w hi => ?_⟩
    · rw [hloads, ← hloads']
      exact h.flags i f hi
    · rw [hlog]
      exact h.writes i w hi
  · have hloads : s.2.loads = s.2.log.frames.length := by rw [loads, hpc]
    refine ⟨fun m' f' hc => ?_, fun i f' hi => ?_, h.writes⟩
    · cases hc
      have := h.flags 0 f rfl
      rwa [hloads] at this
    · have := h.flags (i + 1) f' hi
      rw [hloads, Nat.add_comm i 1, ← Nat.add_assoc] at this
      exact this
  · obtain ⟨hframes, hloads, hpc'⟩ :=
      loads_act build direction m f w s.1 s.2
    have hloads' : s.2.loads = s.2.log.frames.length + 1 := by rw [loads, hpc]
    refine ⟨fun m f hc => absurd hc (hpc' m f), fun i f hi => ?_, fun i w' hi => ?_⟩
    · rw [hloads, ← hloads']
      exact h.flags i f hi
    · rw [hframes, List.length_append, List.length_singleton, Nat.add_assoc, Nat.add_comm 1 i]
      exact h.writes (i + 1) w' hi

/-- The flag and the write of the message that is about to be dealt with. -/
theorem Supplies.deliver_eq {m : List UInt8} {f : Bool} {w : WriteAll}
    (h : Supplies env s.2 (.act w :: events)) (hpc : s.2.pc = .loaded m f) :
    deliver direction ⟨fun _ => f, fun _ => w⟩ m (s.2.log.sharing s.1) =
      deliver direction env m (s.2.log.sharing s.1) :=
  deliver_congr m (h.loaded m f hpc) (h.writes 0 w rfl)

/-! ### The sequential relay -/

/-- The outer loop ends in `final` with every large enough fuel. -/
def Loops (build : Build) (direction : Direction) (env : RelayEnv) (polls : List Poll)
    (r final : RelayState A) : Prop :=
  ∃ bound, ∀ fuel ≥ bound, relayLoop build direction env fuel polls r = some final

/-- The inner loop ends in a state from which the outer loop ends in `final`. -/
def Drains (build : Build) (direction : Direction) (env : RelayEnv) (polls : List Poll)
    (r final : RelayState A) : Prop :=
  ∃ mid, Ends (drainOne build direction env) r mid ∧
    ((mid.status = .running ∧ Loops build direction env polls mid final) ∨
      mid.status ≠ .running ∧ mid = final)

/-- From where the thread stands, `relay` ends in `final`. -/
def Continues (build : Build) (direction : Direction) (env : RelayEnv) (polls : List Poll)
    (s : A × Thread) (final : RelayState A) : Prop :=
  match s.2.status? with
  | some .running =>
    Loops build direction env polls ⟨s.2.buf, s.2.log.sharing s.1, .running⟩ final
  | some status => final = ⟨s.2.buf, s.2.log.sharing s.1, status⟩
  | none =>
    Drains build direction env polls ⟨s.2.pending ++ s.2.buf, s.2.log.sharing s.1, .running⟩ final

variable {polls : List Poll} {final : RelayState A}

/-- A look at the buffer is the condition of the inner loop. -/
theorem drains_of_look {a : A} {t : Thread}
    (h : Continues build direction env polls (a, t.look build) final) :
    Drains build direction env polls ⟨t.buf, t.log.sharing a, .running⟩ final := by
  rcases t.look_cases build with ⟨n, hf, hlook⟩ | ⟨hno, ⟨hs, hlook⟩ | ⟨hs, hlook⟩⟩ <;>
    rw [hlook] at h
  · have hall : Drains build direction env polls
      ⟨t.buf.take n ++ t.buf.drop n, t.log.sharing a, .running⟩ final := h
    rwa [List.take_append_drop] at hall
  · refine ⟨_, Lib.ends_of_done (drainOne_of_no_frame hno), ?_⟩
    rw [hs]
    exact Or.inl ⟨rfl, h⟩
  · refine ⟨_, Lib.ends_of_done (drainOne_of_no_frame hno), ?_⟩
    rw [hs]
    exact Or.inr ⟨(fun hc => by cases hc), h.symm⟩

/-- A read that brings bytes starts an inner loop. -/
theorem loops_of_drains {bytes buf : List UInt8} {d : Delivery A} (hne : bytes ≠ [])
    (h : Drains build direction env polls ⟨buf ++ bytes, d, .running⟩ final) :
    Loops build direction env (⟨false, .ok bytes⟩ :: polls) ⟨buf, d, .running⟩ final := by
  obtain ⟨mid, ⟨n, hn⟩, ⟨hrun, bound, hb⟩ | ⟨hstop, rfl⟩⟩ := h
  · refine ⟨max n bound, fun fuel hfuel => ?_⟩
    have hloop := Lib.loop_mono hn (le_trans (le_max_left n bound) hfuel)
    rw [relayLoop_cons_running (s := ⟨buf, d, .running⟩) hne polls hloop hrun]
    exact hb fuel (le_trans (le_max_right n bound) hfuel)
  · exact ⟨n, fun fuel hfuel => relayLoop_cons_stopped (s := ⟨buf, d, .running⟩) hne polls
      (Lib.loop_mono hn hfuel) hstop⟩

/-- A message that is a frame goes through the body of the inner loop. -/
theorem drains_of_act {a : A} {t : Thread} {m : List UInt8} {f : Bool} {w : WriteAll}
    (hframe : findCompleteMessage build (m ++ t.buf) = .ok (some m.length))
    (henv : deliver direction ⟨fun _ => f, fun _ => w⟩ m (t.log.sharing a) =
      deliver direction env m (t.log.sharing a))
    (h : Continues build direction env polls (t.act build direction m f w a) final) :
    Drains build direction env polls ⟨m ++ t.buf, t.log.sharing a, .running⟩ final := by
  have hone := drainOne_of_frame direction env (verdict_eq_frame_iff.mpr hframe) (t.log.sharing a)
  rw [List.take_left, List.drop_left] at hone
  unfold act at h
  rw [henv] at h
  dsimp only at h
  rcases hd : deliver direction env m (t.log.sharing a) with ⟨d', status⟩
  rw [hd] at h hone
  cases status with
  | running =>
    obtain ⟨mid, hends, hmid⟩ := drains_of_look h
    exact ⟨mid, Lib.ends_of_again hone hends, hmid⟩
  | returned => exact ⟨_, Lib.ends_of_done hone, Or.inr ⟨(fun hc => by cases hc), h.symm⟩⟩
  | panicked => exact ⟨_, Lib.ends_of_done hone, Or.inr ⟨(fun hc => by cases hc), h.symm⟩⟩

/-- At its last poll the relay returns. -/
theorem relayLoop_of_last {p : Poll} (h : p.Last) (fuel : ℕ) (polls : List Poll)
    (r : RelayState A) : relayLoop build direction env fuel (p :: polls) r =
      some { r with status := .returned } := by
  obtain ⟨shutdown, read⟩ := p
  cases shutdown with
  | true => rfl
  | false =>
    rcases h with h | h | h <;> cases h <;> rfl

/-- A poll is one evaluation of the outer loop. -/
theorem loops_of_poll {a : A} {t : Thread} {p : Poll} (hpc : t.pc = .polling)
    (h : Continues build direction env polls (a, t.poll build p) final) :
    Loops build direction env (p :: polls) ⟨t.buf, t.log.sharing a, .running⟩ final := by
  rcases t.poll_cases build p with ⟨hlast, -, hp⟩ | ⟨rfl, hp⟩ | ⟨bytes, hne, rfl, hp⟩ <;>
    rw [hp] at h
  · obtain rfl : final = ⟨t.buf, t.log.sharing a, .returned⟩ := h
    exact ⟨0, fun fuel _ => relayLoop_of_last hlast fuel polls _⟩
  · unfold Continues status? at h
    rw [hpc] at h
    exact h
  · exact loops_of_drains hne (drains_of_look h)

/-- **Step lemma.** An event of the thread is the corresponding piece of the sequential relay. -/
theorem continues_step {e : ThreadEvent} (hstep : step build direction s e = some s')
    (hframed : s.2.Framed build) (henv : Supplies env s.2 (e :: events))
    (h : Continues build direction env (pollsIn events) s' final) :
    Continues build direction env (pollsIn (e :: events)) s final := by
  rcases step_cases hstep with ⟨p, rfl, hpc, rfl⟩ | ⟨f, m, rfl, hpc, rfl⟩ |
    ⟨w, m, f, rfl, hpc, rfl⟩
  · unfold Continues status?
    rw [hpc]
    exact loops_of_poll hpc h
  · have hdrain : Drains build direction env (pollsIn events)
        ⟨m ++ s.2.buf, s.2.log.sharing s.1, .running⟩ final := h
    unfold Continues status? pending
    rw [hpc]
    exact hdrain
  · have hframe := hframed (by rw [status?, hpc])
    rw [pending_of_loaded hpc] at hframe
    have hdrain := drains_of_act hframe (henv.deliver_eq hpc) h
    unfold Continues status? pending
    rw [hpc]
    exact hdrain

theorem framed_step {e : ThreadEvent} (hstep : step build direction s e = some s')
    (h : s.2.Framed build) : s'.2.Framed build := by
  rcases step_cases hstep with ⟨p, rfl, hpc, rfl⟩ | ⟨f, m, rfl, hpc, rfl⟩ |
    ⟨w, m, f, rfl, hpc, rfl⟩
  · rcases s.2.poll_cases build p with ⟨-, -, hp⟩ | ⟨-, hp⟩ | ⟨bytes, -, -, hp⟩ <;>
      dsimp only <;> rw [hp]
    · exact fun hc => by cases hc
    · exact h
    · exact framed_look build _
  · intro _
    have hframe := h (by rw [status?, hpc])
    rw [pending, hpc] at hframe
    exact hframe
  · unfold act
    dsimp only
    split
    · exact framed_look build _
    · exact fun hc => by cases hc
    · exact fun hc => by cases hc

/-- **A thread that runs alone is `relay`**, with the same reads, the same flags and the same
writes. -/
theorem relay_of_run {a b : A} {t : Thread} {status : RelayStatus}
    (h : run (step build direction) events (a, .new) = some (b, t))
    (hstatus : t.status? = some status) :
    ∃ bound, ∀ fuel ≥ bound, relay build direction (envOf events) fuel (pollsIn events) a =
      some ⟨t.buf, t.log.sharing b, status⟩ := by
  have key : ∀ (env : RelayEnv) (events : List ThreadEvent) (s : A × Thread),
      s.2.Framed build → Supplies env s.2 events →
      run (step build direction) events s = some (b, t) →
      Continues build direction env (pollsIn events) s ⟨t.buf, t.log.sharing b, status⟩ := by
    intro env events
    induction events with
    | nil =>
      intro s _ _ hrun
      cases hrun
      unfold Continues
      rw [hstatus]
      cases status with
      | running => exact ⟨0, fun _ _ => rfl⟩
      | returned => rfl
      | panicked => rfl
    | cons e events ih =>
      intro s hframed henv hrun
      obtain ⟨mid, hmid, hrest⟩ := Lib.run_cons_eq_some hrun
      exact continues_step hmid hframed henv
        (ih mid (framed_step hmid hframed) (henv.tail hmid) hrest)
  exact key (envOf events) events (a, .new) (fun hc => by cases hc) (supplies_new events) h

end Thread

/-! ### What a thread writes -/

section
variable {A : Type} [ProtocolAdapter A] {build : Build} {direction : Direction}
variable {env : RelayEnv}

/-- What the adapter says to a message and what becomes of it; it is not asked while the flag is
off. -/
def answer (direction : Direction) (enabled : Bool) (adapter : A) (message : List UInt8) :
    Option (Outcome HarnessError InterceptAction) × A :=
  if enabled then
    (some (intercept adapter ⟨message, direction⟩).1, (intercept adapter ⟨message, direction⟩).2)
  else (none, adapter)

/-- What the messages amount to on the other side, from the `n`-th message on. -/
def due (direction : Direction) (enabled : ℕ → Bool) (n : ℕ) (adapter : A)
    (messages : List (List UInt8)) : List UInt8 :=
  (List.zipWith contribution (decisions direction enabled n adapter messages) messages).flatten

theorem due_cons (direction : Direction) (enabled : ℕ → Bool) (n : ℕ) (adapter : A)
    (m : List UInt8) (rest : List (List UInt8)) :
    due direction enabled n adapter (m :: rest) =
      contribution (answer direction (enabled n) adapter m).1 m ++
        due direction enabled (n + 1) (answer direction (enabled n) adapter m).2 rest := by
  rw [due, decisions, answer]
  split_ifs <;> rfl

/-- A message adds its bytes to what is written, or a part of them if the thread ends with it. -/
structure Wrote (d : Delivery A) (bytes : List UInt8) (result : WriteAll)
    (r : Delivery A × RelayStatus) : Prop where
  within : r.1.written <+: d.written ++ bytes
  whole : r.2 = .running → r.1.written = d.written ++ bytes
  failed : r.2 = .returned → result ≠ .ok

omit [ProtocolAdapter A] in
theorem wrote_write (d : Delivery A) (result : WriteAll) (bytes : List UInt8) :
    Wrote d bytes result (d.write result bytes) := by
  cases result with
  | ok => exact ⟨List.prefix_refl _, fun _ => rfl, fun h => by cases h⟩
  | failed sent =>
    refine ⟨?_, (fun h => by cases h), fun _ h => by cases h⟩
    exact (List.prefix_append_right_inj d.written).mpr (List.take_prefix sent bytes)

omit [ProtocolAdapter A] in
theorem wrote_perform (d : Delivery A) (result : WriteAll) (message : List UInt8)
    (action : InterceptAction) :
    Wrote d (contribution (some (.ok action)) message) result
      (d.perform result message action) := by
  cases action with
  | forward => exact wrote_write d result message
  | drop =>
    have hnil : d.written = d.written ++ [] := (List.append_nil _).symm
    exact ⟨⟨[], rfl⟩, fun _ => hnil, fun h => by cases h⟩
  | mutate bytes => exact wrote_write d result bytes
  | delay ns =>
    have hw := wrote_write { d with sleptNs := d.sleptNs + ns.toNat } result message
    exact ⟨hw.within, hw.whole, hw.failed⟩

/-- **One message**, whatever the flag, the adapter and the write. -/
theorem wrote_deliver (direction : Direction) (env : RelayEnv) (m : List UInt8)
    (d : Delivery A) :
    (deliver direction env m d).1.adapter =
        (answer direction (env.enabled d.frames.length) d.adapter m).2 ∧
      Wrote d (contribution (answer direction (env.enabled d.frames.length) d.adapter m).1 m)
        (env.writeAll d.frames.length) (deliver direction env m d) := by
  unfold deliver answer
  dsimp only
  split_ifs with hon
  · -- the log after the adapter was asked has the same bytes written as before
    have hperform (action : InterceptAction) (d' : Delivery A) (h : d'.written = d.written) :
        Wrote d (contribution (some (.ok action)) m) (env.writeAll d.frames.length)
          (d'.perform (env.writeAll d.frames.length) m action) := by
      have hw := wrote_perform d' (env.writeAll d.frames.length) m action
      exact ⟨h ▸ hw.within, fun hr => h ▸ hw.whole hr, hw.failed⟩
    cases hres : (intercept d.adapter ⟨m, direction⟩).1 with
    | ok action => exact ⟨(Delivery.perform_keeps _ _ _ _).2, hperform action _ rfl⟩
    | err e => exact ⟨(Delivery.perform_keeps _ _ _ _).2, hperform .forward _ rfl⟩
    | panic => exact ⟨rfl, List.prefix_append _ _, (fun h => by cases h), fun h => by cases h⟩
  · have hw := wrote_write { d with frames := d.frames ++ [m] } (env.writeAll d.frames.length) m
    exact ⟨(Delivery.perform_keeps _ _ _ _).2, hw.within, hw.whole, hw.failed⟩

end

namespace Thread

variable {A : Type} [ProtocolAdapter A] {build : Build} {direction : Direction}
variable {env : RelayEnv} {events : List ThreadEvent} {s s' : A × Thread}

/-- Nothing cut the thread's writing short: it has not panicked, and if it has returned, no write
of it had failed. -/
def Unbroken (t : Thread) (events : List ThreadEvent) : Prop :=
  t.pc ≠ .panicked ∧ (t.pc = .returned → ∀ w ∈ writesIn events, w = .ok)

/-- What a thread has dealt with and written since `s`. -/
structure Relayed (direction : Direction) (env : RelayEnv) (events : List ThreadEvent)
    (s s' : A × Thread) (more : List (List UInt8)) : Prop where
  frames : s'.2.log.frames = s.2.log.frames ++ more
  within : s'.2.log.written <+:
    s.2.log.written ++ due direction env.enabled s.2.log.frames.length s.1 more
  whole : s'.2.Unbroken events → s'.2.log.written =
    s.2.log.written ++ due direction env.enabled s.2.log.frames.length s.1 more

/-- A run of a thread that has ended has no events. -/
theorem run_of_over (h : s.2.Over) (hrun : run (step build direction) events s = some s') :
    events = [] ∧ s' = s := by
  cases events with
  | nil =>
    cases hrun
    exact ⟨rfl, rfl⟩
  | cons e events =>
    rw [run, step_of_over h e] at hrun
    cases hrun

/-- What dealing with a message leaves: the adapter after its answer, one more frame, and as many
more bytes written as the answer comes to, unless the thread ends here. -/
theorem act_writes (build : Build) (direction : Direction) (m : List UInt8) (f : Bool)
    (w : WriteAll) (a : A) (t : Thread) :
    (t.act build direction m f w a).1 = (answer direction f a m).2 ∧
      (t.act build direction m f w a).2.log.written <+:
        t.log.written ++ contribution (answer direction f a m).1 m ∧
      (¬ (t.act build direction m f w a).2.Over →
        (t.act build direction m f w a).2.log.written =
          t.log.written ++ contribution (answer direction f a m).1 m) ∧
      ((t.act build direction m f w a).2.pc = .returned → w ≠ .ok) := by
  obtain ⟨hadapter, hwrote⟩ := wrote_deliver direction ⟨fun _ => f, fun _ => w⟩ m
    (t.log.sharing a)
  unfold act
  generalize deliver direction ⟨fun _ => f, fun _ => w⟩ m (t.log.sharing a) = r
    at hadapter hwrote ⊢
  obtain ⟨d, status⟩ := r
  refine ⟨hadapter, ?_⟩
  cases status with
  | running =>
    dsimp only
    rw [log_look]
    refine ⟨hwrote.within, fun _ => hwrote.whole rfl, fun hc => ?_⟩
    rcases look_cases build { t with log := d.apart } with
      ⟨n, -, hl⟩ | ⟨-, ⟨-, hl⟩ | ⟨-, hl⟩⟩ <;> rw [hl] at hc <;> cases hc
  | returned =>
    exact ⟨hwrote.within, fun hc => absurd (Or.inl rfl) hc, fun _ => hwrote.failed rfl⟩
  | panicked =>
    exact ⟨hwrote.within, fun hc => absurd (Or.inr rfl) hc, fun hc => by cases hc⟩

/-- **Step lemma.** A message dealt with adds its contribution. -/
theorem Relayed.act {m : List UInt8} {f : Bool} {w : WriteAll} {more : List (List UInt8)}
    (henv : Supplies env s.2 (.act w :: events)) (hpc : s.2.pc = .loaded m f)
    (hrun : run (step build direction) events (s.2.act build direction m f w s.1) = some s')
    (h : Relayed direction env events (s.2.act build direction m f w s.1) s' more) :
    Relayed direction env (.act w :: events) s s' (m :: more) := by
  obtain ⟨hadapter, hwithin, hwhole, hfailed⟩ :=
    act_writes build direction m f w s.1 s.2
  obtain ⟨hframes, -, -⟩ := loads_act build direction m f w s.1 s.2
  have hdue := due_cons direction env.enabled s.2.log.frames.length s.1 m more
  rw [henv.loaded m f hpc, ← hadapter] at hdue
  have hlen : (s.2.act build direction m f w s.1).2.log.frames.length =
      s.2.log.frames.length + 1 := by
    rw [hframes, List.length_append, List.length_singleton]
  refine ⟨by rw [h.frames, hframes, List.append_assoc]; rfl, ?_, ?_⟩
  · by_cases hover : (s.2.act build direction m f w s.1).2.Over
    · obtain ⟨-, rfl⟩ := run_of_over hover hrun
      rw [hdue, ← List.append_assoc]
      exact hwithin.trans (List.prefix_append _ _)
    · rw [hdue, ← List.append_assoc, ← hwhole hover, ← hlen]
      exact h.within
  · intro hunbroken
    by_cases hover : (s.2.act build direction m f w s.1).2.Over
    · obtain ⟨-, rfl⟩ := run_of_over hover hrun
      rcases hover with hpc' | hpc'
      · exact absurd (hunbroken.2 hpc' w List.mem_cons_self) (hfailed hpc')
      · exact absurd hpc' hunbroken.1
    · rw [hdue, ← List.append_assoc, ← hwhole hover, ← hlen]
      refine h.whole ⟨hunbroken.1, fun hpc' w' hw' => ?_⟩
      exact hunbroken.2 hpc' w' (List.mem_cons_of_mem w hw')

/-- **What a thread writes** is, at any moment, the beginning of what the answers to its messages
come to, and all of it unless it was cut short. -/
theorem written_of_run (h : run (step build direction) events s = some s')
    (henv : Supplies env s.2 events) : ∃ more, Relayed direction env events s s' more := by
  induction events generalizing s with
  | nil =>
    cases h
    have hnil : s'.2.log.written = s'.2.log.written ++ [] := (List.append_nil _).symm
    exact ⟨[], (List.append_nil _).symm, ⟨[], rfl⟩, fun _ => hnil⟩
  | cons e events ih =>
    obtain ⟨mid, hmid, hrest⟩ := Lib.run_cons_eq_some h
    obtain ⟨more, hmore⟩ := ih hrest (henv.tail hmid)
    rcases step_cases hmid with ⟨p, rfl, hpc, rfl⟩ | ⟨f, m, rfl, hpc, rfl⟩ |
      ⟨w, m, f, rfl, hpc, rfl⟩
    · -- a poll leaves the log alone
      obtain ⟨hframes, hwithin, hwhole⟩ := hmore
      rw [(loads_poll build p hpc).1] at hframes hwithin hwhole
      exact ⟨more, hframes, hwithin, hwhole⟩
    · exact ⟨more, hmore.frames, hmore.within, hmore.whole⟩
    · exact ⟨m :: more, hmore.act henv hpc hrest⟩

end Thread

end Blackswan.Fix
