import Mathlib.Logic.Function.Basic
import Blackswan.Fix.Injector
import Blackswan.Lib.Machine

/-!
# The throttle under arming, disarming and traffic

A machine of the whole component: the injector's `arm` and `disarm`, and the two relay threads,
each of which loads the `enabled` flag for a message and only later, with anything in between,
acts on it. The throttle's counter lives in the adapter that the threads share.

The machine also keeps a census, which the source does not: how many outbound messages have been
seen while armed, over the whole run (`total`) and since the injector last went from disarmed to
armed (`window`). The throttle is documented in terms of the window; `Counts` shows that it
decides by the total, and `Windows` how the two are related, which gives the exact condition under
which they agree.
-/

namespace Blackswan.Fix

open Lib (Outcome)

/-- What happens to the component: a call on the injector, a relay thread that takes up a message
and loads the flag, or a relay thread that acts on the message it has taken up. -/
inductive ThrottleEvent where
  | arm
  | disarm
  | load (msg : RawMessage)
  | act (direction : Direction)
  deriving DecidableEq, Repr

def ThrottleEvent.isLoad : ThrottleEvent → Bool
  | .load _ => true
  | _ => false

/-- Outbound messages seen while armed. -/
structure Census where
  window : ℕ
  total : ℕ
  deriving DecidableEq, Repr

/-- A message with the flag loaded for it and the census at that moment, itself included. -/
structure Seen where
  msg : RawMessage
  armed : Bool
  window : ℕ
  total : ℕ
  deriving DecidableEq, Repr

/-- The message is outbound and was seen while armed. -/
def Seen.Counted (p : Seen) : Prop := p.armed = true ∧ p.msg.direction = .outbound

instance (p : Seen) : Decidable p.Counted := by unfold Seen.Counted; infer_instance

/-- A message that has been dealt with. -/
structure Handled extends Seen where
  action : InterceptAction
  deriving DecidableEq, Repr

/-- An outbound message seen while armed is dropped exactly when it is beyond the threshold in
its window; every other message is forwarded. -/
def Handled.AsDocumented (limit : UInt64) (e : Handled) : Prop :=
  e.action = if e.Counted ∧ limit.toNat < e.window then .drop else .forward

structure ThrottleSystem (build : Build) where
  injector : FixFaultInjector (FixRateLimitThrottle build)
  pending : Direction → Option Seen
  census : Census
  log : List Handled

namespace ThrottleSystem

variable {build : Build}

def new (id listenAddr upstreamAddr : String) (threshold : UInt64) : ThrottleSystem build :=
  ⟨.new id listenAddr upstreamAddr (.new threshold), fun _ => none, ⟨0, 0⟩, []⟩

/-- The adapter the relay threads share. -/
def adapter (s : ThrottleSystem build) : FixRateLimitThrottle build := s.injector.proxy.adapter

def setAdapter (s : ThrottleSystem build) (adapter : FixRateLimitThrottle build) :
    ThrottleSystem build :=
  { s with injector := { s.injector with proxy := { s.injector.proxy with adapter := adapter } } }

/-- `arm()` with a proxy that starts. -/
def armed (s : ThrottleSystem build) : ThrottleSystem build :=
  { s with
    injector := (s.injector.arm ⟨fun _ => .ok ()⟩).2
    census := if s.injector.isArmed then s.census else { s.census with window := 0 } }

def disarmed (s : ThrottleSystem build) : ThrottleSystem build :=
  { s with injector := s.injector.disarm.2 }

/-- A relay thread drains a message and loads the flag. -/
def loaded (s : ThrottleSystem build) (msg : RawMessage) : ThrottleSystem build :=
  let armed := s.injector.proxy.enabled
  let census := if armed = true ∧ msg.direction = .outbound then
    ⟨s.census.window + 1, s.census.total + 1⟩ else s.census
  { s with
    census := census
    pending := Function.update s.pending msg.direction
      (some ⟨msg, armed, census.window, census.total⟩) }

/-- The thread has dealt with its message. -/
def handled (s : ThrottleSystem build) (p : Seen) (action : InterceptAction) :
    ThrottleSystem build :=
  { s with
    pending := Function.update s.pending p.msg.direction none
    log := s.log ++ [⟨p, action⟩] }

/-- A relay thread acts on the message it has taken up, as in the body of `relay`. A panic leaves
the thread where it is for good. -/
def acted (s : ThrottleSystem build) (p : Seen) : ThrottleSystem build :=
  if p.armed then
    let res := s.adapter.intercept p.msg
    match res.1 with
    | .ok action => (s.setAdapter res.2).handled p action
    | .err _ => (s.setAdapter res.2).handled p .forward
    | .panic => s.setAdapter res.2
  else s.handled p .forward

/-- One event, if it can happen: messages need a running proxy, and a relay thread deals with one
message at a time. -/
def step (s : ThrottleSystem build) : ThrottleEvent → Option (ThrottleSystem build)
  | .arm => some s.armed
  | .disarm => some s.disarmed
  | .load msg =>
    if s.injector.proxy.running = true ∧ s.pending msg.direction = none then some (s.loaded msg)
    else none
  | .act direction => (s.pending direction).map s.acted

/-! ## What `armed` and `acted` come to -/

theorem armed_eq (s : ThrottleSystem build) :
    s.armed = { s with
      injector := { s.injector with
        proxy := { s.injector.proxy with enabled := true, running := true }, armed := true }
      census := if s.injector.armed then s.census else { s.census with window := 0 } } := by
  unfold armed
  rw [FixFaultInjector.arm_of_bind s.injector fun _ => rfl]
  rfl

theorem acted_of_not_counted (s : ThrottleSystem build) {p : Seen} (h : ¬ p.Counted) :
    s.acted p = s.handled p .forward := by
  unfold acted
  split_ifs with harmed
  · have hdir : p.msg.direction ≠ .outbound := fun hd => h ⟨harmed, hd⟩
    have hres : s.adapter.intercept p.msg = (.ok .forward, s.adapter) := by
      unfold FixRateLimitThrottle.intercept
      rw [if_pos hdir]
    rw [hres]
    rfl
  · rfl

/-- Below the range of the counter the throttle counts the message and decides by the count. -/
theorem acted_of_counted (s : ThrottleSystem build) {p : Seen} (h : p.Counted)
    (hcount : s.adapter.count.toNat + 1 < 2 ^ 64) :
    s.acted p = (s.setAdapter { s.adapter with count := s.adapter.count + 1 }).handled p
      (if s.adapter.threshold.toNat < s.adapter.count.toNat + 1 then .drop else .forward) := by
  have hseen : (s.adapter.count + 1).toNat = s.adapter.count.toNat + 1 := by
    rw [UInt64.toNat_add]
    exact Nat.mod_eq_of_lt hcount
  have hres : s.adapter.intercept p.msg =
      (.ok (if s.adapter.threshold.toNat < s.adapter.count.toNat + 1 then .drop else .forward),
        { s.adapter with count := s.adapter.count + 1 }) := by
    unfold FixRateLimitThrottle.intercept
    rw [if_neg (by simp [h.2]), if_neg (by omega)]
    simp only [gt_iff_lt, UInt64.lt_iff_toNat_lt, hseen]
  unfold acted
  rw [if_pos h.1, hres]

/-! ## The counter counts the total -/

/-- The outbound message that has been counted in the census but not yet by the adapter. -/
def waiting (s : ThrottleSystem build) : ℕ :=
  match s.pending .outbound with
  | some p => if p.armed then 1 else 0
  | none => 0

/-- The throttle's counter against the census, and what has been decided by it. -/
structure Counts (limit : UInt64) (s : ThrottleSystem build) : Prop where
  threshold : s.adapter.threshold = limit
  flag : s.injector.proxy.enabled = s.injector.armed
  count : s.adapter.count.toNat + s.waiting = s.census.total
  latest : ∀ p, s.pending .outbound = some p → p.armed = true → p.total = s.census.total
  decided : ∀ e ∈ s.log, e.action =
    if e.Counted ∧ limit.toNat < e.total then .drop else .forward

variable {limit : UInt64} {s s' : ThrottleSystem build} {e : ThrottleEvent}

theorem counts_new (id listenAddr upstreamAddr : String) :
    Counts limit (new id listenAddr upstreamAddr limit : ThrottleSystem build) where
  threshold := rfl
  flag := rfl
  count := rfl
  latest := fun _ h => by cases h
  decided := fun _ h => by cases h

theorem Counts.armed (h : Counts limit s) : Counts limit s.armed := by
  rw [armed_eq]
  refine ⟨h.threshold, rfl, ?_, ?_, h.decided⟩
  · rw [show (if s.injector.armed then s.census else { s.census with window := 0 }).total =
      s.census.total by split_ifs <;> rfl]
    exact h.count
  · intro p hp harmed
    rw [show (if s.injector.armed then s.census else { s.census with window := 0 }).total =
      s.census.total by split_ifs <;> rfl]
    exact h.latest p hp harmed

theorem Counts.disarmed (h : Counts limit s) : Counts limit s.disarmed :=
  ⟨h.threshold, rfl, h.count, h.latest, h.decided⟩

theorem Counts.loaded (h : Counts limit s) {msg : RawMessage}
    (hfree : s.pending msg.direction = none) : Counts limit (s.loaded msg) := by
  refine ⟨h.threshold, h.flag, ?_, ?_, h.decided⟩
  · have hcount := h.count
    rcases hdir : msg.direction with _ | _
    · -- an inbound message is not counted
      simpa [ThrottleSystem.loaded, waiting, hdir, adapter] using hcount
    · rw [hdir] at hfree
      rcases hon : s.injector.proxy.enabled with _ | _ <;>
        simpa [ThrottleSystem.loaded, waiting, hdir, hon, hfree, adapter] using hcount
  · intro p hp harmed
    rcases hdir : msg.direction with _ | _
    · have hp' : s.pending .outbound = some p := by simpa [ThrottleSystem.loaded, hdir] using hp
      simpa [ThrottleSystem.loaded, hdir] using h.latest p hp' harmed
    · simp only [ThrottleSystem.loaded, hdir, Function.update_self, Option.some.injEq] at hp
      rw [← hp]
      simp [ThrottleSystem.loaded, hdir]

/-- A message of one thread that leaves the counter alone. -/
theorem Counts.handled_forward (h : Counts limit s) {p : Seen} (hcounted : ¬ p.Counted)
    (hp : s.pending p.msg.direction = some p) : Counts limit (s.handled p .forward) := by
  refine ⟨h.threshold, h.flag, ?_, ?_, ?_⟩
  · have hcount := h.count
    rcases hdir : p.msg.direction with _ | _
    · simpa [handled, waiting, hdir, adapter] using hcount
    · have hoff : p.armed = false := by
        rw [← Bool.not_eq_true]
        exact fun hon => hcounted ⟨hon, hdir⟩
      rw [hdir] at hp
      simpa [handled, waiting, hdir, hp, hoff, adapter] using hcount
  · intro q hq harmed
    rcases hdir : p.msg.direction with _ | _
    · exact h.latest q (by simpa [handled, hdir] using hq) harmed
    · simp [handled, hdir] at hq
  · intro e he
    rcases List.mem_append.mp he with he | he
    · exact h.decided e he
    · rw [List.mem_singleton.mp he, if_neg fun hc => hcounted hc.1]

theorem Counts.acted (h : Counts limit s) (hsmall : s.census.total < 2 ^ 64) {p : Seen}
    (hp : s.pending p.msg.direction = some p) : Counts limit (s.acted p) := by
  by_cases hcounted : p.Counted
  · -- the waiting message is counted now, and decided by the total it was seen with
    have hpout : s.pending .outbound = some p := hcounted.2 ▸ hp
    have hwaiting : s.waiting = 1 := by simp [waiting, hpout, hcounted.1]
    have htotal := h.latest p hpout hcounted.1
    have hcount := h.count
    rw [hwaiting] at hcount
    rw [acted_of_counted s hcounted (by omega), hcount, h.threshold, ← htotal]
    refine ⟨h.threshold, h.flag, ?_, ?_, ?_⟩
    · have hsucc : (s.adapter.count + 1).toNat = s.adapter.count.toNat + 1 := by
        rw [UInt64.toNat_add]
        exact Nat.mod_eq_of_lt (by show s.adapter.count.toNat + 1 < 2 ^ 64; omega)
      have hnone : ((s.setAdapter { s.adapter with count := s.adapter.count + 1 }).handled p
          (if limit.toNat < p.total then .drop else .forward)).waiting = 0 := by
        simp [handled, waiting, hcounted.2]
      rw [hnone]
      show (s.adapter.count + 1).toNat + 0 = s.census.total
      omega
    · intro q hq
      simp [handled, hcounted.2] at hq
    · intro e he
      rcases List.mem_append.mp he with he | he
      · exact h.decided e he
      · rw [List.mem_singleton.mp he]
        simp [hcounted]
  · rw [acted_of_not_counted s hcounted]
    exact h.handled_forward hcounted hp

/-! ## Windows and totals -/

/-- A counted message with this window and total has been dealt with. -/
def InLog (s : ThrottleSystem build) (window total : ℕ) : Prop :=
  ∃ e ∈ s.log, e.Counted ∧ e.window = window ∧ e.total = total

/-- Within a window, window and total grow together, one message at a time. -/
structure Windows (s : ThrottleSystem build) : Prop where
  directed : ∀ d p, s.pending d = some p → p.msg.direction = d
  le : s.census.window ≤ s.census.total
  pending_le : ∀ p, s.pending .outbound = some p → p.Counted → 1 ≤ p.window ∧ p.window ≤ p.total
  log_le : ∀ e ∈ s.log, e.Counted → 1 ≤ e.window ∧ e.window ≤ e.total
  latest : 1 ≤ s.census.window → s.InLog s.census.window s.census.total ∨
    ∃ p, s.pending .outbound = some p ∧ p.Counted ∧ p.window = s.census.window ∧
      p.total = s.census.total
  pending_pred : ∀ p, s.pending .outbound = some p → p.Counted → 2 ≤ p.window →
    s.InLog (p.window - 1) (p.total - 1)
  log_pred : ∀ e ∈ s.log, e.Counted → 2 ≤ e.window → s.InLog (e.window - 1) (e.total - 1)

theorem windows_new (id listenAddr upstreamAddr : String) (limit : UInt64) :
    Windows (new id listenAddr upstreamAddr limit : ThrottleSystem build) where
  directed := fun _ _ h => by cases h
  le := Nat.le_refl 0
  pending_le := fun _ h => by cases h
  log_le := fun _ h => by cases h
  latest := fun h => absurd h (by show ¬ 1 ≤ 0; omega)
  pending_pred := fun _ h => by cases h
  log_pred := fun _ h => by cases h

theorem Windows.armed (h : Windows s) : Windows s.armed := by
  rw [armed_eq]
  rcases s.injector.armed with _ | _
  · -- a new window opens
    exact ⟨h.directed, Nat.zero_le _, h.pending_le, h.log_le,
      fun hc => absurd hc (by show ¬ 1 ≤ 0; omega), h.pending_pred, h.log_pred⟩
  · exact ⟨h.directed, h.le, h.pending_le, h.log_le, h.latest, h.pending_pred, h.log_pred⟩

theorem Windows.disarmed (h : Windows s) : Windows s.disarmed :=
  ⟨h.directed, h.le, h.pending_le, h.log_le, h.latest, h.pending_pred, h.log_pred⟩

theorem directed_loaded (h : Windows s) (msg : RawMessage) (d : Direction) (p : Seen)
    (hp : (s.loaded msg).pending d = some p) : p.msg.direction = d := by
  by_cases hd : d = msg.direction
  · subst hd
    simp only [loaded, Function.update_self, Option.some.injEq] at hp
    rw [← hp]
  · simp only [loaded, Function.update_of_ne hd] at hp
    exact h.directed d p hp

/-- A counted message opens or continues the window. -/
theorem Windows.loaded_counted (h : Windows s) {msg : RawMessage}
    (hfree : s.pending msg.direction = none) (hon : s.injector.proxy.enabled = true)
    (hdir : msg.direction = .outbound) : Windows (s.loaded msg) := by
  have hcensus : (s.loaded msg).census = ⟨s.census.window + 1, s.census.total + 1⟩ := by
    simp [ThrottleSystem.loaded, hon, hdir]
  have hpending : (s.loaded msg).pending .outbound =
      some ⟨msg, true, s.census.window + 1, s.census.total + 1⟩ := by
    simp [ThrottleSystem.loaded, hon, hdir]
  have hle := h.le
  refine ⟨directed_loaded h msg, ?_, ?_, h.log_le,
    fun _ => Or.inr ⟨_, hpending, ⟨rfl, hdir⟩, ?_, ?_⟩, ?_, h.log_pred⟩
  · rw [hcensus]
    dsimp only
    omega
  · intro p hp _
    rw [hpending, Option.some.injEq] at hp
    subst hp
    exact ⟨by dsimp only; omega, by dsimp only; omega⟩
  · rw [hcensus]
  · rw [hcensus]
  · intro p hp _ htwo
    rw [hpending, Option.some.injEq] at hp
    subst hp
    dsimp only at htwo
    rw [hdir] at hfree
    rcases h.latest (by omega) with hlog | ⟨q, hq, -⟩
    · exact hlog
    · rw [hfree] at hq
      cases hq

/-- Any other message leaves the count and what is counted alone. -/
theorem Windows.loaded_uncounted (h : Windows s) {msg : RawMessage}
    (hfree : s.pending msg.direction = none)
    (hcounted : ¬ (s.injector.proxy.enabled = true ∧ msg.direction = .outbound)) :
    Windows (s.loaded msg) := by
  have hcensus : (s.loaded msg).census = s.census := by
    simp [ThrottleSystem.loaded, hcounted]
  have hpending : ∀ p, (s.loaded msg).pending .outbound = some p → p.Counted →
      s.pending .outbound = some p := by
    intro p hp hc
    rcases hdir : msg.direction with _ | _
    · simpa [ThrottleSystem.loaded, hdir] using hp
    · simp only [ThrottleSystem.loaded, hdir, Function.update_self, Option.some.injEq] at hp
      subst hp
      exact absurd ⟨hc.1, hdir⟩ hcounted
  refine ⟨directed_loaded h msg, hcensus ▸ h.le,
    fun p hp hc => h.pending_le p (hpending p hp hc) hc, h.log_le, ?_,
    fun p hp hc => h.pending_pred p (hpending p hp hc) hc, h.log_pred⟩
  rw [hcensus]
  intro hone
  rcases h.latest hone with hlog | ⟨q, hq, hc, hw, ht⟩
  · exact Or.inl hlog
  · -- the thread that holds `q` cannot have taken up this message
    rcases hdir : msg.direction with _ | _
    · exact Or.inr ⟨q, by simpa [ThrottleSystem.loaded, hdir] using hq, hc, hw, ht⟩
    · rw [hdir, hq] at hfree
      cases hfree

theorem Windows.loaded (h : Windows s) {msg : RawMessage}
    (hfree : s.pending msg.direction = none) : Windows (s.loaded msg) := by
  by_cases hcounted : s.injector.proxy.enabled = true ∧ msg.direction = .outbound
  · exact h.loaded_counted hfree hcounted.1 hcounted.2
  · exact h.loaded_uncounted hfree hcounted

theorem InLog.handled {window total : ℕ} (h : s.InLog window total) (p : Seen)
    (action : InterceptAction) : (s.handled p action).InLog window total := by
  obtain ⟨e, he, hrest⟩ := h
  exact ⟨e, List.mem_append_left _ he, hrest⟩

theorem Windows.handled (h : Windows s) {p : Seen} (hp : s.pending p.msg.direction = some p)
    (action : InterceptAction) : Windows (s.handled p action) := by
  have hpending : ∀ q, (s.handled p action).pending .outbound = some q →
      s.pending .outbound = some q := by
    intro q hq
    rcases hdir : p.msg.direction with _ | _
    · simpa [ThrottleSystem.handled, hdir] using hq
    · simp [ThrottleSystem.handled, hdir] at hq
  have hout : p.Counted → s.pending .outbound = some p := fun hc => hc.2 ▸ hp
  refine ⟨?_, h.le, fun q hq => h.pending_le q (hpending q hq), ?_, ?_,
    fun q hq hc htwo => (h.pending_pred q (hpending q hq) hc htwo).handled p action, ?_⟩
  · intro d q hq
    by_cases hd : d = p.msg.direction
    · simp [ThrottleSystem.handled, hd] at hq
    · simp only [ThrottleSystem.handled, Function.update_of_ne hd] at hq
      exact h.directed d q hq
  · intro e he hc
    rcases List.mem_append.mp he with he | he
    · exact h.log_le e he hc
    · rw [List.mem_singleton.mp he] at hc ⊢
      exact h.pending_le p (hout hc) hc
  · intro hone
    rcases h.latest hone with hlog | ⟨q, hq, hc, hw, ht⟩
    · exact Or.inl (hlog.handled p action)
    · rcases hdir : p.msg.direction with _ | _
      · exact Or.inr ⟨q, by simpa [ThrottleSystem.handled, hdir] using hq, hc, hw, ht⟩
      · -- the latest message is the one just dealt with
        rw [hdir, hq, Option.some.injEq] at hp
        subst hp
        exact Or.inl ⟨_, List.mem_append_right _ (List.mem_singleton_self _), hc, hw, ht⟩
  · intro e he hc htwo
    rcases List.mem_append.mp he with he | he
    · exact (h.log_pred e he hc htwo).handled p action
    · rw [List.mem_singleton.mp he] at hc htwo ⊢
      exact (h.pending_pred p (hout hc) hc htwo).handled p action

theorem Windows.setAdapter (h : Windows s) (adapter : FixRateLimitThrottle build) :
    Windows (s.setAdapter adapter) :=
  ⟨h.directed, h.le, h.pending_le, h.log_le, h.latest, h.pending_pred, h.log_pred⟩

theorem Windows.acted (h : Windows s) {p : Seen} (hp : s.pending p.msg.direction = some p) :
    Windows (s.acted p) := by
  unfold ThrottleSystem.acted
  split_ifs
  · have h' := h.setAdapter (s.adapter.intercept p.msg).2
    dsimp only
    rcases (s.adapter.intercept p.msg).1 with action | e | _
    · exact h'.handled hp action
    · exact h'.handled hp .forward
    · exact h'
  · exact h.handled hp .forward

/-! ## Runs -/

/-- What every run keeps, the counter only as far as its range goes. -/
def Inv (limit : UInt64) (s : ThrottleSystem build) : Prop :=
  Windows s ∧ (s.census.total < 2 ^ 64 → Counts limit s)

theorem total_loaded (s : ThrottleSystem build) (msg : RawMessage) :
    s.census.total ≤ (s.loaded msg).census.total ∧
      (s.loaded msg).census.total ≤ s.census.total + 1 := by
  unfold loaded
  dsimp only
  split_ifs
  · exact ⟨Nat.le_succ _, Nat.le_refl _⟩
  · exact ⟨Nat.le_refl _, Nat.le_succ _⟩

theorem total_armed (s : ThrottleSystem build) : s.armed.census.total = s.census.total := by
  unfold armed
  split_ifs <;> rfl

theorem total_acted (s : ThrottleSystem build) (p : Seen) :
    (s.acted p).census.total = s.census.total := by
  unfold acted
  split_ifs
  · dsimp only
    rcases (s.adapter.intercept p.msg).1 with action | e | _ <;> rfl
  · rfl

/-- The four kinds of events. -/
theorem step_cases (h : s.step e = some s') :
    (e = .arm ∧ s' = s.armed) ∨ (e = .disarm ∧ s' = s.disarmed) ∨
    (∃ msg, e = .load msg ∧ s.pending msg.direction = none ∧ s' = s.loaded msg) ∨
    ∃ d p, e = .act d ∧ s.pending d = some p ∧ s' = s.acted p := by
  rcases e with _ | _ | msg | d
  · cases h
    exact Or.inl ⟨rfl, rfl⟩
  · cases h
    exact Or.inr (Or.inl ⟨rfl, rfl⟩)
  · rw [step] at h
    split_ifs at h with hfree
    cases h
    exact Or.inr (Or.inr (Or.inl ⟨msg, rfl, hfree.2, rfl⟩))
  · obtain ⟨p, hp, rfl⟩ := Option.map_eq_some_iff.mp h
    exact Or.inr (Or.inr (Or.inr ⟨d, p, rfl, hp, rfl⟩))

theorem inv_step (limit : UInt64) (s : ThrottleSystem build) (e : ThrottleEvent)
    (s' : ThrottleSystem build) (h : Inv limit s) (hstep : s.step e = some s') : Inv limit s' := by
  obtain ⟨hw, hc⟩ := h
  rcases step_cases hstep with ⟨-, rfl⟩ | ⟨-, rfl⟩ | ⟨msg, -, hfree, rfl⟩ | ⟨d, p, -, hp, rfl⟩
  · exact ⟨hw.armed, fun hsmall => (hc (total_armed s ▸ hsmall)).armed⟩
  · exact ⟨hw.disarmed, fun hsmall => (hc hsmall).disarmed⟩
  · have hmono := (total_loaded s msg).1
    exact ⟨hw.loaded hfree, fun hsmall => (hc (by omega)).loaded hfree⟩
  · rw [← hw.directed d p hp] at hp
    rw [Inv, total_acted]
    exact ⟨hw.acted hp, fun hsmall => (hc hsmall).acted hsmall hp⟩

theorem total_step_le (s : ThrottleSystem build) (e : ThrottleEvent) (s' : ThrottleSystem build)
    (hstep : s.step e = some s') :
    s'.census.total ≤ s.census.total + if e.isLoad then 1 else 0 := by
  rcases step_cases hstep with ⟨rfl, rfl⟩ | ⟨rfl, rfl⟩ | ⟨msg, rfl, -, rfl⟩ | ⟨d, p, rfl, -, rfl⟩
  · rw [total_armed]
    exact Nat.le_add_right _ _
  · exact Nat.le_add_right _ _
  · exact (total_loaded s msg).2
  · rw [total_acted]
    exact Nat.le_add_right _ _

/-- The invariant at the end of a run with fewer than `2 ^ 64` messages. -/
theorem inv_run {events : List ThrottleEvent} {id listenAddr upstreamAddr : String}
    (hrun : Lib.run step events (new id listenAddr upstreamAddr limit) = some s)
    (hfew : events.countP ThrottleEvent.isLoad < 2 ^ 64) : Windows s ∧ Counts limit s := by
  have hinv := Lib.run_invariant (Inv limit) (inv_step limit)
    ⟨windows_new id listenAddr upstreamAddr limit, fun _ => counts_new id listenAddr upstreamAddr⟩
    hrun
  have htotal := Lib.run_measure_le (fun s => s.census.total) ThrottleEvent.isLoad
    total_step_le hrun
  have hzero : (new id listenAddr upstreamAddr limit : ThrottleSystem build).census.total = 0 := rfl
  exact ⟨hinv.1, hinv.2 (by omega)⟩

/-! ## The documented behaviour -/

/-- A window reaches back to its first message. -/
theorem Windows.inLog_sub (h : Windows s) {window total : ℕ} (hlog : s.InLog window total)
    {k : ℕ} (hk : k < window) : s.InLog (window - k) (total - k) := by
  induction k with
  | zero => exact hlog
  | succ k ih =>
    obtain ⟨e, he, hc, hw, ht⟩ := ih (by omega)
    have hpred := h.log_pred e he hc (by omega)
    rw [hw, ht] at hpred
    exact hpred

/-- **When the throttle does what its comment says.** In every run, over any interleaving with
fewer than `2 ^ 64` messages, the messages dealt with so far were all treated as documented if
and only if the threshold is zero or no message of a later window comes after more than the
threshold have been counted over all windows. -/
theorem throttle_as_documented_iff {events : List ThrottleEvent}
    {id listenAddr upstreamAddr : String}
    (hrun : Lib.run step events (new id listenAddr upstreamAddr limit) = some s)
    (hfew : events.countP ThrottleEvent.isLoad < 2 ^ 64) :
    (∀ e ∈ s.log, e.AsDocumented limit) ↔
      limit = 0 ∨ ∀ e ∈ s.log, e.Counted → e.window = e.total ∨ e.total ≤ limit.toNat := by
  obtain ⟨hwindows, hcounts⟩ := inv_run hrun hfew
  constructor
  · intro hdoc
    by_cases hzero : limit = 0
    · exact Or.inl hzero
    have hpos : 0 < limit.toNat := by
      rcases Nat.eq_zero_or_pos limit.toNat with h0 | h0
      · exact absurd (UInt64.toNat_inj.mp h0) hzero
      · exact h0
    refine Or.inr fun e he hc => ?_
    by_contra hbad
    rw [not_or] at hbad
    have hle := (hwindows.log_le e he hc).2
    -- a message of that window within the threshold, but beyond it over all windows
    have hinner : ∃ window total, s.InLog window total ∧ window ≤ limit.toNat ∧
        limit.toNat < total := by
      rcases Nat.lt_or_ge limit.toNat e.window with hlt | hge
      · refine ⟨_, _, hwindows.inLog_sub ⟨e, he, hc, rfl, rfl⟩
          (show e.window - limit.toNat < e.window by omega), by omega, by omega⟩
      · exact ⟨_, _, ⟨e, he, hc, rfl, rfl⟩, hge, by omega⟩
    obtain ⟨window, total, ⟨e', he', hc', rfl, rfl⟩, hwin, htot⟩ := hinner
    have hdrop := hcounts.decided e' he'
    rw [hdoc e' he', if_neg fun h => absurd h.2 (by omega), if_pos ⟨hc', htot⟩] at hdrop
    cases hdrop
  · intro hcond e he
    show e.action = _
    rw [hcounts.decided e he]
    by_cases hc : e.Counted
    · have hle := hwindows.log_le e he hc
      have hsame : limit.toNat < e.total ↔ limit.toNat < e.window := by
        rcases hcond with rfl | hcond
        · exact ⟨fun _ => hle.1, fun _ => Nat.lt_of_lt_of_le hle.1 hle.2⟩
        · rcases hcond e he hc with heq | hsmall
          · rw [heq]
          · omega
      simp only [hc, true_and, hsame]
    · rw [if_neg fun h => hc h.1, if_neg fun h => hc h.1]

/-- An outbound message. -/
def order : RawMessage := ⟨[68], .outbound⟩

/-- One window, threshold 1: the second message is dropped, as documented. -/
theorem throttle_one_window :
    ∃ s : ThrottleSystem .debug, Lib.run step
        [.arm, .load order, .act .outbound, .load order, .act .outbound]
        (new "throttle" "127.0.0.1:1" "127.0.0.1:2" 1) = some s ∧
      s.log.map Handled.action = [.forward, .drop] ∧ ∀ e ∈ s.log, e.AsDocumented 1 := by
  have hends : ∃ s : ThrottleSystem .debug, Lib.run step
        [.arm, .load order, .act .outbound, .load order, .act .outbound]
        (new "throttle" "127.0.0.1:1" "127.0.0.1:2" 1) = some s ∧
      s.log.map Handled.action = [.forward, .drop] ∧
      ∀ e ∈ s.log, e.Counted → e.window = e.total ∨ e.total ≤ (1 : UInt64).toNat :=
    ⟨_, rfl, by decide, by decide⟩
  obtain ⟨s, hrun, hactions, hcond⟩ := hends
  exact ⟨s, hrun, hactions, (throttle_as_documented_iff hrun (by decide)).mpr (Or.inr hcond)⟩

/-- Threshold 1, armed twice with one message each time: the message of the second window is
dropped although it is the first since the injector was armed. -/
theorem throttle_drops_after_rearm :
    ∃ s : ThrottleSystem .debug, Lib.run step
        [.arm, .load order, .act .outbound, .disarm, .arm, .load order, .act .outbound]
        (new "throttle" "127.0.0.1:1" "127.0.0.1:2" 1) = some s ∧
      ∃ e ∈ s.log, e.Counted ∧ e.window = 1 ∧ e.action = .drop := by
  refine ⟨_, rfl, ⟨⟨order, true, 1, 2⟩, .drop⟩, ?_, ?_⟩
  · decide
  · decide

end ThrottleSystem

end Blackswan.Fix
