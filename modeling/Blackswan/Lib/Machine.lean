import Mathlib.Init

/-!
# Runs of a machine

A machine takes events one at a time and refuses those that cannot happen in its state. What an
event preserves, a run preserves (`run_invariant`); what an event adds at most, a run adds at most
once per such event (`run_measure_le`). What an event preserves only under a condition holds
throughout the runs whose events all meet it (`Along.throughout`).
-/

namespace Lib

variable {σ ε : Type}

/-- The state after a list of events, if each of them can happen. -/
def run (step : σ → ε → Option σ) : List ε → σ → Option σ
  | [], s => some s
  | e :: events, s => (step s e).bind (run step events)

variable {step : σ → ε → Option σ} {e : ε} {events : List ε} {s s' : σ}

theorem run_cons_eq_some (h : run step (e :: events) s = some s') :
    ∃ mid, step s e = some mid ∧ run step events mid = some s' :=
  Option.bind_eq_some_iff.mp h

theorem run_singleton (h : step s e = some s') : run step [e] s = some s' := by
  rw [run, h]
  rfl

/-- A machine that refuses nothing takes every list of events. -/
theorem exists_run (hstep : ∀ s e, ∃ s', step s e = some s') (events : List ε) (s : σ) :
    ∃ s', run step events s = some s' := by
  induction events generalizing s with
  | nil => exact ⟨s, rfl⟩
  | cons e events ih =>
    obtain ⟨mid, hmid⟩ := hstep s e
    rw [run, hmid]
    exact ih mid

/-- **The invariant rule.** -/
theorem run_invariant (Inv : σ → Prop) (hstep : ∀ s e s', Inv s → step s e = some s' → Inv s')
    (hs : Inv s) (h : run step events s = some s') : Inv s' := by
  induction events generalizing s with
  | nil =>
    cases h
    exact hs
  | cons e events ih =>
    obtain ⟨mid, hmid, hrest⟩ := run_cons_eq_some h
    exact ih (hstep s e mid hs hmid) hrest

/-- A measure that grows by at most one at some events and not at all at the others. -/
theorem run_measure_le (measure : σ → Nat) (grows : ε → Bool)
    (hstep : ∀ s e s', step s e = some s' →
      measure s' ≤ measure s + if grows e then 1 else 0)
    (h : run step events s = some s') : measure s' ≤ measure s + events.countP grows := by
  induction events generalizing s with
  | nil =>
    cases h
    simp
  | cons e events ih =>
    obtain ⟨mid, hmid, hrest⟩ := run_cons_eq_some h
    have h₁ := hstep s e mid hmid
    have h₂ := ih hrest
    rw [List.countP_cons]
    omega

/-- A measure that counts some of the events. -/
theorem run_measure_eq (measure : σ → Nat) (counted : ε → Bool)
    (hstep : ∀ s e s', step s e = some s' →
      measure s' = measure s + if counted e then 1 else 0)
    (h : run step events s = some s') : measure s' = measure s + events.countP counted := by
  induction events generalizing s with
  | nil =>
    cases h
    simp
  | cons e events ih =>
    obtain ⟨mid, hmid, hrest⟩ := run_cons_eq_some h
    rw [ih hrest, hstep s e mid hmid, List.countP_cons]
    omega

/-- A bound on what is left to do that no event raises and the counted events lower: it bounds how
many of them a run has. -/
theorem run_countP_le (Left : σ → Nat → Prop) (counted : ε → Bool)
    (hstep : ∀ s e s' n, e ∈ events → Left s n → step s e = some s' →
      ∃ m, Left s' m ∧ m + (if counted e then 1 else 0) ≤ n)
    {n : Nat} (hs : Left s n) (h : run step events s = some s') :
    ∃ m, Left s' m ∧ m + events.countP counted ≤ n := by
  induction events generalizing s n with
  | nil =>
    cases h
    exact ⟨n, hs, Nat.le_refl n⟩
  | cons e events ih =>
    obtain ⟨mid, hmid, hrest⟩ := run_cons_eq_some h
    obtain ⟨m, hm, hle⟩ := hstep s e mid n List.mem_cons_self hs hmid
    obtain ⟨m', hm', hle'⟩ :=
      ih (fun s e s' n he => hstep s e s' n (List.mem_cons_of_mem _ he)) hm hrest
    refine ⟨m', hm', ?_⟩
    rw [List.countP_cons]
    omega

theorem run_append (step : σ → ε → Option σ) (pre post : List ε) (s : σ) :
    run step (pre ++ post) s = (run step pre s).bind (run step post) := by
  induction pre generalizing s with
  | nil => rfl
  | cons e pre ih =>
    rw [List.cons_append, run, run, Option.bind_assoc]
    exact congrArg (Option.bind (step s e)) (funext ih)

/-! ## Conditions on the events of a run -/

/-- Every event meets the condition in the state it happens in. -/
def Along (step : σ → ε → Option σ) (Ok : σ → ε → Prop) (events : List ε) (s : σ) : Prop :=
  ∀ pre e post mid, events = pre ++ e :: post → run step pre s = some mid → Ok mid e

/-- Every state that the run passes through, the first and the last included, has the property. -/
def Throughout (step : σ → ε → Option σ) (P : σ → Prop) (events : List ε) (s : σ) : Prop :=
  ∀ pre post mid, events = pre ++ post → run step pre s = some mid → P mid

variable {Ok : σ → ε → Prop}

theorem Along.tail (h : Along step Ok (e :: events) s) {mid : σ} (hmid : step s e = some mid) :
    Along step Ok events mid := by
  rintro pre e' post last rfl hlast
  refine h (e :: pre) e' post last rfl ?_
  rw [run, hmid]
  exact hlast

/-- **The invariant rule under a condition.** -/
theorem Along.throughout {Inv : σ → Prop}
    (hstep : ∀ s e s', Inv s → Ok s e → step s e = some s' → Inv s') (hs : Inv s)
    (h : Along step Ok events s) : Throughout step Inv events s := by
  intro pre post mid hevents hmid
  induction pre generalizing s events with
  | nil =>
    cases hmid
    exact hs
  | cons e pre ih =>
    obtain ⟨next, hnext, hrest⟩ := run_cons_eq_some hmid
    subst hevents
    exact ih (hstep s e next hs (h [] e (pre ++ post) s rfl rfl) hnext) (h.tail hnext) rfl hrest

end Lib
