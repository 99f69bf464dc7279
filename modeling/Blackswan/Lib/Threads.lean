import Mathlib.Data.Fintype.Basic
import Mathlib.Logic.Function.Basic
import Blackswan.Lib.Machine

/-!
# Threads over a shared state

Threads with a local state each take turns on one shared state. `Separate` says that a thread
notices nothing of what the others do to the shared state. Then an interleaved run shows each
thread exactly the run it would have had alone (`Separate.project`), whatever the interleaving.
How many threads are at some point of their program changes with the one that moves
(`filter_update_insert`, `filter_update_erase`).
-/

namespace Lib

variable {ι σ τ ε : Type} [DecidableEq ι]

/-- One event of one thread, in the interleaving of all of them. -/
def interleave (step : ι → σ × τ → ε → Option (σ × τ)) (s : σ × (ι → τ)) (e : ι × ε) :
    Option (σ × (ι → τ)) :=
  (step e.1 (s.1, s.2 e.1) e.2).map fun r => (r.1, Function.update s.2 e.1 r.2)

/-- The events of one thread. -/
def eventsOf (i : ι) (events : List (ι × ε)) : List ε :=
  events.filterMap fun e => if e.1 = i then some e.2 else none

theorem eventsOf_cons_self (i : ι) (e : ε) (events : List (ι × ε)) :
    eventsOf i ((i, e) :: events) = e :: eventsOf i events := by
  rw [eventsOf, List.filterMap_cons, if_pos rfl]
  rfl

theorem eventsOf_cons_of_ne {i j : ι} (h : j ≠ i) (e : ε) (events : List (ι × ε)) :
    eventsOf i ((j, e) :: events) = eventsOf i events := by
  rw [eventsOf, List.filterMap_cons, if_neg h]
  rfl

theorem interleave_eq_some {step : ι → σ × τ → ε → Option (σ × τ)} {s s' : σ × (ι → τ)}
    {i : ι} {e : ε} (h : interleave step s (i, e) = some s') :
    ∃ t, step i (s.1, s.2 i) e = some (s'.1, t) ∧ s'.2 = Function.update s.2 i t := by
  obtain ⟨r, hr, rfl⟩ := Option.map_eq_some_iff.mp h
  exact ⟨r.2, hr, rfl⟩

/-- To thread `i` the shared states `a` and `b` with `Alike i a b` are the same, and what the
other threads do keeps them so. -/
structure Separate (step : ι → σ × τ → ε → Option (σ × τ)) (Alike : ι → σ → σ → Prop) :
    Prop where
  own : ∀ {i a b t e a' t'}, Alike i a b → step i (a, t) e = some (a', t') →
    ∃ b', step i (b, t) e = some (b', t') ∧ Alike i a' b'
  other : ∀ {i j a b t e a' t'}, j ≠ i → Alike i a b → step j (a, t) e = some (a', t') →
    Alike i a' b

variable {step : ι → σ × τ → ε → Option (σ × τ)} {Alike : ι → σ → σ → Prop}

/-- **Each thread runs as if it were alone.** -/
theorem Separate.project (h : Separate step Alike) {events : List (ι × ε)}
    {s s' : σ × (ι → τ)} (hrun : run (interleave step) events s = some s') {i : ι} {b : σ}
    (hb : Alike i s.1 b) :
    ∃ b', run (step i) (eventsOf i events) (b, s.2 i) = some (b', s'.2 i) ∧ Alike i s'.1 b' := by
  induction events generalizing s b with
  | nil =>
    cases hrun
    exact ⟨b, rfl, hb⟩
  | cons e events ih =>
    obtain ⟨j, e⟩ := e
    obtain ⟨mid, hmid, hrest⟩ := run_cons_eq_some hrun
    obtain ⟨t, hstep, hlocal⟩ := interleave_eq_some hmid
    by_cases hj : j = i
    · -- an event of the thread itself: alone it does the same
      subst hj
      obtain ⟨b₁, hb₁, halike⟩ := h.own hb hstep
      obtain ⟨b', hb', hend⟩ := ih hrest halike
      rw [hlocal, Function.update_self] at hb'
      refine ⟨b', ?_, hend⟩
      rw [eventsOf_cons_self, run, hb₁]
      exact hb'
    · -- an event of another thread: nothing that this one can see
      obtain ⟨b', hb', hend⟩ := ih hrest (h.other hj hb hstep)
      rw [hlocal, Function.update_of_ne (Ne.symm hj)] at hb'
      rw [eventsOf_cons_of_ne hj]
      exact ⟨b', hb', hend⟩

/-! ## Counting threads -/

section
variable [Fintype ι] (f : ι → τ) (i : ι) {t : τ} (p : τ → Prop) [DecidablePred p]

/-- A thread has moved to where `p` holds. -/
theorem filter_update_insert (ht : p t) :
    ({j | p (Function.update f i t j)} : Finset ι) = insert i ({j | p (f j)} : Finset ι) := by
  ext j
  by_cases hj : j = i
  · simp [hj, ht]
  · simp [hj]

/-- A thread has moved to where `p` does not hold. -/
theorem filter_update_erase (ht : ¬ p t) :
    ({j | p (Function.update f i t j)} : Finset ι) = ({j | p (f j)} : Finset ι).erase i := by
  ext j
  by_cases hj : j = i
  · simp [hj, ht]
  · simp [hj]

end

end Lib
