import Mathlib.Data.Nat.Basic
import Mathlib.Tactic.Use

/-!
# Fuel-bounded loops

`loop body n s` runs at most `n` passes of `body` from `s`. A pass either asks for another one
or ends the loop with a result; `none` means that the fuel ran out. `Ends body s r` says that
some fuel is enough.

1. More fuel never changes a result (`loop_mono`), so the result is unique (`Ends.unique`).
2. `Ends.invariant`: what every pass preserves holds when the loop ends.
3. `exists_ends`: an invariant indexed by the pass that forces the loop to stop at pass `N`.
4. `exists_ends_of_measure`: a measure that every pass decreases.
5. `loop_simulates`: two loops whose passes match end together, or one before the other.
-/

namespace Lib

/-- What one pass of a loop decides. -/
inductive Turn (σ ρ : Type*) where
  | again (s : σ)
  | done (r : ρ)

variable {σ ρ : Type*}

/-- At most `n` passes of `body`. -/
def loop (body : σ → Turn σ ρ) : ℕ → σ → Option ρ
  | 0, _ => none
  | n + 1, s =>
    match body s with
    | .again s' => loop body n s'
    | .done r => some r

/-- The loop ends with the result `r`. -/
def Ends (body : σ → Turn σ ρ) (s : σ) (r : ρ) : Prop := ∃ n, loop body n s = some r

variable {body : σ → Turn σ ρ} {s s' : σ} {r r' : ρ} {n m : ℕ}

theorem loop_succ_again (h : body s = .again s') : loop body (n + 1) s = loop body n s' := by
  rw [loop, h]

theorem loop_succ_done (h : body s = .done r) : loop body (n + 1) s = some r := by
  rw [loop, h]

theorem loop_mono (h : loop body n s = some r) (hnm : n ≤ m) : loop body m s = some r := by
  induction n generalizing s m with
  | zero => simp [loop] at h
  | succ n ih =>
    obtain ⟨k, rfl⟩ : ∃ k, m = k + 1 := ⟨m - 1, by omega⟩
    rcases hb : body s with s' | r'
    · rw [loop_succ_again hb] at h ⊢
      exact ih h (by omega)
    · rw [loop_succ_done hb] at h ⊢
      exact h

theorem Ends.unique (h : Ends body s r) (h' : Ends body s r') : r = r' := by
  obtain ⟨n, hn⟩ := h
  obtain ⟨m, hm⟩ := h'
  have hn' := loop_mono hn (Nat.le_max_left n m)
  rw [loop_mono hm (Nat.le_max_right n m)] at hn'
  exact (Option.some.inj hn').symm

theorem ends_of_done (h : body s = .done r) : Ends body s r := ⟨1, loop_succ_done h⟩

theorem ends_of_again (h : body s = .again s') (hs : Ends body s' r) : Ends body s r := by
  obtain ⟨n, hn⟩ := hs
  exact ⟨n + 1, by rw [loop_succ_again h, hn]⟩

/-- What holds at the loop head and is preserved by every pass gives the postcondition of the
last pass. -/
theorem Ends.invariant (Inv : σ → Prop) (Post : ρ → Prop)
    (hagain : ∀ s s', Inv s → body s = .again s' → Inv s')
    (hdone : ∀ s r, Inv s → body s = .done r → Post r) (hs : Inv s) (h : Ends body s r) :
    Post r := by
  obtain ⟨n, hn⟩ := h
  induction n generalizing s with
  | zero => simp [loop] at hn
  | succ n ih =>
    rcases hb : body s with s' | r'
    · rw [loop_succ_again hb] at hn
      exact ih (hagain s s' hs hb) hn
    · rw [loop_succ_done hb] at hn
      obtain rfl := Option.some.inj hn
      exact hdone s r' hs hb

/-- An invariant indexed by the number of passes, under which pass `N` at the latest is the
last one. -/
theorem exists_ends (Inv : ℕ → σ → Prop) (N : ℕ)
    (hstep : ∀ k s, k < N → Inv k s →
      (∃ r, body s = .done r) ∨ ∃ s', body s = .again s' ∧ Inv (k + 1) s')
    (hlast : ∀ s, Inv N s → ∃ r, body s = .done r) (hs : Inv 0 s) : ∃ r, Ends body s r := by
  -- the passes still allowed decrease
  have key : ∀ d k s, k + d = N → Inv k s → ∃ r, Ends body s r := by
    intro d
    induction d with
    | zero =>
      intro k s hk hs
      obtain rfl : k = N := by omega
      obtain ⟨r, hr⟩ := hlast s hs
      exact ⟨r, ends_of_done hr⟩
    | succ d ih =>
      intro k s hk hs
      rcases hstep k s (by omega) hs with ⟨r, hr⟩ | ⟨s', hb, hs'⟩
      · exact ⟨r, ends_of_done hr⟩
      · obtain ⟨r, hr⟩ := ih (k + 1) s' (by omega) hs'
        exact ⟨r, ends_of_again hb hr⟩
  exact key N 0 s (by omega) hs

/-- The states at the head of the loop. -/
inductive Passes (body : σ → Turn σ ρ) (s : σ) : σ → Prop where
  | refl : Passes body s s
  | again {t t' : σ} : Passes body s t → body t = .again t' → Passes body s t'

/-- A loop ends if every pass that asks for another one decreases a measure. -/
theorem exists_ends_of_measure (measure : σ → ℕ)
    (hdec : ∀ t t', Passes body s t → body t = .again t' → measure t' < measure t) :
    ∃ r, Ends body s r := by
  have key : ∀ k t, measure t = k → Passes body s t → ∃ r, Ends body t r := by
    intro k
    induction k using Nat.strongRecOn with
    | _ k ih =>
      intro t hk hpass
      rcases hb : body t with t' | r
      · have hlt := hdec t t' hpass hb
        obtain ⟨r, hr⟩ := ih (measure t') (by omega) t' rfl (hpass.again hb)
        exact ⟨r, ends_of_again hb hr⟩
      · exact ⟨r, ends_of_done hb⟩
  exact key (measure s) s rfl .refl

/-- **A loop that follows another one.** Each pass of `body` is matched by a pass of `body'`, until
one of the two ends. Should `body'` end first, `Ended` is what its result has to do with the passes
that `body` still makes. -/
theorem loop_simulates {σ' ρ' : Type*} {body' : σ' → Turn σ' ρ'} {t : σ'} (Sim : σ → σ' → Prop)
    (Ended : σ → ρ' → Prop) (Post : ρ' → Prop)
    (hagain : ∀ s s' t, Sim s t → body s = .again s' →
      (∃ t', body' t = .again t' ∧ Sim s' t') ∨ ∃ q, body' t = .done q ∧ Ended s' q)
    (hstay : ∀ s s' q, Ended s q → body s = .again s' → Ended s' q)
    (hdone : ∀ s t, Sim s t → body s = .done r → ∃ q, body' t = .done q ∧ Post q)
    (hended : ∀ s q, Ended s q → body s = .done r → Post q)
    (hsim : Sim s t) (h : loop body n s = some r) :
    ∃ q, loop body' n t = some q ∧ Post q := by
  -- once `body'` has ended, its result waits for the end of `body`
  have hwait : ∀ n s q, Ended s q → loop body n s = some r → Post q := by
    intro n s q hq hn
    exact Ends.invariant (fun s => Ended s q) (fun r' => r' = r → Post q)
      (fun s s' hs hb => hstay s s' q hs hb) (fun s r' hs hb hr => hended s q hs (hr ▸ hb)) hq
      ⟨n, hn⟩ rfl
  induction n generalizing s t with
  | zero => simp [loop] at h
  | succ n ih =>
    rcases hb : body s with s' | r'
    · rw [loop_succ_again hb] at h
      rcases hagain s s' t hsim hb with ⟨t', ht, hsim'⟩ | ⟨q, ht, hq⟩
      · rw [loop_succ_again ht]
        exact ih hsim' h
      · exact ⟨q, loop_succ_done ht, hwait n s' q hq h⟩
    · rw [loop_succ_done hb] at h
      obtain rfl := Option.some.inj h
      obtain ⟨q, ht, hq⟩ := hdone s t hsim hb
      exact ⟨q, loop_succ_done ht, hq⟩

/-- A loop that always asks for another pass does not end. -/
theorem not_ends_of_again (Inv : σ → Prop) (hs : Inv s)
    (hagain : ∀ t, Inv t → ∃ t', body t = .again t' ∧ Inv t') (r : ρ) : ¬ Ends body s r := by
  intro h
  refine Ends.invariant Inv (fun _ => False) ?_ ?_ hs h
  · intro t t' ht hb
    obtain ⟨u, hu, hInv⟩ := hagain t ht
    rw [hu] at hb
    cases hb
    exact hInv
  · intro t r ht hb
    obtain ⟨u, hu, -⟩ := hagain t ht
    rw [hu] at hb
    cases hb

end Lib
