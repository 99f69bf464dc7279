import Mathlib.Init

/-!
# Switches

A switch turns an effect on and off by writing a control cell, and remembers in a flag which of
the two it did last. Both calls can fail, at any of their steps.

`Lawful` says what one call does: it succeeds and does both halves, or it fails and does neither.
`Lawful.sound` derives from it what holds in every state a sequence of calls can reach: the flag
says what the cell holds. `Sim.sound` carries that over to a switch built around another one.
-/

namespace Lib

/-- A switch with states `σ`. A call meets an `χ` outside, which decides how it ends; `on` and
`off` are the values that the two calls write to the cell. -/
structure Toggle (σ χ ε κ : Type) where
  arm : σ → χ → Except ε Unit × σ
  disarm : σ → χ → Except ε Unit × σ
  armed : σ → Bool
  cell : σ → κ
  on : σ → κ
  off : σ → κ

namespace Toggle

variable {σ χ ε κ : Type}

inductive Call (χ : Type) where
  | arm (x : χ)
  | disarm (x : χ)

def call (T : Toggle σ χ ε κ) (s : σ) : Call χ → Except ε Unit × σ
  | .arm x => T.arm s x
  | .disarm x => T.disarm s x

/-- The state after a list of calls. -/
def after (T : Toggle σ χ ε κ) (calls : List (Call χ)) (s : σ) : σ :=
  calls.foldl (fun s c => (T.call s c).2) s

/-- The flag and the cell. -/
def view (T : Toggle σ χ ε κ) (s : σ) : Bool × κ := (T.armed s, T.cell s)

/-- The flag is set exactly if the cell holds the active value. -/
def Agree (T : Toggle σ χ ε κ) (s : σ) : Prop := T.armed s = true ↔ T.cell s = T.on s

/-- **What is asked of a switch**, in every state that calls reach: flag and cell agree, a call that
fails changes neither, and neither does the second of two `arm`s or of two `disarm`s if the first
one succeeds. -/
def Sound (T : Toggle σ χ ε κ) (start : σ) : Prop :=
  ∀ calls, let s := T.after calls start
    T.Agree s ∧
    (∀ c e, (T.call s c).1 = .error e → T.view (T.call s c).2 = T.view s) ∧
    (∀ x y, (T.arm s x).1 = .ok () → T.view (T.arm (T.arm s x).2 y).2 = T.view (T.arm s x).2) ∧
    ∀ x y, (T.disarm s x).1 = .ok () →
      T.view (T.disarm (T.disarm s x).2 y).2 = T.view (T.disarm s x).2

/-- What the calls of a switch do in the states that satisfy `Inv`. -/
structure Lawful (T : Toggle σ χ ε κ) (Inv : σ → Prop) : Prop where
  inv : ∀ s c, Inv s → Inv (T.call s c).2
  on_call : ∀ s c, T.on (T.call s c).2 = T.on s
  off_disarm : ∀ s x, T.off (T.disarm s x).2 = T.off s
  off_ne_on : ∀ s, Inv s → T.off s ≠ T.on s
  arm_ok : ∀ s x, Inv s → (T.arm s x).1 = .ok () → T.view (T.arm s x).2 = (true, T.on s)
  disarm_ok : ∀ s x, Inv s → (T.disarm s x).1 = .ok () →
    T.view (T.disarm s x).2 = (false, T.off s)
  error : ∀ s c e, Inv s → (T.call s c).1 = .error e → T.view (T.call s c).2 = T.view s

variable {T : Toggle σ χ ε κ} {Inv : σ → Prop} {s : σ}

theorem agree_of_view_on (h : T.view s = (true, T.on s)) : T.Agree s := by
  have harmed : T.armed s = true := congrArg Prod.fst h
  have hcell : T.cell s = T.on s := congrArg Prod.snd h
  exact iff_of_true harmed hcell

theorem agree_of_view_off (h : T.view s = (false, T.off s)) (hne : T.off s ≠ T.on s) :
    T.Agree s := by
  have harmed : T.armed s = false := congrArg Prod.fst h
  have hcell : T.cell s = T.off s := congrArg Prod.snd h
  refine iff_of_false ?_ ?_
  · rw [harmed]
    exact Bool.false_ne_true
  · rw [hcell]
    exact hne

theorem Agree.of_view {s' : σ} (h : T.Agree s) (hview : T.view s' = T.view s)
    (hon : T.on s' = T.on s) : T.Agree s' := by
  have harmed : T.armed s' = T.armed s := congrArg Prod.fst hview
  have hcell : T.cell s' = T.cell s := congrArg Prod.snd hview
  unfold Agree
  rw [harmed, hcell, hon]
  exact h

/-- One call keeps the agreement. -/
theorem Lawful.agree_call (hT : T.Lawful Inv) (hs : Inv s) (h : T.Agree s) (c : Call χ) :
    T.Agree (T.call s c).2 := by
  rcases hres : (T.call s c).1 with e | ⟨⟩
  · exact h.of_view (hT.error s c e hs hres) (hT.on_call s c)
  · rcases c with x | x
    · refine agree_of_view_on ?_
      rw [hT.on_call s (.arm x)]
      exact hT.arm_ok s x hs hres
    · have hoff := hT.off_disarm s x
      refine agree_of_view_off ?_ (hT.off_ne_on _ (hT.inv s (.disarm x) hs))
      exact (hT.disarm_ok s x hs hres).trans (congrArg (Prod.mk false) hoff.symm)

/-- So does a run. -/
theorem Lawful.agree_after (hT : T.Lawful Inv) (hs : Inv s) (h : T.Agree s)
    (calls : List (Call χ)) : Inv (T.after calls s) ∧ T.Agree (T.after calls s) := by
  induction calls generalizing s with
  | nil => exact ⟨hs, h⟩
  | cons c calls ih => exact ih (hT.inv s c hs) (hT.agree_call hs h c)

/-- An `arm` after one that succeeded changes nothing, however it ends. -/
theorem Lawful.rearm (hT : T.Lawful Inv) (hs : Inv s) {x : χ} (y : χ)
    (hok : (T.arm s x).1 = .ok ()) :
    T.view (T.arm (T.arm s x).2 y).2 = T.view (T.arm s x).2 := by
  have hs' : Inv (T.arm s x).2 := hT.inv s (.arm x) hs
  rcases hres : (T.arm (T.arm s x).2 y).1 with e | ⟨⟩
  · exact hT.error _ (.arm y) e hs' hres
  · rw [hT.arm_ok _ y hs' hres, hT.arm_ok s x hs hok]
    exact congrArg (Prod.mk true) (hT.on_call s (.arm x))

theorem Lawful.redisarm (hT : T.Lawful Inv) (hs : Inv s) {x : χ} (y : χ)
    (hok : (T.disarm s x).1 = .ok ()) :
    T.view (T.disarm (T.disarm s x).2 y).2 = T.view (T.disarm s x).2 := by
  have hs' : Inv (T.disarm s x).2 := hT.inv s (.disarm x) hs
  rcases hres : (T.disarm (T.disarm s x).2 y).1 with e | ⟨⟩
  · exact hT.error _ (.disarm y) e hs' hres
  · rw [hT.disarm_ok _ y hs' hres, hT.disarm_ok s x hs hok]
    exact congrArg (Prod.mk false) (hT.off_disarm s x)

/-- **Lawful switches are sound** from every start where the flag says what the cell holds. -/
theorem Lawful.sound (hT : T.Lawful Inv) (hs : Inv s) (h : T.Agree s) : T.Sound s := by
  intro calls
  obtain ⟨hinv, hagree⟩ := hT.agree_after hs h calls
  exact ⟨hagree, fun c e => hT.error _ c e hinv, fun x y => hT.rearm hinv y,
    fun x y => hT.redisarm hinv y⟩

/-! ## Simulation -/

variable {τ : Type} {T' : Toggle τ χ ε κ} {t : τ}

/-- Calls on the first switch end as on the second, and leave states that look the same. -/
structure Sim (T' : Toggle τ χ ε κ) (T : Toggle σ χ ε κ) (R : τ → σ → Prop) : Prop where
  result : ∀ t s c, R t s → (T'.call t c).1 = (T.call s c).1
  next : ∀ t s c, R t s → R (T'.call t c).2 (T.call s c).2
  view : ∀ t s, R t s → T'.view t = T.view s
  on : ∀ t s, R t s → T'.on t = T.on s

theorem Sim.after {R : τ → σ → Prop} (h : Sim T' T R) (hR : R t s) (calls : List (Call χ)) :
    R (T'.after calls t) (T.after calls s) := by
  induction calls generalizing t s with
  | nil => exact hR
  | cons c calls ih => exact ih (h.next t s c hR)

/-- A switch that looks like a sound one is sound. -/
theorem Sim.sound {R : τ → σ → Prop} (h : Sim T' T R) (hR : R t s) (hs : T.Sound s) :
    T'.Sound t := by
  intro calls
  have hreach := h.after hR calls
  obtain ⟨hagree, herror, hrearm, hredisarm⟩ := hs calls
  generalize T'.after calls t = t' at hreach ⊢
  generalize T.after calls s = s' at hreach hagree herror hrearm hredisarm
  -- two calls of one kind in a row, from related states
  have htwice (c d : Call χ) :
      T'.view (T'.call (T'.call t' c).2 d).2 = T.view (T.call (T.call s' c).2 d).2 :=
    h.view _ _ (h.next _ _ d (h.next _ _ c hreach))
  have honce (c : Call χ) : T'.view (T'.call t' c).2 = T.view (T.call s' c).2 :=
    h.view _ _ (h.next _ _ c hreach)
  have hview := h.view t' s' hreach
  refine ⟨?_, ?_, ?_, ?_⟩
  · have harmed : T'.armed t' = T.armed s' := congrArg Prod.fst hview
    have hcell : T'.cell t' = T.cell s' := congrArg Prod.snd hview
    unfold Agree at hagree ⊢
    rw [harmed, hcell, h.on t' s' hreach]
    exact hagree
  · intro c e he
    rw [honce, hview]
    exact herror c e ((h.result t' s' c hreach).symm.trans he)
  · intro x y hok
    exact (htwice (.arm x) (.arm y)).trans
      ((hrearm x y ((h.result t' s' (.arm x) hreach).symm.trans hok)).trans (honce (.arm x)).symm)
  · intro x y hok
    exact (htwice (.disarm x) (.disarm y)).trans
      ((hredisarm x y ((h.result t' s' (.disarm x) hreach).symm.trans hok)).trans
        (honce (.disarm x)).symm)

end Toggle

end Lib
