import Mathlib.Data.List.Basic

/-!
# Cutting frames off the front of a buffer

A framer looks at a buffer and says that a frame of some length stands at its front, that it has
to wait for more, or that it is stuck. `Extracts` cuts frames until no frame stands at the front.

The laws of a framer say that a verdict other than `wait` survives every extension of the buffer.
`Extracts.append` and `Extracts.split` follow: cutting a stream piece by piece, each time keeping
what is left over, gives the frames of the whole stream.
-/

namespace Lib

variable {α : Type}

/-- What stands at the front of a buffer. -/
inductive Verdict where
  | wait
  | frame (n : ℕ)
  | stuck
  deriving DecidableEq, Repr

/-- A framer whose verdicts are stable under extension of the buffer. -/
structure Framer (α : Type) where
  look : List α → Verdict
  frame_le : ∀ {b n}, look b = .frame n → n ≤ b.length
  frame_append : ∀ {b n} s, look b = .frame n → look (b ++ s) = .frame n
  stuck_append : ∀ {b} s, look b = .stuck → look (b ++ s) = .stuck

/-- Cutting frames off `b` until none stands at the front gives `frames` and leaves `rest`. -/
inductive Extracts (F : Framer α) : List α → List (List α) → List α → Prop where
  | stop {b} : (∀ n, F.look b ≠ .frame n) → Extracts F b [] b
  | cut {b n frames rest} : F.look b = .frame n → Extracts F (b.drop n) frames rest →
      Extracts F b (b.take n :: frames) rest

variable {F : Framer α} {b s rest rest' tail : List α} {frames frames' : List (List α)} {n : ℕ}

theorem Extracts.unique (h : Extracts F b frames rest) (h' : Extracts F b frames' rest') :
    frames = frames' ∧ rest = rest' := by
  induction h generalizing frames' with
  | stop hno =>
    cases h' with
    | stop => exact ⟨rfl, rfl⟩
    | cut hf _ => exact absurd hf (hno _)
  | cut hf _ ih =>
    cases h' with
    | stop hno => exact absurd hf (hno _)
    | cut hf' h' =>
      rw [hf, Verdict.frame.injEq] at hf'
      subst hf'
      obtain ⟨rfl, rfl⟩ := ih h'
      exact ⟨rfl, rfl⟩

/-- No frame stands at the front of what is left over. -/
theorem Extracts.look_rest (h : Extracts F b frames rest) (n : ℕ) : F.look rest ≠ .frame n := by
  induction h with
  | stop hno => exact hno n
  | cut _ _ ih => exact ih

/-- A stuck buffer yields nothing, however it is extended. -/
theorem Extracts.of_stuck (hb : F.look b = .stuck) (h : Extracts F (b ++ s) frames rest) :
    frames = [] ∧ F.look rest = .stuck := by
  have hstuck := F.stuck_append s hb
  cases h with
  | stop => exact ⟨rfl, hstuck⟩
  | cut hf _ => rw [hf] at hstuck; cases hstuck

/-- A frame at the front of the first piece is the frame at the front of the whole. -/
theorem cut_append (hf : F.look b = .frame n) (s : List α) :
    (b ++ s).take n = b.take n ∧ (b ++ s).drop n = b.drop n ++ s := by
  have hle := F.frame_le hf
  exact ⟨List.take_append_of_le_length hle, List.drop_append_of_le_length hle⟩

/-- Frames of a first piece, then of what it leaves over extended by a second piece, are frames
of the whole. -/
theorem Extracts.append (h : Extracts F b frames rest) (h' : Extracts F (rest ++ s) frames' tail) :
    Extracts F (b ++ s) (frames ++ frames') tail := by
  induction h with
  | stop => exact h'
  | @cut b n frames rest hf _ ih =>
    obtain ⟨htake, hdrop⟩ := cut_append hf s
    have hrest := ih h'
    rw [← hdrop] at hrest
    have hcut := Extracts.cut (F.frame_append s hf) hrest
    rw [htake] at hcut
    exact hcut

/-- Conversely the frames of the whole are those of the first piece and then those of what it
leaves over extended by the second. -/
theorem Extracts.split (h : Extracts F (b ++ s) frames tail) :
    ∃ first rest second, Extracts F b first rest ∧ Extracts F (rest ++ s) second tail ∧
      frames = first ++ second := by
  induction frames generalizing b with
  | nil =>
    -- no frame at the front of the whole, so none at the front of the first piece
    have hstop : ∀ n, F.look b ≠ .frame n := by
      intro n hf
      cases h with
      | stop hno => exact hno n (F.frame_append s hf)
    exact ⟨[], b, [], .stop hstop, h, rfl⟩
  | cons f frames ih =>
    by_cases hb : ∃ n, F.look b = .frame n
    · obtain ⟨n, hf⟩ := hb
      obtain ⟨htake, hdrop⟩ := cut_append hf s
      generalize hbs : b ++ s = whole at h
      cases h with
      | @cut _ m _ _ hf' hrest =>
        have hsame := F.frame_append s hf
        rw [hbs, hf', Verdict.frame.injEq] at hsame
        subst hsame
        rw [← hbs, hdrop] at hrest
        obtain ⟨first, rest, second, h₁, h₂, rfl⟩ := ih hrest
        refine ⟨b.take m :: first, rest, second, .cut hf h₁, h₂, ?_⟩
        rw [← hbs, htake, List.cons_append]
    · exact ⟨[], b, f :: frames, .stop fun n hf => hb ⟨n, hf⟩, h, rfl⟩

/-- A list of frames, each whole by itself, is extracted from its concatenation. -/
theorem extracts_flatten (frames : List (List α))
    (hframe : ∀ f ∈ frames, F.look f = .frame f.length) (hnil : ∀ n, F.look [] ≠ .frame n) :
    Extracts F frames.flatten frames [] := by
  induction frames with
  | nil => exact .stop hnil
  | cons f frames ih =>
    have hf := hframe f List.mem_cons_self
    have hrest := ih fun g hg => hframe g (List.mem_cons_of_mem f hg)
    have hlook := F.frame_append frames.flatten hf
    have hdrop : Extracts F ((f ++ frames.flatten).drop f.length) frames [] := by
      rw [List.drop_left]
      exact hrest
    have hcut := Extracts.cut hlook hdrop
    rw [List.take_left] at hcut
    exact hcut

/-! ## Buffers from which only nonempty frames are cut -/

/-- The buffers that cutting frames off `b` goes through. -/
inductive Residual (F : Framer α) (b : List α) : List α → Prop where
  | refl : Residual F b b
  | cut {b' n} : Residual F b b' → F.look b' = .frame n → Residual F b (b'.drop n)

/-- Cutting ends when no frame on the way is empty. -/
theorem exists_extracts (hpos : ∀ b' n, Residual F b b' → F.look b' = .frame n → 0 < n) :
    ∃ frames rest, Extracts F b frames rest := by
  have key : ∀ len b', b'.length = len → Residual F b b' →
      ∃ frames rest, Extracts F b' frames rest := by
    intro len
    induction len using Nat.strongRecOn with
    | _ len ih =>
      intro b' hlen hres
      by_cases hb : ∃ n, F.look b' = .frame n
      · obtain ⟨n, hf⟩ := hb
        have hn := hpos b' n hres hf
        have hle := F.frame_le hf
        have hlt : (b'.drop n).length < len := by
          rw [List.length_drop]
          omega
        obtain ⟨frames, rest, h⟩ := ih _ hlt _ rfl (hres.cut hf)
        exact ⟨_, _, .cut hf h⟩
      · exact ⟨[], b', .stop fun n hf => hb ⟨n, hf⟩⟩
  exact key b.length b rfl .refl

end Lib
