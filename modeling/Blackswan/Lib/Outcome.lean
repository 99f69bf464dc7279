import Mathlib.Init

/-!
# How a fallible computation ends

A computation of the modelled language returns a value, returns an error to its caller, or
panics. `Outcome.bind` is the `?` operator: errors and panics leave the enclosing function.
-/

namespace Lib

/-- A returned value, a returned error, or a panic. -/
inductive Outcome (ε α : Type) where
  | ok (a : α)
  | err (e : ε)
  | panic
  deriving DecidableEq, Repr

namespace Outcome

variable {ε α β : Type}

def bind (x : Outcome ε α) (f : α → Outcome ε β) : Outcome ε β :=
  match x with
  | ok a => f a
  | err e => err e
  | panic => panic

def map (f : α → β) (x : Outcome ε α) : Outcome ε β := x.bind fun a => ok (f a)

/-- A result that cannot panic. -/
def ofExcept : Except ε α → Outcome ε α
  | .ok a => ok a
  | .error e => err e

/-- The computation returns no value. -/
def Fails (x : Outcome ε α) : Prop := ∀ a, x ≠ ok a

/-- `e` is the only error the computation returns. -/
def OnlyErr (e : ε) (x : Outcome ε α) : Prop := ∀ e', x = err e' → e' = e

@[simp] theorem ok_bind (a : α) (f : α → Outcome ε β) : (ok a).bind f = f a := rfl
@[simp] theorem err_bind (e : ε) (f : α → Outcome ε β) : (err e).bind f = err e := rfl
@[simp] theorem panic_bind (f : α → Outcome ε β) : (panic : Outcome ε α).bind f = panic := rfl

@[simp] theorem map_ok (f : α → β) (a : α) : (ok a : Outcome ε α).map f = ok (f a) := rfl
@[simp] theorem map_err (f : α → β) (e : ε) : (err e : Outcome ε α).map f = err e := rfl
@[simp] theorem map_panic (f : α → β) : (panic : Outcome ε α).map f = panic := rfl

theorem bind_map {γ : Type} (x : Outcome ε α) (f : α → γ) (g : γ → Outcome ε β) :
    (x.map f).bind g = x.bind fun a => g (f a) := by
  rcases x with a | e | _ <;> rfl

theorem map_bind {γ : Type} (x : Outcome ε α) (f : α → Outcome ε β) (g : β → γ) :
    (x.bind f).map g = x.bind fun a => (f a).map g := by
  rcases x with a | e | _ <;> rfl

theorem map_map {γ : Type} (x : Outcome ε α) (f : α → β) (g : β → γ) :
    (x.map f).map g = x.map fun a => g (f a) := by
  rcases x with a | e | _ <;> rfl

theorem bind_eq_ok {x : Outcome ε α} {f : α → Outcome ε β} {b : β} :
    x.bind f = ok b ↔ ∃ a, x = ok a ∧ f a = ok b := by
  rcases x with a | e | _ <;> simp

theorem fails_err (e : ε) : (err e : Outcome ε α).Fails := fun _ h => by cases h

theorem fails_panic : (panic : Outcome ε α).Fails := fun _ h => by cases h

theorem not_fails_ok (a : α) : ¬ (ok a : Outcome ε α).Fails := fun h => h a rfl

theorem Fails.bind {x : Outcome ε α} (h : x.Fails) (f : α → Outcome ε β) : (x.bind f).Fails := by
  rcases x with a | e | _
  · exact absurd h (not_fails_ok a)
  · exact fails_err e
  · exact fails_panic

@[simp] theorem onlyErr_ok (e : ε) (a : α) : (ok a).OnlyErr e := fun _ h => by cases h

@[simp] theorem onlyErr_err (e : ε) : (err e : Outcome ε α).OnlyErr e := fun _ h => by
  cases h
  rfl

@[simp] theorem onlyErr_panic (e : ε) : (panic : Outcome ε α).OnlyErr e := fun _ h => by cases h

theorem OnlyErr.bind {e : ε} {x : Outcome ε α} {f : α → Outcome ε β} (hx : x.OnlyErr e)
    (hf : ∀ a, (f a).OnlyErr e) : (x.bind f).OnlyErr e := by
  rcases x with a | e' | _
  · exact hf a
  · obtain rfl := hx e' rfl
    exact onlyErr_err e'
  · exact onlyErr_panic e

theorem OnlyErr.ite {e : ε} {p : Prop} [Decidable p] {x y : Outcome ε α} (hx : x.OnlyErr e)
    (hy : y.OnlyErr e) : (if p then x else y).OnlyErr e := by
  split
  · exact hx
  · exact hy

end Outcome

end Lib
