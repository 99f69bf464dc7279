import Mathlib.Logic.Function.Basic
import Mathlib.Data.List.Nodup
import Mathlib.Algebra.Order.Group.Nat
import Mathlib.Data.Nat.ModEq

/-!
# Tickets

A counter that is incremented atomically hands out tickets: the value after the increment is the
holder's own. A holder spends its ticket at some later time, in any order with the others.

`Fair` says that every ticket issued so far is either held by one holder or spent once. Taking and
spending keep it, so once nobody holds a ticket the spent ones are `1, …, n` in some order
(`Fair.perm`), of which `n / d` are multiples of `d` (`Fair.countP_dvd`).
-/

namespace Lib

/-- The counter, the ticket each holder has, and those already spent. -/
structure Tickets (C : Type) where
  issued : ℕ
  held : C → Option ℕ
  spent : List ℕ

namespace Tickets

variable {C : Type} {t : Tickets C} {c : C} {v : ℕ}

/-- Every ticket that was issued is held once or spent once. -/
structure Fair (t : Tickets C) : Prop where
  nodup : t.spent.Nodup
  heldOnce : ∀ c c' v, t.held c = some v → t.held c' = some v → c = c'
  notSpent : ∀ c v, t.held c = some v → v ∉ t.spent
  issued : ∀ v, (v ∈ t.spent ∨ ∃ c, t.held c = some v) ↔ 1 ≤ v ∧ v ≤ t.issued

theorem fair_start : Fair (⟨0, fun _ => none, []⟩ : Tickets C) where
  nodup := List.nodup_nil
  heldOnce := nofun
  notSpent := nofun
  issued := by
    intro v
    constructor
    · rintro (hspent | ⟨c, hc⟩)
      · cases hspent
      · cases hc
    · rintro ⟨hpos, hle⟩
      exact absurd (hpos.trans hle) (Nat.not_succ_le_zero 0)

theorem Fair.le_issued (h : t.Fair) (hc : t.held c = some v) : v ≤ t.issued :=
  ((h.issued v).mp (Or.inr ⟨c, hc⟩)).2

/-- **All tickets spent**: they are those from `1` to the counter, each once. -/
theorem Fair.perm (h : t.Fair) (hidle : ∀ c, t.held c = none) :
    t.spent.Perm (List.range' 1 t.issued) := by
  refine (List.perm_ext_iff_of_nodup h.nodup List.nodup_range').mpr fun v => ?_
  rw [List.mem_range'_1]
  constructor
  · intro hspent
    have := (h.issued v).mp (Or.inl hspent)
    omega
  · rintro ⟨hpos, hlt⟩
    rcases (h.issued v).mpr ⟨hpos, by omega⟩ with hspent | ⟨c, hc⟩
    · exact hspent
    · rw [hidle c] at hc
      cases hc

/-- Among `1, …, n` the multiples of `d` are `n / d` many. -/
theorem countP_dvd_range' (d n : ℕ) :
    (List.range' 1 n).countP (fun v => decide (d ∣ v)) = n / d := by
  induction n with
  | zero => simp
  | succ n ih =>
    rw [List.range'_1_concat, List.countP_append, ih, Nat.succ_div, List.countP_singleton,
      Nat.add_comm 1 n]
    simp only [decide_eq_true_eq]

theorem Fair.countP_dvd (h : t.Fair) (hidle : ∀ c, t.held c = none) (d : ℕ) :
    t.spent.countP (fun v => decide (d ∣ v)) = t.issued / d := by
  rw [(h.perm hidle).countP_eq, countP_dvd_range']

/-! ## Taking and spending -/

variable [DecidableEq C]

def take (t : Tickets C) (c : C) : Tickets C :=
  { t with issued := t.issued + 1, held := Function.update t.held c (some (t.issued + 1)) }

def spend (t : Tickets C) (c : C) (v : ℕ) : Tickets C :=
  { t with held := Function.update t.held c none, spent := t.spent ++ [v] }

theorem held_take (c' : C) :
    (t.take c).held c' = if c' = c then some (t.issued + 1) else t.held c' :=
  Function.update_apply t.held c (some (t.issued + 1)) c'

theorem held_spend (c' : C) : (t.spend c v).held c' = if c' = c then none else t.held c' :=
  Function.update_apply t.held c none c'

/-- Taking a ticket: the new one is larger than all that were issued before. -/
theorem Fair.take (h : t.Fair) (hc : t.held c = none) : (t.take c).Fair where
  nodup := h.nodup
  heldOnce := by
    intro c₁ c₂ v h₁ h₂
    rw [held_take] at h₁ h₂
    split_ifs at h₁ with e₁ <;> split_ifs at h₂ with e₂
    · exact e₁.trans e₂.symm
    · have := h.le_issued h₂
      cases h₁
      omega
    · have := h.le_issued h₁
      cases h₂
      omega
    · exact h.heldOnce c₁ c₂ v h₁ h₂
  notSpent := by
    intro c' v hv hspent
    rw [held_take] at hv
    split_ifs at hv with e
    · have := ((h.issued v).mp (Or.inl hspent)).2
      cases hv
      omega
    · exact h.notSpent c' v hv hspent
  issued := by
    intro v
    constructor
    · rintro (hspent | ⟨c', hv⟩)
      · have := (h.issued v).mp (Or.inl hspent)
        exact ⟨this.1, Nat.le_succ_of_le this.2⟩
      · rw [held_take] at hv
        split_ifs at hv with e
        · cases hv
          exact ⟨Nat.le_add_left 1 t.issued, le_rfl⟩
        · have := (h.issued v).mp (Or.inr ⟨c', hv⟩)
          exact ⟨this.1, Nat.le_succ_of_le this.2⟩
    · rintro ⟨hpos, hle⟩
      rcases Nat.le_succ_iff.mp hle with hold | rfl
      · rcases (h.issued v).mpr ⟨hpos, hold⟩ with hspent | ⟨c', hv⟩
        · exact Or.inl hspent
        · refine Or.inr ⟨c', ?_⟩
          have hne : c' ≠ c := by
            rintro rfl
            rw [hc] at hv
            cases hv
          rw [held_take, if_neg hne]
          exact hv
      · exact Or.inr ⟨c, by rw [held_take, if_pos rfl]⟩

/-- Spending a ticket moves it from the held to the spent ones. -/
theorem Fair.spend (h : t.Fair) (hc : t.held c = some v) : (t.spend c v).Fair where
  nodup := List.nodup_append.mpr ⟨h.nodup, List.nodup_singleton v, by
    rintro w hw _ hv rfl
    rw [List.mem_singleton] at hv
    exact h.notSpent c v hc (hv ▸ hw)⟩
  heldOnce := by
    intro c₁ c₂ w h₁ h₂
    rw [held_spend] at h₁ h₂
    split_ifs at h₁ h₂
    exact h.heldOnce c₁ c₂ w h₁ h₂
  notSpent := by
    intro c' w hw hspent
    rw [held_spend] at hw
    split_ifs at hw with e
    rcases List.mem_append.mp hspent with hold | hnew
    · exact h.notSpent c' w hw hold
    · rw [List.mem_singleton.mp hnew] at hw
      exact e (h.heldOnce c' c v hw hc)
  issued := by
    intro w
    refine Iff.trans ?_ (h.issued w)
    constructor
    · rintro (hspent | ⟨c', hw⟩)
      · rcases List.mem_append.mp hspent with hold | hnew
        · exact Or.inl hold
        · exact Or.inr ⟨c, by rw [List.mem_singleton.mp hnew]; exact hc⟩
      · rw [held_spend] at hw
        split_ifs at hw
        exact Or.inr ⟨c', hw⟩
    · rintro (hspent | ⟨c', hw⟩)
      · exact Or.inl (List.mem_append_left _ hspent)
      · by_cases e : c' = c
        · rw [e, hc] at hw
          cases hw
          exact Or.inl (List.mem_append_right _ (List.mem_singleton_self v))
        · exact Or.inr ⟨c', by rw [held_spend, if_neg e]; exact hw⟩

end Tickets

end Lib
