import Mathlib.Algebra.GroupWithZero.Nat
import Blackswan.Replay.Scheduler

/-!
# Cutting time

However a span of time is cut into calls of `Scheduler::advance`, the calls return the same steps.

1. `scanDue_split`: on sorted steps the cursor stops exactly between the steps that are due and
   those that are not.
2. `AtSplit` says that the cursor stands between two such parts. It holds of a new scheduler, and
   `AtSplit.advance` shows what one call returns and where it leaves the cursor.
3. `AtSplit.advanceAll` and `AtSplit.slices` extend that to runs. After at least one call the
   scheduler is a function of the time, which gives `advanceAll_exact`.
-/

namespace Blackswan.Replay

/-- The step is due at the time `t`. -/
def dueAt (t : ℕ) (step : ScenarioStep) : Bool := decide (step.atNs.toNat ≤ t)

theorem dueAt_toNat (now : UInt64) (step : ScenarioStep) :
    dueAt now.toNat step = decide (step.atNs ≤ now) := by
  rw [dueAt, decide_eq_decide, UInt64.le_iff_toNat_le]

theorem scanDue_le (now : UInt64) (steps : List ScenarioStep) :
    scanDue now steps ≤ steps.length := by
  induction steps with
  | nil => exact Nat.le_refl 0
  | cons step rest ih =>
    rw [scanDue]
    split_ifs
    · exact Nat.succ_le_succ ih
    · exact Nat.zero_le _

/-- The cursor stops between what is due and what is not. -/
theorem scanDue_split (now : UInt64) {steps : List ScenarioStep}
    (hsorted : steps.Pairwise fun a b => a.atNs ≤ b.atNs) :
    steps.take (scanDue now steps) = steps.filter (dueAt now.toNat) ∧
      steps.drop (scanDue now steps) = steps.filter fun step => !dueAt now.toNat step := by
  induction steps with
  | nil => exact ⟨rfl, rfl⟩
  | cons step rest ih =>
    obtain ⟨hlow, hrest⟩ := List.pairwise_cons.mp hsorted
    obtain ⟨htake, hdrop⟩ := ih hrest
    rw [scanDue]
    by_cases hdue : step.atNs ≤ now
    · have hstep : dueAt now.toNat step = true := by
        rw [dueAt_toNat, decide_eq_true hdue]
      rw [if_pos hdue, List.take_succ_cons, List.drop_succ_cons, htake, hdrop,
        List.filter_cons_of_pos hstep, List.filter_cons_of_neg (by simp [hstep])]
      exact ⟨rfl, rfl⟩
    · -- nothing that comes later is due either
      have hnone : ∀ s ∈ step :: rest, dueAt now.toNat s = false := by
        rw [List.forall_mem_cons, dueAt_toNat, decide_eq_false hdue]
        refine ⟨rfl, fun s hs => ?_⟩
        rw [dueAt_toNat]
        exact decide_eq_false fun hs' => hdue (UInt64.le_trans (hlow s hs) hs')
      rw [if_neg hdue, List.take_zero, List.drop_zero]
      constructor
      · symm
        rw [List.filter_eq_nil_iff]
        intro s hs
        simp [hnone s hs]
      · symm
        rw [List.filter_eq_self]
        intro s hs
        simp [hnone s hs]

/-! ## One call -/

/-- The steps before the cursor are those that `passed`, the others come after it. -/
structure AtSplit (s : Scheduler) (passed : ScenarioStep → Bool) : Prop where
  bound : s.cursor ≤ s.schedule.steps.length
  before : s.schedule.steps.take s.cursor = s.schedule.steps.filter passed
  after : s.schedule.steps.drop s.cursor = s.schedule.steps.filter fun step => !passed step

theorem atSplit_new (schedule : ValidatedSchedule) (startNs : UInt64) :
    AtSplit (Scheduler.new schedule startNs) fun _ => false where
  bound := Nat.zero_le _
  before := by simp [Scheduler.new]
  after := by simp [Scheduler.new]

/-- The cursor is a function of what passed. -/
theorem AtSplit.cursor_eq {s : Scheduler} {passed : ScenarioStep → Bool} (h : AtSplit s passed) :
    s.cursor = (s.schedule.steps.filter passed).length := by
  rw [← h.before, List.length_take, Nat.min_eq_left h.bound]

theorem AtSplit.advance {s : Scheduler} {passed : ScenarioStep → Bool} (h : AtSplit s passed)
    (deltaNs : UInt64) (hpast : ∀ step, passed step = true →
      dueAt (s.nowNs + deltaNs).toNat step = true) :
    (s.advance deltaNs).1 = s.schedule.steps.filter (fun step =>
        !passed step && dueAt (s.nowNs + deltaNs).toNat step) ∧
      AtSplit (s.advance deltaNs).2 (dueAt (s.nowNs + deltaNs).toNat) := by
  have hsorted : (s.schedule.steps.drop s.cursor).Pairwise fun a b => a.atNs ≤ b.atNs :=
    s.schedule.steps_pairwise.sublist (List.drop_sublist _ _)
  obtain ⟨htake, hdrop⟩ := scanDue_split (s.nowNs + deltaNs) hsorted
  have hslice : (s.advance deltaNs).1 =
      (s.schedule.steps.drop s.cursor).filter (dueAt (s.nowNs + deltaNs).toNat) := htake
  refine ⟨?_, ?_, ?_, ?_⟩
  · rw [hslice, h.after, List.filter_filter]
    exact List.filter_congr fun step _ => Bool.and_comm _ _
  · have hmoved := scanDue_le (s.nowNs + deltaNs) (s.schedule.steps.drop s.cursor)
    rw [List.length_drop] at hmoved
    have hbound := h.bound
    show s.cursor + scanDue (s.nowNs + deltaNs) (s.schedule.steps.drop s.cursor) ≤
      s.schedule.steps.length
    omega
  · -- everything before the cursor is due, so filtering only touches what follows it
    have hkeep : (s.schedule.steps.take s.cursor).filter (dueAt (s.nowNs + deltaNs).toNat) =
        s.schedule.steps.take s.cursor := by
      rw [List.filter_eq_self, h.before]
      intro step hstep
      exact hpast step (List.mem_filter.mp hstep).2
    rw [Scheduler.advance_schedule, Scheduler.take_cursor_advance, hslice, ← hkeep,
      ← List.filter_append, List.take_append_drop]
  · have hrest : s.schedule.steps.drop (s.advance deltaNs).2.cursor =
        (s.schedule.steps.drop s.cursor).filter fun step =>
          !dueAt (s.nowNs + deltaNs).toNat step := by
      rw [← hdrop, List.drop_drop]
      rfl
    rw [Scheduler.advance_schedule, hrest, h.after, List.filter_filter]
    refine List.filter_congr fun step _ => ?_
    cases hpassed : passed step with
    | false => exact Bool.and_true _
    | true =>
      rw [hpast step hpassed]
      rfl

/-! ## Runs of calls -/

/-- `Scheduler::advance` once for each delta: the slices, and the scheduler after the last call. -/
def Scheduler.advanceAll (s : Scheduler) : List UInt64 → List (List ScenarioStep) × Scheduler
  | [] => ([], s)
  | delta :: rest =>
    let res := s.advance delta
    let more := res.2.advanceAll rest
    (res.1 :: more.1, more.2)

/-- The time after the deltas, without overflow. -/
def elapsed (startNs : UInt64) (deltas : List UInt64) : ℕ :=
  startNs.toNat + (deltas.map UInt64.toNat).sum

/-- Before the clock overflows, it shows the time. -/
theorem toNat_add_delta {startNs delta : UInt64} {rest : List UInt64}
    (hfits : elapsed startNs (delta :: rest) < 2 ^ 64) :
    (startNs + delta).toNat = startNs.toNat + delta.toNat := by
  rw [elapsed, List.map_cons, List.sum_cons] at hfits
  rw [UInt64.toNat_add]
  exact Nat.mod_eq_of_lt (by omega)

theorem elapsed_add {startNs delta : UInt64}
    (hnow : (startNs + delta).toNat = startNs.toNat + delta.toNat) (rest : List UInt64) :
    elapsed (startNs + delta) rest = elapsed startNs (delta :: rest) := by
  rw [elapsed, elapsed, hnow, List.map_cons, List.sum_cons, Nat.add_assoc]

namespace Scheduler

variable (s : Scheduler) (deltas : List UInt64)

theorem length_advanceAll : (s.advanceAll deltas).1.length = deltas.length := by
  induction deltas generalizing s with
  | nil => rfl
  | cons delta rest ih => exact congrArg Nat.succ (ih (s.advance delta).2)

theorem advanceAll_schedule : (s.advanceAll deltas).2.schedule = s.schedule := by
  induction deltas generalizing s with
  | nil => rfl
  | cons delta rest ih => exact ih (s.advance delta).2

/-- The slices are what the cursor passed. -/
theorem take_cursor_advanceAll :
    s.schedule.steps.take (s.advanceAll deltas).2.cursor =
      s.schedule.steps.take s.cursor ++ (s.advanceAll deltas).1.flatten := by
  induction deltas generalizing s with
  | nil => exact (List.append_nil _).symm
  | cons delta rest ih =>
    have hrest := ih (s.advance delta).2
    rw [advance_schedule, take_cursor_advance, List.append_assoc] at hrest
    exact hrest

theorem advanceAll_nowNs (hfits : elapsed s.nowNs deltas < 2 ^ 64) :
    (s.advanceAll deltas).2.nowNs.toNat = elapsed s.nowNs deltas := by
  induction deltas generalizing s with
  | nil => rfl
  | cons delta rest ih =>
    have hrest := ih (s.advance delta).2
    rw [advance_nowNs, elapsed_add (toNat_add_delta hfits)] at hrest
    exact hrest hfits

end Scheduler

variable {s : Scheduler} {passed : ScenarioStep → Bool} {deltas : List UInt64}

/-- What has passed stays due. -/
theorem dueAt_mono {t t' : ℕ} (h : t ≤ t') {step : ScenarioStep} (hdue : dueAt t step = true) :
    dueAt t' step = true := by
  rw [dueAt, decide_eq_true_eq] at hdue ⊢
  exact Nat.le_trans hdue h

/-- What is still to come has not passed. -/
theorem passed_eq_false {t : ℕ} (hpast : ∀ step, passed step = true → dueAt t step = true)
    {step : ScenarioStep} (hlate : t < step.atNs.toNat) : passed step = false := by
  by_contra hpassed
  have hdue := hpast step (Bool.not_eq_false _ ▸ hpassed)
  rw [dueAt, decide_eq_true_eq] at hdue
  omega

/-- After at least one call the cursor depends on the time alone. -/
theorem AtSplit.advanceAll (h : AtSplit s passed)
    (hpast : ∀ step, passed step = true → dueAt s.nowNs.toNat step = true)
    (hne : deltas ≠ []) (hfits : elapsed s.nowNs deltas < 2 ^ 64) :
    AtSplit (s.advanceAll deltas).2 (dueAt (elapsed s.nowNs deltas)) := by
  induction deltas generalizing s passed with
  | nil => exact absurd rfl hne
  | cons delta rest ih =>
    have hnow := toNat_add_delta hfits
    have hone := (h.advance delta fun step hstep =>
      dueAt_mono (by omega) (hpast step hstep)).2
    rw [← elapsed_add hnow] at hfits ⊢
    by_cases hrest : rest = []
    · subst hrest
      exact hone
    · exact ih hone (fun _ => id) hrest hfits

/-- Each slice holds the steps whose time is reached by that call and by none before it. -/
theorem AtSplit.slices (h : AtSplit s passed)
    (hpast : ∀ step, passed step = true → dueAt s.nowNs.toNat step = true)
    (hfits : elapsed s.nowNs deltas < 2 ^ 64) {k : ℕ} {slice : List ScenarioStep}
    (hslice : (s.advanceAll deltas).1[k]? = some slice) :
    slice = s.schedule.steps.filter fun step => !passed step &&
      decide ((∀ j < k, elapsed s.nowNs (deltas.take (j + 1)) < step.atNs.toNat) ∧
        step.atNs.toNat ≤ elapsed s.nowNs (deltas.take (k + 1))) := by
  induction deltas generalizing s passed k with
  | nil => cases hslice
  | cons delta rest ih =>
    have hnow := toNat_add_delta hfits
    obtain ⟨hfirst, hone⟩ := h.advance delta fun step hstep =>
      dueAt_mono (by omega) (hpast step hstep)
    have htake (j : ℕ) : elapsed s.nowNs ((delta :: rest).take (j + 1)) =
        elapsed (s.nowNs + delta) (rest.take j) := by
      rw [List.take_succ_cons, elapsed_add hnow]
    have hstart : elapsed (s.nowNs + delta) (rest.take 0) = (s.nowNs + delta).toNat := rfl
    simp only [htake]
    cases k with
    | zero =>
      cases hslice
      rw [hfirst]
      simp only [Nat.not_lt_zero, false_implies, implies_true, true_and, hstart]
      rfl
    | succ k =>
      have hrest := ih hone (fun _ => id) (by rwa [Scheduler.advance_nowNs, elapsed_add hnow])
        hslice
      rw [hrest, Scheduler.advance_schedule, Scheduler.advance_nowNs]
      refine List.filter_congr fun step _ => ?_
      rw [Bool.eq_iff_iff]
      simp only [Bool.and_eq_true, Bool.not_eq_true', decide_eq_true_eq, dueAt,
        decide_eq_false_iff_not, Nat.not_le, Nat.forall_lt_succ_left, hstart]
      constructor
      · rintro ⟨hlate, hbefore, hreached⟩
        exact ⟨passed_eq_false hpast (by omega), ⟨hlate, hbefore⟩, hreached⟩
      · rintro ⟨-, ⟨hlate, hbefore⟩, hreached⟩
        exact ⟨hlate, hbefore, hreached⟩

/-- A run from the start returns the steps due at its end and leaves a scheduler that depends on
the end alone. -/
theorem advanceAll_new (schedule : ValidatedSchedule) (startNs : UInt64) (hne : deltas ≠ [])
    (hfits : elapsed startNs deltas < 2 ^ 64) :
    (Scheduler.new schedule startNs).advanceAll deltas =
      (((Scheduler.new schedule startNs).advanceAll deltas).1,
        ⟨schedule, ⟨UInt64.ofNat (elapsed startNs deltas)⟩,
          (schedule.steps.filter (dueAt (elapsed startNs deltas))).length⟩) ∧
    ((Scheduler.new schedule startNs).advanceAll deltas).1.flatten =
      schedule.steps.filter (dueAt (elapsed startNs deltas)) := by
  have hsplit := (atSplit_new schedule startNs).advanceAll (fun _ h => by cases h) hne hfits
  have hnow := Scheduler.advanceAll_nowNs (Scheduler.new schedule startNs) deltas hfits
  have hschedule := Scheduler.advanceAll_schedule (Scheduler.new schedule startNs) deltas
  have hslices := Scheduler.take_cursor_advanceAll (Scheduler.new schedule startNs) deltas
  have hbefore := hsplit.before
  have hcursor := hsplit.cursor_eq
  rw [hschedule] at hbefore hcursor
  constructor
  · rcases hrun : (Scheduler.new schedule startNs).advanceAll deltas with
      ⟨slices, schedule', clock, cursor⟩
    rw [hrun] at hnow hschedule hcursor
    have hclock : clock = ⟨UInt64.ofNat (elapsed startNs deltas)⟩ := by
      rw [show elapsed startNs deltas = clock.ns.toNat from hnow.symm, UInt64.ofNat_toNat]
    rw [hclock, show schedule' = schedule from hschedule, show cursor = _ from hcursor]
    rfl
  · exact hslices.symm.trans hbefore

/-- **Cutting time does not matter.** For any deltas that do not overflow the clock, the calls
return the steps due at the end, in order; each is in the slice of the first call that reaches its
time; and other deltas with the same sum return the same and leave the same scheduler. -/
theorem advanceAll_exact (schedule : ValidatedSchedule) (startNs : UInt64) (deltas : List UInt64)
    (hne : deltas ≠ []) (hfits : elapsed startNs deltas ≤ 2 ^ 64 - 1) :
    let run := (Scheduler.new schedule startNs).advanceAll deltas
    run.2.nowNs.toNat = elapsed startNs deltas ∧
    run.1.flatten = schedule.steps.filter (fun step => step.atNs ≤ run.2.nowNs) ∧
    run.1.length = deltas.length ∧
    (∀ k slice, run.1[k]? = some slice → slice = schedule.steps.filter fun step =>
      (∀ j < k, elapsed startNs (deltas.take (j + 1)) < step.atNs.toNat) ∧
        step.atNs.toNat ≤ elapsed startNs (deltas.take (k + 1))) ∧
    ∀ deltas', deltas' ≠ [] → elapsed startNs deltas' = elapsed startNs deltas →
      let run' := (Scheduler.new schedule startNs).advanceAll deltas'
      run'.1.flatten = run.1.flatten ∧ run'.2 = run.2 := by
  intro run
  have hlt : elapsed startNs deltas < 2 ^ 64 := by omega
  obtain ⟨hstate, hflat⟩ := advanceAll_new schedule startNs hne hlt
  have hnow : run.2.nowNs.toNat = elapsed startNs deltas :=
    Scheduler.advanceAll_nowNs (Scheduler.new schedule startNs) deltas hlt
  refine ⟨hnow, ?_, Scheduler.length_advanceAll _ deltas, fun k slice hslice => ?_,
    fun deltas' hne' hsum => ?_⟩
  · rw [hflat, ← hnow]
    exact List.filter_congr fun step _ => dueAt_toNat _ step
  · exact (atSplit_new schedule startNs).slices (fun _ h => by cases h) hlt hslice
  · obtain ⟨hstate', hflat'⟩ := advanceAll_new schedule startNs hne' (hsum ▸ hlt)
    refine ⟨?_, ?_⟩
    · rw [hflat', hsum, hflat]
    · rw [hstate', hsum]
      exact (congrArg Prod.snd hstate).symm

/-- Two steps at the same time. -/
def tiedSchedule : ValidatedSchedule :=
  ⟨⟨"tied", 7, [⟨5, "loss", .arm⟩, ⟨5, "loss", .disarm⟩]⟩, by decide⟩

/-- Both are returned at once, however the way there is cut. -/
theorem advanceAll_tied :
    ((Scheduler.new tiedSchedule 0).advanceAll [5, 0]).1 = [tiedSchedule.steps, []] ∧
      ((Scheduler.new tiedSchedule 0).advanceAll [2, 0, 3]).2 =
        ((Scheduler.new tiedSchedule 0).advanceAll [5, 0]).2 := by
  have hcut := (advanceAll_exact tiedSchedule 0 [5, 0] (by decide) (by decide)).2.2.2.2
    [2, 0, 3] (by decide) (by decide)
  exact ⟨by decide, hcut.2⟩

end Blackswan.Replay
