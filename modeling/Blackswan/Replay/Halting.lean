import Blackswan.Lib.Wrap
import Blackswan.Replay.Timing

/-!
# When a run ends

The virtual clock wraps around at `2 ^ 64`, and no check restricts the tick size. The values it
shows are the multiples of `gcd tickNs (2 ^ 64)` below `2 ^ 64`; a step later than the largest of
them is never due. A tick of zero is the extreme case: the clock shows zero for ever.
-/

namespace Blackswan.Replay

open Lib (Outcome Turn Ends loop)

/-- The largest value a clock that moves by `tickNs` ever shows. -/
def latestNs (tickNs : UInt64) : ℕ := 2 ^ 64 - tickNs.toNat.gcd (2 ^ 64)

namespace Runner

variable {I : Type} [FaultInjector I] {r : Runner I} {tickNs : UInt64} {realtime : Bool}

theorem exists_terminates_of_le_latestNs
    (h : ∀ step ∈ r.schedule.steps, step.atNs.toNat ≤ latestNs tickNs) :
    ∃ e, r.Terminates tickNs realtime e := by
  obtain ⟨k, hk, hval⟩ := Lib.exists_mul_mod_eq_sub_gcd (Nat.two_pow_pos 64) tickNs.toNat
  refine exists_terminates k hk fun step hstep => ?_
  rw [hval]
  exact h step hstep

/-- What the cursor has passed was shown by the clock. -/
structure Shown (r : Runner I) (tickNs : UInt64) (s : LoopState I) : Prop where
  ticked : ∃ k, Ticked r tickNs k s
  passed : ∀ step ∈ r.schedule.steps.take s.scheduler.cursor,
    step.atNs.toNat ≤ latestNs tickNs

theorem shown_start (r : Runner I) (tickNs : UInt64) : Shown r tickNs r.start where
  ticked := ⟨0, ticked_start r tickNs⟩
  passed := by
    intro step hstep
    cases hstep

theorem Ticked.nowNs_le {k : ℕ} {s : LoopState I} (h : Ticked r tickNs k s) :
    s.scheduler.nowNs.toNat ≤ latestNs tickNs := by
  rw [h.clock]
  exact Lib.mul_mod_le_sub_gcd (Nat.two_pow_pos 64) tickNs.toNat k

theorem shown_pass {s s' : LoopState I} (h : Shown r tickNs s)
    (hp : pass tickNs realtime s = .again s') : Shown r tickNs s' := by
  obtain ⟨k, hk⟩ := h.ticked
  have hk' := ticked_pass hk hp
  refine ⟨⟨k + 1, hk'⟩, ?_⟩
  intro step hstep
  obtain ⟨-, hsched, -, -⟩ := pass_eq_again hp
  have htake := s.scheduler.take_cursor_advance tickNs
  rw [hk.tracks.schedule, ← hsched] at htake
  rw [htake] at hstep
  rcases List.mem_append.mp hstep with hstep | hstep
  · exact h.passed step hstep
  · have hdue := UInt64.le_iff_toNat_le.mp (s.scheduler.due_of_mem_advance tickNs hstep)
    have hnow := hk'.nowNs_le
    rw [hsched, Scheduler.advance_nowNs] at hnow
    exact Nat.le_trans hdue hnow

/-- A run that ends without a failing call has seen every step come due. -/
theorem le_latestNs_of_runInner {fuel : ℕ} {e : RunEnd I}
    (hplay : (r.play r.schedule.steps).1 = .ok ())
    (h : r.runInner fuel tickNs realtime = some e) :
    ∀ step ∈ r.schedule.steps, step.atNs.toNat ≤ latestNs tickNs := by
  refine Ends.invariant (Shown r tickNs)
    (fun _ => ∀ step ∈ r.schedule.steps, step.atNs.toNat ≤ latestNs tickNs)
    (fun s s' hs hp => shown_pass hs hp) ?_ (shown_start r tickNs) ⟨fuel, h⟩
  intro s e hs hp step hstep
  obtain ⟨k, hk⟩ := hs.ticked
  rcases pass_eq_done hp with ⟨hf, -, -⟩ | ⟨hne, ho, -⟩
  · have hlen := s.scheduler.isFinished_iff.mp hf
    rw [hk.tracks.schedule] at hlen
    refine hs.passed step ?_
    rwa [List.take_of_length_le hlen]
  · -- a failing call: the schedule has none
    have hplayed := (played_of_done hk.tracks hp).outcome
    rw [hplay, ho] at hplayed
    exact absurd hplayed hne

end Runner

open Runner

/-- **Termination of a run.** The loop of `Runner::run` ends exactly when no step is later than
the largest value its clock ever shows. -/
theorem run_ends_iff {I : Type} [FaultInjector I] {scenario : Scenario}
    {schedule : ValidatedSchedule} {injectors : Registry I} {ctx : FaultContext} {r : Runner I}
    (hvalid : ValidatedSchedule.validate scenario = .ok schedule)
    (hnew : Runner.new schedule injectors ctx = .ok r)
    (hok : CallsSucceed ctx injectors scenario.steps) (tickNs : UInt64) :
    (∃ fuel e, r.run fuel tickNs = some e) ↔
      ∀ step ∈ scenario.steps, step.atNs.toNat ≤ 2 ^ 64 - tickNs.toNat.gcd (2 ^ 64) := by
  obtain rfl := ValidatedSchedule.scenario_of_validate hvalid
  obtain ⟨hreg, rfl⟩ := new_ok_iff.mp hnew
  constructor
  · rintro ⟨fuel, e, h⟩
    exact le_latestNs_of_runInner
      (play_of_callsSucceed (r := ⟨schedule, injectors, ctx, []⟩) hreg hok).1 h
  · intro h
    have hends : ∃ e, (⟨schedule, injectors, ctx, []⟩ : Runner I).Terminates tickNs false e :=
      exists_terminates_of_le_latestNs h
    obtain ⟨e, bound, he⟩ := hends
    exact ⟨bound, e, he bound (Nat.le_refl bound)⟩

/-- The unit test's scenario ends at a tick of 500 ns. -/
theorem run_ends_pktLoss :
    ∃ fuel e, ReplaySetup.pktLossSetup.runner.run fuel 500 = some e :=
  (run_ends_iff ReplaySetup.pktLossSetup.validated ReplaySetup.pktLossSetup.accepted
    ReplaySetup.pktLossSetup.succeed 500).mpr (by decide)

/-- `--tick-ns 0`: the clock stands still and the unit test's scenario never gets past its first
step, although all its calls would succeed. -/
theorem run_never_ends_at_tick_zero :
    ValidatedSchedule.validate ReplaySetup.pktLossScenario = .ok ReplaySetup.pktLossSetup.schedule ∧
      Runner.new ReplaySetup.pktLossSetup.schedule ReplaySetup.pktLossSetup.injectors ⟨1⟩ =
        .ok ReplaySetup.pktLossSetup.runner ∧
      CallsSucceed ⟨1⟩ ReplaySetup.pktLossSetup.injectors ReplaySetup.pktLossScenario.steps ∧
      ¬ ∃ fuel e, ReplaySetup.pktLossSetup.runner.run fuel 0 = some e := by
  refine ⟨ReplaySetup.pktLossSetup.validated, ReplaySetup.pktLossSetup.accepted,
    ReplaySetup.pktLossSetup.succeed, ?_⟩
  rintro ⟨fuel, e, h⟩
  have hle := le_latestNs_of_runInner ReplaySetup.pktLossSetup.play_eq.1 h
    ⟨1000, "pkt-loss", .arm⟩ List.mem_cons_self
  exact absurd hle (by decide)

end Blackswan.Replay
