import Blackswan.Fix.Thread

/-!
# The two directions of an adapter

Both relay threads of a session share one adapter. `DirectedAdapter` says that its answers in one
direction do not depend on the messages of the other, which holds of the four adapters of the
crate: three keep no state, and the throttle counts outbound messages only and answers inbound
ones without looking at its count. So the threads are `Separate`: neither notices the other.
-/

namespace Blackswan.Fix

open Lib (Outcome Separate)
open ProtocolAdapter (intercept)

/-- `Alike direction a b` says that `a` and `b` answer alike in that direction from now on.
Messages of the other direction do not matter for that. -/
class DirectedAdapter (A : Type) [ProtocolAdapter A] where
  Alike : Direction → A → A → Prop
  refl : ∀ direction a, Alike direction a a
  own : ∀ {direction a b} (bytes : List UInt8), Alike direction a b →
    (intercept a ⟨bytes, direction⟩).1 = (intercept b ⟨bytes, direction⟩).1 ∧
      Alike direction (intercept a ⟨bytes, direction⟩).2 (intercept b ⟨bytes, direction⟩).2
  other : ∀ {direction a b} (msg : RawMessage), msg.direction ≠ direction →
    Alike direction a b → Alike direction (intercept a msg).2 b

/-! ## The adapters of the crate -/

namespace FixAdapter

variable {build : Build}

/-- A throttle, in whatever state. -/
def IsThrottle : FixAdapter build → Prop
  | .rateLimitThrottle _ => True
  | _ => False

/-- Outbound the count matters, inbound it does not. -/
def Alike : Direction → FixAdapter build → FixAdapter build → Prop
  | .outbound, a, b => a = b
  | .inbound, a, b => a = b ∨ a.IsThrottle ∧ b.IsThrottle

/-- An inbound message changes no adapter. -/
theorem intercept_inbound (a : FixAdapter build) (bytes : List UInt8) :
    (intercept a ⟨bytes, .inbound⟩).2 = a := by
  cases a with
  | silentReject _ => rfl
  | ackWithoutExecution _ => rfl
  | rateLimitThrottle t => rfl
  | executionReportPriceMutation _ => rfl

/-- An outbound message changes a throttle and nothing else. -/
theorem intercept_outbound (a : FixAdapter build) (bytes : List UInt8) :
    (intercept a ⟨bytes, .outbound⟩).2 = a ∨
      a.IsThrottle ∧ (intercept a ⟨bytes, .outbound⟩).2.IsThrottle := by
  cases a with
  | silentReject _ => exact Or.inl rfl
  | ackWithoutExecution _ => exact Or.inl rfl
  | rateLimitThrottle t => exact Or.inr ⟨trivial, trivial⟩
  | executionReportPriceMutation _ => exact Or.inl rfl

/-- A throttle forwards what comes inbound. -/
theorem intercept_throttle_inbound {a : FixAdapter build} (h : a.IsThrottle)
    (bytes : List UInt8) : (intercept a ⟨bytes, .inbound⟩).1 = .ok .forward := by
  cases a with
  | rateLimitThrottle t => rfl
  | silentReject _ => exact absurd h id
  | ackWithoutExecution _ => exact absurd h id
  | executionReportPriceMutation _ => exact absurd h id

theorem alike_own {direction : Direction} {a b : FixAdapter build} (bytes : List UInt8)
    (h : Alike direction a b) :
    (intercept a ⟨bytes, direction⟩).1 = (intercept b ⟨bytes, direction⟩).1 ∧
      Alike direction (intercept a ⟨bytes, direction⟩).2 (intercept b ⟨bytes, direction⟩).2 := by
  cases direction with
  | outbound =>
    obtain rfl : a = b := h
    exact ⟨rfl, rfl⟩
  | inbound =>
    rcases h with rfl | ⟨ha, hb⟩
    · exact ⟨rfl, Or.inl rfl⟩
    · rw [intercept_throttle_inbound ha, intercept_throttle_inbound hb, intercept_inbound,
        intercept_inbound]
      exact ⟨rfl, Or.inr ⟨ha, hb⟩⟩

theorem alike_other {direction : Direction} {a b : FixAdapter build} (msg : RawMessage)
    (hne : msg.direction ≠ direction) (h : Alike direction a b) :
    Alike direction (intercept a msg).2 b := by
  obtain ⟨bytes, direction'⟩ := msg
  cases direction' with
  | inbound => rwa [intercept_inbound]
  | outbound =>
    cases direction with
    | outbound => exact absurd rfl hne
    | inbound =>
      rcases intercept_outbound a bytes with heq | ⟨ha, ha'⟩
      · rwa [heq]
      · rcases h with rfl | ⟨-, hb⟩
        · exact Or.inr ⟨ha', ha⟩
        · exact Or.inr ⟨ha', hb⟩

instance : DirectedAdapter (FixAdapter build) where
  Alike := Alike
  refl direction a := by
    cases direction with
    | outbound => exact rfl
    | inbound => exact Or.inl rfl
  own := alike_own
  other := alike_other

end FixAdapter

/-! ## The threads do not notice each other -/

variable {A : Type} {build : Build} {direction : Direction}

/-- What is done with an action does not depend on the adapter. -/
theorem perform_apart (d : Delivery A) (result : WriteAll) (message : List UInt8)
    (action : InterceptAction) :
    (d.perform result message action).1.apart = (d.apart.perform result message action).1 ∧
      (d.perform result message action).2 = (d.apart.perform result message action).2 := by
  cases action <;> cases result <;> exact ⟨rfl, rfl⟩

variable [ProtocolAdapter A] [DirectedAdapter A]

open DirectedAdapter (Alike)

/-- One message, at adapters that answer alike. -/
theorem deliver_alike {a b : A} (h : Alike direction a b) (env : RelayEnv) (m : List UInt8)
    (log : Delivery Unit) :
    (deliver direction env m (log.sharing a)).1.apart =
        (deliver direction env m (log.sharing b)).1.apart ∧
      (deliver direction env m (log.sharing a)).2 =
        (deliver direction env m (log.sharing b)).2 ∧
      Alike direction (deliver direction env m (log.sharing a)).1.adapter
        (deliver direction env m (log.sharing b)).1.adapter := by
  have hperform (d d' : Delivery A) (hd : d.apart = d'.apart)
      (hadapter : Alike direction d.adapter d'.adapter) (action : InterceptAction)
      (result : WriteAll) :
      (d.perform result m action).1.apart = (d'.perform result m action).1.apart ∧
        (d.perform result m action).2 = (d'.perform result m action).2 ∧
        Alike direction (d.perform result m action).1.adapter
          (d'.perform result m action).1.adapter := by
    obtain ⟨hlog, hstatus⟩ := perform_apart d result m action
    obtain ⟨hlog', hstatus'⟩ := perform_apart d' result m action
    refine ⟨by rw [hlog, hlog', hd], by rw [hstatus, hstatus', hd], ?_⟩
    rw [(d.perform_keeps result m action).2, (d'.perform_keeps result m action).2]
    exact hadapter
  obtain ⟨hres, hnext⟩ := DirectedAdapter.own m h
  unfold deliver
  dsimp only [Delivery.sharing]
  split_ifs with hon
  · rw [hres]
    cases (intercept b ⟨m, direction⟩).1 with
    | ok action =>
      apply hperform
      · rfl
      · exact hnext
    | err e =>
      apply hperform
      · rfl
      · exact hnext
    | panic => exact ⟨rfl, rfl, hnext⟩
  · apply hperform
    · rfl
    · exact h

/-- **The threads of a session are separate.** -/
theorem separate_threads (build : Build) :
    Separate (Thread.step (A := A) build) (Alike : Direction → A → A → Prop) where
  own := by
    intro direction a b t e a' t' h hstep
    rcases Thread.step_cases hstep with ⟨p, rfl, hpc, heq⟩ | ⟨f, m, rfl, hpc, heq⟩ |
      ⟨w, m, f, rfl, hpc, heq⟩
    · cases heq
      exact ⟨b, by rw [Thread.step, hpc], h⟩
    · cases heq
      exact ⟨b, by rw [Thread.step, hpc], h⟩
    · obtain ⟨hlog, hstatus, hnext⟩ := deliver_alike h ⟨fun _ => f, fun _ => w⟩ m t.log
      have ha : a' = (deliver direction ⟨fun _ => f, fun _ => w⟩ m
          (t.log.sharing a)).1.adapter := congrArg Prod.fst heq
      have ht : t' = (t.act build direction m f w a).2 := congrArg Prod.snd heq
      refine ⟨(deliver direction ⟨fun _ => f, fun _ => w⟩ m (t.log.sharing b)).1.adapter, ?_, ?_⟩
      · rw [Thread.step, hpc, ht]
        unfold Thread.act
        dsimp only
        rw [hlog, hstatus]
      · rw [ha]
        exact hnext
  other := by
    intro direction direction' a b t e a' t' hne h hstep
    rcases Thread.step_cases hstep with ⟨p, rfl, hpc, heq⟩ | ⟨f, m, rfl, hpc, heq⟩ |
      ⟨w, m, f, rfl, hpc, heq⟩
    · cases heq
      exact h
    · cases heq
      exact h
    · have ha : a' = (answer direction' f a m).2 :=
        (congrArg Prod.fst heq).trans (Thread.act_writes build direction' m f w a t).1
      rw [ha, answer]
      split_ifs
      · exact DirectedAdapter.other ⟨m, direction'⟩ hne h
      · exact h

end Blackswan.Fix
