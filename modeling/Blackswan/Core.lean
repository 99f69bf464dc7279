import Blackswan.Lib.Outcome

/-!
# The shared vocabulary of the harness

The data types and traits of `crates/core`: scenarios and their steps, the errors of the
harness, the virtual clock, fault injectors and protocol adapters. `u64` is `UInt64`, whose
addition wraps as `fetch_add` does.
-/

namespace Blackswan

open Lib (Outcome)

/-- `HarnessError`. An `std::io::Error` is carried by its text. -/
inductive HarnessError where
  | armFailed (id reason : String)
  | disarmFailed (id reason : String)
  | adapterRejected (adapter reason : String)
  | invalidScenario (reason : String)
  | io (reason : String)
  deriving DecidableEq, Repr

/-! ## Scenarios -/

inductive StepAction where
  | arm
  | disarm
  deriving DecidableEq, Repr

structure ScenarioStep where
  atNs : UInt64
  faultId : String
  action : StepAction
  deriving DecidableEq, Repr

structure Scenario where
  name : String
  seed : UInt64
  steps : List ScenarioStep
  deriving DecidableEq, Repr

/-! ## The virtual clock -/

structure VirtualClock where
  ns : UInt64
  deriving DecidableEq, Repr

namespace VirtualClock

def new (startNs : UInt64) : VirtualClock := ⟨startNs⟩

/-- `fetch_add`, which wraps around at `2 ^ 64`. -/
def advance (clock : VirtualClock) (deltaNs : UInt64) : VirtualClock := ⟨clock.ns + deltaNs⟩

def nowNs (clock : VirtualClock) : UInt64 := clock.ns

end VirtualClock

/-! ## Fault injectors -/

/-- `FaultContext`. Its clock is left out: no injector reads it. -/
structure FaultContext where
  seed : UInt64
  deriving DecidableEq, Repr

/-- The trait `FaultInjector`. A value of `I` is the state of an injector together with all that
decides how its next calls end, so an arbitrary pattern of failing calls is an arbitrary `I`. -/
class FaultInjector (I : Type) where
  arm : I → FaultContext → Except HarnessError Unit × I
  disarm : I → Except HarnessError Unit × I
  isArmed : I → Bool

/-- A call that succeeds decides `is_armed`. -/
class SettlingInjector (I : Type) [FaultInjector I] : Prop where
  arm_ok : ∀ (i : I) ctx, (FaultInjector.arm i ctx).1 = .ok () →
    FaultInjector.isArmed (FaultInjector.arm i ctx).2 = true
  disarm_ok : ∀ i : I, (FaultInjector.disarm i).1 = .ok () →
    FaultInjector.isArmed (FaultInjector.disarm i).2 = false

/-- On top of that, a call that fails leaves `is_armed` as it was. -/
class LawfulInjector (I : Type) [FaultInjector I] : Prop extends SettlingInjector I where
  arm_error : ∀ (i : I) ctx e, (FaultInjector.arm i ctx).1 = .error e →
    FaultInjector.isArmed (FaultInjector.arm i ctx).2 = FaultInjector.isArmed i
  disarm_error : ∀ (i : I) e, (FaultInjector.disarm i).1 = .error e →
    FaultInjector.isArmed (FaultInjector.disarm i).2 = FaultInjector.isArmed i

/-! ## Protocol adapters -/

inductive Direction where
  | inbound
  | outbound
  deriving DecidableEq, Repr

structure RawMessage where
  bytes : List UInt8
  direction : Direction
  deriving DecidableEq, Repr

/-- `InterceptAction`; a delay is given in nanoseconds. -/
inductive InterceptAction where
  | forward
  | drop
  | mutate (bytes : List UInt8)
  | delay (ns : UInt64)
  deriving DecidableEq, Repr

/-- The trait `ProtocolAdapter`. `intercept` takes `&self`, so what it changes (an atomic
counter) is passed on explicitly. -/
class ProtocolAdapter (A : Type) where
  intercept : A → RawMessage → Outcome HarnessError InterceptAction × A

/-! ## Build profiles -/

/-- The build profile decides what an overflowing addition does: it panics or wraps. -/
inductive Build where
  | debug
  | release
  deriving DecidableEq, Repr

end Blackswan
