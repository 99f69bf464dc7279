import Blackswan.Core

/-!
# Clock skew through time namespaces

`TimeSkewInjector` has no target to attach to: `arm` launches a child in a time namespace of its
own, `disarm` terminates it, and the injector counts as armed while it holds the child's handle.
-/

namespace Blackswan.Kernel

/-- A command that is ready to spawn. `offsetsBuf` is what the child writes to its
`timens_offsets` between `fork` and `exec`. -/
structure SkewCommand where
  program : String
  args : List String
  stdoutPiped : Bool
  offsetsBuf : String
  deriving DecidableEq, Repr

/-- The handle of a launched process. -/
structure Child where
  pid : UInt32
  deriving DecidableEq, Repr

/-- What one call meets outside the process. A failure between `fork` and `exec` is a failure of
`spawn`; `try_wait` answers whether the process has exited. -/
structure TimeSkewEnv where
  spawn : SkewCommand → Except String Child
  tryWait : Child → Except String Bool
  kill : Child → Except String Unit

structure TimeSkewInjector where
  id : String
  argv : List String
  monotonicOffsetSecs : Int64
  boottimeOffsetSecs : Int64
  captureStdout : Bool
  child : Option Child

namespace TimeSkewInjector

def new (id : String) (argv : List String) (monotonicOffsetSecs boottimeOffsetSecs : Int64) :
    TimeSkewInjector := ⟨id, argv, monotonicOffsetSecs, boottimeOffsetSecs, false, none⟩

def arm (self : TimeSkewInjector) (env : TimeSkewEnv) :
    Except HarnessError Unit × TimeSkewInjector :=
  match self.child with
  | some _ => (.ok (), self)
  | none =>
    match self.argv with
    | [] => (.error (.armFailed self.id "argv is empty, nothing to launch"), self)
    | program :: args =>
      let offsetsBuf := "monotonic " ++ toString self.monotonicOffsetSecs ++ " 0\nboottime " ++
        toString self.boottimeOffsetSecs ++ " 0\n"
      match env.spawn ⟨program, args, self.captureStdout, offsetsBuf⟩ with
      | .error e => (.error (.armFailed self.id s!"spawning skewed process: {e}"), self)
      | .ok child => (.ok (), { self with child := some child })

/-- `disarm`. The handle is taken out before anything can fail. -/
def disarm (self : TimeSkewInjector) (env : TimeSkewEnv) :
    Except HarnessError Unit × TimeSkewInjector :=
  match self.child with
  | none => (.ok (), self)
  | some child =>
    let taken := { self with child := none }
    match env.tryWait child with
    | .ok true => (.ok (), taken)
    | _ =>
      match env.kill child with
      | .error e => (.error (.disarmFailed self.id s!"killing skewed process: {e}"), taken)
      | .ok () => (.ok (), taken)

def isArmed (self : TimeSkewInjector) : Bool := self.child.isSome

/-- `arm` sets `is_armed` if it succeeds and leaves it otherwise. -/
theorem armed_arm (self : TimeSkewInjector) (env : TimeSkewEnv) :
    ((self.arm env).1 = .ok () ∧ (self.arm env).2.isArmed = true) ∨
      ∃ e, (self.arm env).1 = .error e ∧ (self.arm env).2.isArmed = self.isArmed := by
  unfold arm
  rcases hchild : self.child with _ | child
  · rcases self.argv with _ | ⟨program, args⟩
    · exact Or.inr ⟨_, rfl, rfl⟩
    · dsimp only
      rcases env.spawn _ with e | child
      · exact Or.inr ⟨_, rfl, rfl⟩
      · exact Or.inl ⟨rfl, rfl⟩
  · refine Or.inl ⟨rfl, ?_⟩
    rw [isArmed, hchild]
    rfl

/-- However `disarm` ends, the injector is not armed afterwards. -/
theorem isArmed_disarm (self : TimeSkewInjector) (env : TimeSkewEnv) :
    (self.disarm env).2.isArmed = false := by
  unfold disarm
  rcases hchild : self.child with _ | child
  · rw [isArmed, hchild]
    rfl
  · dsimp only
    rcases env.tryWait child with e | _ | _
    · rcases env.kill child with e | ⟨⟩ <;> rfl
    · rcases env.kill child with e | ⟨⟩ <;> rfl
    · rfl

end TimeSkewInjector

end Blackswan.Kernel
