import Mathlib.Data.Finset.Card
import Blackswan.Kernel.TimeSkew
import Blackswan.Lib.Machine

/-!
# The processes a clock skew injector launches

`TimeSkewInjector` together with the processes it has launched, which run on until they are killed
or exit by themselves: dropping a handle ends no process.

`disarm` takes the handle out of the injector before it kills the process, and a kill that fails
does not put it back. So a process can go on without a handle, out of reach of teardown, and the
next `arm` launches another one beside it. `Supervised` is what should hold; it does in the runs
in which no kill of a running process fails, and in no others (`supervised_iff`).
-/

namespace Blackswan.Kernel

/-- A call on the injector, or a process that exits by itself. -/
inductive SkewEvent where
  | arm (env : TimeSkewEnv)
  | disarm (env : TimeSkewEnv)
  | exit (pid : UInt32)

/-- The injector and, of the processes it launched, those that are running. -/
structure SkewSystem where
  injector : TimeSkewInjector
  running : Finset UInt32

/-- What the calls meet: a launched process with this pid, which does not exit by itself. -/
def TimeSkewEnv.launching (pid : UInt32) (kill : Except String Unit) :
    TimeSkewEnv :=
  ⟨fun _ => .ok ⟨pid⟩, fun _ => .ok false, fun _ => kill⟩

namespace SkewSystem

/-- `arm`. A process that is launched gets a pid that is not in use. -/
def arm (s : SkewSystem) (env : TimeSkewEnv) : Option SkewSystem :=
  let injector := (s.injector.arm env).2
  match s.injector.child, injector.child with
  | none, some child =>
    if child.pid ∈ s.running then none else some ⟨injector, insert child.pid s.running⟩
  | _, _ => some { s with injector := injector }

/-- `disarm`. Only a process that is not running any more has an exit status, a kill that succeeds
ends the process and one that fails does not. -/
def disarm (s : SkewSystem) (env : TimeSkewEnv) : Option SkewSystem :=
  let injector := (s.injector.disarm env).2
  match s.injector.child with
  | none => some { s with injector := injector }
  | some child =>
    match env.tryWait child with
    | .ok true => if child.pid ∈ s.running then none else some { s with injector := injector }
    | _ =>
      match env.kill child with
      | .error _ => some { s with injector := injector }
      | .ok () => some ⟨injector, s.running.erase child.pid⟩

def step (s : SkewSystem) : SkewEvent → Option SkewSystem
  | .arm env => s.arm env
  | .disarm env => s.disarm env
  | .exit pid => some { s with running := s.running.erase pid }

/-- At most one process is running, and if one is, the injector is armed. -/
def Supervised (s : SkewSystem) : Prop :=
  s.running.card ≤ 1 ∧ (s.running.Nonempty → s.injector.isArmed = true)

/-- No `disarm` fails to kill a process that is running. -/
def Kills (s : SkewSystem) : SkewEvent → Prop
  | .disarm env => ∀ child, s.injector.child = some child → child.pid ∈ s.running →
      env.kill child = .ok ()
  | _ => True

/-- The injector holds the handle of every process that is running. -/
def Held (s : SkewSystem) : Prop :=
  ∀ pid ∈ s.running, ∃ child, s.injector.child = some child ∧ child.pid = pid

variable {s s' : SkewSystem} {env : TimeSkewEnv}

theorem Held.supervised (h : s.Held) : s.Supervised := by
  constructor
  · refine Finset.card_le_one.mpr fun pid hpid pid' hpid' => ?_
    obtain ⟨child, hchild, rfl⟩ := h pid hpid
    obtain ⟨child', hchild', rfl⟩ := h pid' hpid'
    rw [hchild] at hchild'
    cases hchild'
    rfl
  · rintro ⟨pid, hpid⟩
    obtain ⟨child, hchild, -⟩ := h pid hpid
    rw [TimeSkewInjector.isArmed, hchild]
    rfl

/-- Without a handle nothing is running. -/
theorem Held.notMem (h : s.Held) (hchild : s.injector.child = none) (pid : UInt32) :
    pid ∉ s.running := by
  intro hpid
  obtain ⟨child, hsome, -⟩ := h pid hpid
  rw [hchild] at hsome
  cases hsome

/-- With one, nothing but its process. -/
theorem Held.eq_pid (h : s.Held) {child : Child} (hchild : s.injector.child = some child)
    {pid : UInt32} (hpid : pid ∈ s.running) : pid = child.pid := by
  obtain ⟨child', hsome, rfl⟩ := h pid hpid
  rw [hchild] at hsome
  cases hsome
  rfl

theorem arm_of_child {self : TimeSkewInjector} {child : Child} (h : self.child = some child)
    (env : TimeSkewEnv) : (self.arm env).2 = self := by
  unfold TimeSkewInjector.arm
  rw [h]

theorem child_disarm (self : TimeSkewInjector) (env : TimeSkewEnv) :
    (self.disarm env).2.child = none :=
  Option.isSome_eq_false_iff.mp (self.isArmed_disarm env) |> Option.isNone_iff_eq_none.mp

theorem Held.arm (h : s.Held) (hstep : s.arm env = some s') : s'.Held := by
  unfold SkewSystem.arm at hstep
  rcases hchild : s.injector.child with _ | child
  · rcases hnew : (s.injector.arm env).2.child with _ | child
    · simp only [hchild, hnew] at hstep
      cases hstep
      exact fun pid hpid => absurd hpid (h.notMem hchild pid)
    · simp only [hchild, hnew] at hstep
      split_ifs at hstep
      cases hstep
      intro pid hpid
      rcases Finset.mem_insert.mp hpid with rfl | hold
      · exact ⟨child, hnew, rfl⟩
      · exact absurd hold (h.notMem hchild pid)
  · rw [arm_of_child hchild env] at hstep
    simp only [hchild] at hstep
    cases hstep
    exact h

/-- What a `disarm` with a handle leaves: an injector without one, and the other processes, with
the one it held among them exactly if that was running and the kill failed. -/
theorem mem_running_disarm {child : Child} (hchild : s.injector.child = some child)
    (hstep : s.disarm env = some s') (pid : UInt32) :
    s'.injector.child = none ∧ (pid ∈ s'.running ↔ pid ∈ s.running ∧
      (pid = child.pid → env.kill child ≠ .ok ())) := by
  have hnone := child_disarm s.injector env
  unfold SkewSystem.disarm at hstep
  simp only [hchild] at hstep
  split at hstep
  · split_ifs at hstep with hpid
    cases hstep
    refine ⟨hnone, fun hmem => ⟨hmem, ?_⟩, And.left⟩
    rintro rfl
    exact absurd hmem hpid
  · rcases hkill : env.kill child with e | ⟨⟩ <;> rw [hkill] at hstep <;> cases hstep
    · exact ⟨hnone, fun hmem => ⟨hmem, fun _ => nofun⟩, And.left⟩
    · refine ⟨hnone, ?_⟩
      rw [Finset.mem_erase]
      exact ⟨fun hmem => ⟨hmem.2, fun heq => absurd heq hmem.1⟩,
        fun hmem => ⟨fun heq => hmem.2 heq rfl, hmem.1⟩⟩

theorem disarm_of_no_child (hchild : s.injector.child = none) (env : TimeSkewEnv) :
    s.disarm env = some s := by
  unfold SkewSystem.disarm TimeSkewInjector.disarm
  simp only [hchild]

theorem Held.disarm (h : s.Held) (hkills : s.Kills (.disarm env))
    (hstep : s.disarm env = some s') : s'.Held := by
  rcases hchild : s.injector.child with _ | child
  · rw [disarm_of_no_child hchild] at hstep
    cases hstep
    exact h
  · intro pid hpid
    obtain ⟨-, hmem⟩ := mem_running_disarm hchild hstep pid
    obtain ⟨hold, hfailed⟩ := hmem.mp hpid
    have heq := h.eq_pid hchild hold
    exact absurd (hkills child hchild (heq ▸ hold)) (hfailed heq)

/-- One event keeps the handles, if it kills what it has to. -/
theorem Held.step {e : SkewEvent} (h : s.Held) (hkills : s.Kills e)
    (hstep : s.step e = some s') : s'.Held := by
  rcases e with env | env | pid
  · exact h.arm hstep
  · exact h.disarm hkills hstep
  · cases hstep
    exact fun pid' hpid' => h pid' (Finset.mem_of_mem_erase hpid')

/-- A `disarm` that fails to kill a running process loses it. -/
theorem not_supervised_disarm {child : Child} (hchild : s.injector.child = some child)
    (hrunning : child.pid ∈ s.running) (hkill : env.kill child ≠ .ok ())
    (hstep : s.disarm env = some s') : ¬ s'.Supervised := by
  rintro ⟨-, harmed⟩
  obtain ⟨hnone, hmem⟩ := mem_running_disarm hchild hstep child.pid
  have := harmed ⟨child.pid, hmem.mpr ⟨hrunning, fun _ => hkill⟩⟩
  rw [TimeSkewInjector.isArmed, hnone] at this
  cases this

/-- **When the launched processes are supervised.** In any sequence of calls and exits, started with
nothing running, at most one process is running and only while armed, in all states passed
through, exactly if no `disarm` fails to kill a running process. -/
theorem supervised_iff (injector : TimeSkewInjector) (events : List SkewEvent)
    (hrun : (Lib.run step events ⟨injector, ∅⟩).isSome) :
    Lib.Throughout step Supervised events ⟨injector, ∅⟩ ↔
      Lib.Along step Kills events ⟨injector, ∅⟩ := by
  constructor
  · rintro h pre (env | env | pid) post s rfl hs
    · trivial
    · intro child hchild hrunning
      by_contra hkill
      rw [Lib.run_append, hs, Option.bind_some, Lib.run] at hrun
      obtain ⟨s', hs'⟩ := Option.isSome_iff_exists.mp (Option.isSome_of_isSome_bind hrun)
      refine not_supervised_disarm hchild hrunning hkill hs'
        (h (pre ++ [.disarm env]) post s' ?_ ?_)
      · rw [List.append_assoc]
        rfl
      · rw [Lib.run_append, hs, Option.bind_some, Lib.run, show s.step (.disarm env) = _ from hs']
        rfl
    · trivial
  · intro h
    have hheld := h.throughout (fun s e s' hheld hok hstep => Held.step hheld hok hstep)
      (show Held ⟨injector, ∅⟩ from fun pid hpid => absurd hpid (Finset.notMem_empty pid))
    exact fun pre post mid hevents hmid => (hheld pre post mid hevents hmid).supervised

/-- A run in which the kill succeeds. -/
theorem supervised_of_kill :
    let events : List SkewEvent := [.arm (.launching 7 (.ok ())), .disarm (.launching 7 (.ok ()))]
    Lib.Throughout step Supervised events ⟨.new "skew" ["sleep", "60"] 10 0, ∅⟩ := by
  intro events
  refine (supervised_iff _ events rfl).mpr ?_
  rintro pre (env | env | pid) post s hevents - <;> try trivial
  intro child _ _
  have hmem : SkewEvent.disarm env ∈ events := hevents ▸ by simp
  obtain rfl : env = .launching 7 (.ok ()) := by simpa [events] using hmem
  rfl

/-- The kill fails: the process runs on while the injector is not armed, and the next `arm` launches
a second one. -/
theorem orphan_after_failed_kill :
    let events : List SkewEvent := [.arm (.launching 7 (.ok ())),
      .disarm (.launching 7 (.error "EPERM"))]
    let start : SkewSystem := ⟨.new "skew" ["sleep", "60"] 10 0, ∅⟩
    (∃ s, Lib.run step events start = some s ∧ s.running = {7} ∧ s.injector.isArmed = false) ∧
      ∃ s, Lib.run step (events ++ [.arm (.launching 8 (.ok ()))]) start = some s ∧
        s.running = {7, 8} :=
  ⟨⟨_, rfl, rfl, rfl⟩, ⟨_, rfl, by decide⟩⟩

end SkewSystem

end Blackswan.Kernel
