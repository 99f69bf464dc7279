import Blackswan.Kernel.Setup
import Blackswan.Lib.Toggle

/-!
# The map that switches an XDP fault

`arm` and `disarm` of the three XDP injectors write one map, in which zero means off, and set
`is_armed` only after the write took effect. An object that is not loaded yet does nothing, so its
switch counts as zero.

1. `switch_arm` and `switch_disarm` say what one call of the shared machine does to the flag and
   the map, at whichever of its steps it fails.
2. `Switched` is the invariant that follows: the map tells whether the fault is armed.
3. `toggle_sound` derives that the machine is a sound switch, and each injector is that machine
   with its own values (`sim_fault`).
-/

namespace Blackswan.Kernel

open Lib (Endian Toggle)

namespace XdpFault

variable {fault : XdpFault} {hook : XdpHook} {env : XdpEnv}

/-- What the switch holds. -/
def switch (fault : XdpFault) (hook : XdpHook) : UInt32 :=
  (hook.bpf.map fun bpf => bpf.u32 fault.switchMap).getD 0

theorem setU32Map_cases (bpf : Bpf) (id mapName : String) (value : UInt32) (env : XdpEnv) :
    (∃ bpf', setU32Map bpf id mapName value env = (.ok (), bpf') ∧ bpf'.u32 mapName = value) ∨
      ∃ e, setU32Map bpf id mapName value env = (.error e, bpf) := by
  by_cases hok : env.access (MapWrite.u32 mapName value).mapName = .ok
  · exact Or.inl ⟨_, setMap_ok hok, holds_apply_self bpf (.u32 mapName value)⟩
  · exact Or.inr (setMap_refused id bpf hok)

/-- `ensure_loaded` does not turn the switch. -/
theorem WellFormed.switch_ensureLoaded (hf : fault.WellFormed) (env : XdpEnv) (hook : XdpHook)
    (armed : Bool) :
    fault.switch ⟨(fault.ensureLoaded env hook.bpf).2, armed⟩ = fault.switch hook := by
  unfold XdpFault.switch
  rcases ensureLoaded_cases fault env hook.bpf with
    ⟨e, he⟩ | ⟨loaded, res, hens, -, hfound | ⟨hnone, -, hwritten⟩⟩
  · rcases hbpf : hook.bpf with _ | bpf
    · rw [hbpf] at he
      rw [he]
    · rw [hbpf] at he
      cases he
  · rw [hens, hfound]
  · rw [hens, hnone, hwritten]
    exact (holds_writeMaps_of_notMem (w := .u32 fault.switchMap 0) fault.id env .zeroed
      hf.switch).mpr rfl

/-- The object that `ensure_loaded` returns is the one it leaves. -/
theorem ensureLoaded_ok {loaded : Bpf} {bpf bpf' : Option Bpf}
    (h : fault.ensureLoaded env bpf = (.ok loaded, bpf')) : bpf' = some loaded := by
  rcases ensureLoaded_cases fault env bpf with ⟨e, he⟩ | ⟨left, res, hens, hres, -⟩
  · rw [he] at h
    cases h
  · rw [hens] at h
    obtain ⟨rfl, rfl⟩ := Prod.mk.inj h
    rw [hres loaded rfl]

/-- `arm` turns the switch and sets the flag, or fails and leaves both, also when it fails after
loading the object. -/
theorem WellFormed.switch_arm (hf : fault.WellFormed) (env : XdpEnv) (hook : XdpHook) :
    (∃ bpf, fault.arm env hook = (.ok (), ⟨some bpf, true⟩) ∧
        bpf.u32 fault.switchMap = fault.switchValue) ∨
      ∃ e bpf, fault.arm env hook = (.error e, ⟨bpf, hook.armed⟩) ∧
        fault.switch ⟨bpf, hook.armed⟩ = fault.switch hook := by
  have hkeep := hf.switch_ensureLoaded env hook hook.armed
  unfold XdpFault.arm
  rcases hens : fault.ensureLoaded env hook.bpf with ⟨e | loaded, bpf⟩
  · rw [hens] at hkeep
    exact Or.inr ⟨e, bpf, rfl, hkeep⟩
  · rw [hens, ensureLoaded_ok hens] at hkeep
    dsimp only
    rcases setU32Map_cases loaded fault.id fault.switchMap fault.switchValue env with
      ⟨bpf', hset, hvalue⟩ | ⟨e, hset⟩
    · rw [hset]
      exact Or.inl ⟨bpf', rfl, hvalue⟩
    · rw [hset]
      exact Or.inr ⟨e, some loaded, rfl, hkeep⟩

/-- `disarm` turns the switch to zero and clears the flag, or fails and leaves both. -/
theorem switch_disarm (fault : XdpFault) (env : XdpEnv) (hook : XdpHook) :
    (∃ bpf, fault.disarm env hook = (.ok (), ⟨bpf, false⟩) ∧ fault.switch ⟨bpf, false⟩ = 0) ∨
      ∃ e, fault.disarm env hook = (.error e, hook) := by
  obtain ⟨_ | loaded, armed⟩ := hook
  · exact Or.inl ⟨none, rfl, rfl⟩
  · unfold disarm
    dsimp only
    rcases setU32Map_cases loaded fault.id fault.switchMap 0 env with
      ⟨bpf', hset, hvalue⟩ | ⟨e, hset⟩
    · rw [hset]
      exact Or.inl ⟨some bpf', rfl, hvalue⟩
    · rw [hset]
      exact Or.inr ⟨e, rfl⟩

/-- The switch holds the configured value while armed, and zero otherwise. -/
def Switched (fault : XdpFault) (hook : XdpHook) : Prop :=
  fault.switch hook = if hook.armed then fault.switchValue else 0

theorem Switched.arm (hf : fault.WellFormed) (h : fault.Switched hook) (env : XdpEnv) :
    fault.Switched (fault.arm env hook).2 := by
  unfold Switched
  rcases hf.switch_arm env hook with ⟨bpf, harm, hvalue⟩ | ⟨e, bpf, harm, hkeep⟩
  · rw [harm]
    exact hvalue
  · rw [harm]
    exact hkeep.trans h

theorem Switched.disarm (h : fault.Switched hook) (env : XdpEnv) :
    fault.Switched (fault.disarm env hook).2 := by
  unfold Switched
  rcases fault.switch_disarm env hook with ⟨bpf, hdisarm, hzero⟩ | ⟨e, hdisarm⟩
  · rw [hdisarm]
    exact hzero
  · rw [hdisarm]
    exact h

/-- The shared machine as a switch. -/
def toggle (fault : XdpFault) : Toggle XdpHook XdpEnv HarnessError UInt32 where
  arm := fun hook env => fault.arm env hook
  disarm := fun hook env => fault.disarm env hook
  armed := XdpHook.armed
  cell := fault.switch
  on := fun _ => fault.switchValue
  off := fun _ => 0

theorem WellFormed.view_error (hf : fault.WellFormed) {c : Toggle.Call XdpEnv} {e : HarnessError}
    (h : (fault.toggle.call hook c).1 = .error e) :
    fault.toggle.view (fault.toggle.call hook c).2 = fault.toggle.view hook := by
  rcases c with env | env
  · have hcall : fault.toggle.call hook (.arm env) = fault.arm env hook := rfl
    rcases hf.switch_arm env hook with ⟨bpf, harm, -⟩ | ⟨e', bpf, harm, hswitch⟩
    · rw [hcall, harm] at h
      cases h
    · rw [hcall, harm]
      exact congrArg (Prod.mk hook.armed) hswitch
  · have hcall : fault.toggle.call hook (.disarm env) = fault.disarm env hook := rfl
    rcases fault.switch_disarm env hook with ⟨bpf, hdisarm, -⟩ | ⟨e', hdisarm⟩
    · rw [hcall, hdisarm] at h
      cases h
    · rw [hcall, hdisarm]

theorem WellFormed.view_arm_ok (hf : fault.WellFormed) (h : (fault.arm env hook).1 = .ok ()) :
    fault.toggle.view (fault.arm env hook).2 = (true, fault.switchValue) := by
  rcases hf.switch_arm env hook with ⟨bpf, harm, hvalue⟩ | ⟨e, bpf, harm, -⟩
  · rw [harm]
    exact congrArg (Prod.mk true) hvalue
  · rw [harm] at h
    cases h

theorem view_disarm_ok (h : (fault.disarm env hook).1 = .ok ()) :
    fault.toggle.view (fault.disarm env hook).2 = (false, 0) := by
  rcases fault.switch_disarm env hook with ⟨bpf, hdisarm, hzero⟩ | ⟨e, hdisarm⟩
  · rw [hdisarm]
    exact congrArg (Prod.mk false) hzero
  · rw [hdisarm] at h
    cases h

/-- **The shared machine is a switch**, if it is configured to a value other than zero. -/
theorem WellFormed.toggle_lawful (hf : fault.WellFormed) (hvalue : fault.switchValue ≠ 0) :
    fault.toggle.Lawful fun _ => True where
  inv := fun _ _ _ => trivial
  on_call := fun _ _ => rfl
  off_disarm := fun _ _ => rfl
  off_ne_on := fun _ _ => hvalue.symm
  arm_ok := fun _ _ _ hok => hf.view_arm_ok hok
  disarm_ok := fun _ _ _ hok => view_disarm_ok hok
  error := fun _ _ _ _ he => hf.view_error he

theorem WellFormed.toggle_sound (hf : fault.WellFormed) (hvalue : fault.switchValue ≠ 0) :
    fault.toggle.Sound ⟨none, false⟩ :=
  (hf.toggle_lawful hvalue).sound trivial
    (Toggle.agree_of_view_off (T := fault.toggle) rfl hvalue.symm)

end XdpFault

/-! ## The three injectors -/

namespace XdpPacketLossInjector

def toggle : Toggle XdpPacketLossInjector XdpEnv HarnessError UInt32 where
  arm := arm
  disarm := disarm
  armed := fun self => self.armed
  cell := fun self => self.fault.switch self.toXdpHook
  on := dropEveryN
  off := fun _ => 0

theorem wellFormed_fault (self : XdpPacketLossInjector) : self.fault.WellFormed :=
  ⟨List.nodup_nil, List.not_mem_nil⟩

/-- The injector is the shared machine with its own values. -/
theorem sim_fault (fault : XdpFault) :
    toggle.Sim fault.toggle fun self hook => self.toXdpHook = hook ∧ self.fault = fault := by
  constructor
  · rintro self _ (env | env) ⟨rfl, rfl⟩ <;> rfl
  · rintro self _ (env | env) ⟨rfl, rfl⟩ <;> exact ⟨rfl, rfl⟩
  · rintro self _ ⟨rfl, rfl⟩
    rfl
  · rintro self _ ⟨rfl, rfl⟩
    rfl

end XdpPacketLossInjector

namespace XdpCorruptionInjector

def toggle : Toggle XdpCorruptionInjector XdpEnv HarnessError UInt32 where
  arm := arm
  disarm := disarm
  armed := fun self => self.armed
  cell := fun self => self.fault.switch self.toXdpHook
  on := corruptEveryN
  off := fun _ => 0

theorem sim_fault (fault : XdpFault) :
    toggle.Sim fault.toggle fun self hook => self.toXdpHook = hook ∧ self.fault = fault := by
  constructor
  · rintro self _ (env | env) ⟨rfl, rfl⟩ <;> rfl
  · rintro self _ (env | env) ⟨rfl, rfl⟩ <;> exact ⟨rfl, rfl⟩
  · rintro self _ ⟨rfl, rfl⟩
    rfl
  · rintro self _ ⟨rfl, rfl⟩
    rfl

end XdpCorruptionInjector

namespace XdpPartitionInjector

def toggle (host : Endian) : Toggle XdpPartitionInjector XdpEnv HarnessError UInt32 where
  arm := fun self env => self.arm host env
  disarm := fun self env => self.disarm host env
  armed := fun self => self.armed
  cell := fun self => (self.fault host).switch self.toXdpHook
  on := fun _ => 1
  off := fun _ => 0

theorem sim_fault (host : Endian) (fault : XdpFault) : (toggle host).Sim fault.toggle
    fun self hook => self.toXdpHook = hook ∧ self.fault host = fault := by
  constructor
  · rintro self _ (env | env) ⟨rfl, rfl⟩ <;> rfl
  · rintro self _ (env | env) ⟨rfl, rfl⟩ <;> exact ⟨rfl, rfl⟩
  · rintro self _ ⟨rfl, rfl⟩
    rfl
  · rintro self _ ⟨rfl, rfl⟩
    rfl

end XdpPartitionInjector

end Blackswan.Kernel
