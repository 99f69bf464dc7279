import Blackswan.Kernel.Switch
import Blackswan.Kernel.Cgroup
import Blackswan.Fix.Injector

/-!
# The injectors that toggle one control cell

Five injectors turn their fault on and off by writing one cell: a map of an XDP program, the limit
file of a cgroup, the flag of the FIX proxy. Teardown decides by `is_armed` alone what there is to
clean up, so the flag must say what the cell holds after any sequence of calls, whichever of their
steps fail. `injectors_sound` shows that it does.
-/

namespace Blackswan.Kernel.CgroupMemoryPressureInjector

open Lib (Toggle)

variable {self : CgroupMemoryPressureInjector} {env : CgroupEnv}

/-- The configured limit is not the text that lifts it, on either hierarchy. Only the texts are
compared: the kernel rounds a limit to pages and clamps it, so that some of the largest numbers are
no limit either. Here a limit is on once its text has been written. -/
def Limits (limitBytes : UInt64) (mode : PressureMode) : Prop :=
  ∀ isV1, (limitFile isV1 mode).2 ≠ toString limitBytes

/-- The cell is the limit file, `none` until the first write to it. -/
def toggle : Toggle CgroupMemoryPressureInjector CgroupEnv HarnessError (Option String) where
  arm := arm
  disarm := disarm
  armed := armed
  cell := limit
  on := fun self => some (toString self.limitBytes)
  off := fun self => self.setup.map CgroupSetup.unlimited

/-- The limit file is written only after the setup, whose text for no limit is not the limit. -/
structure Ready (injector : CgroupMemoryPressureInjector) : Prop where
  limits : Limits injector.limitBytes injector.mode
  limit : injector.setup = none → injector.limit = none
  unlimited : ∀ setup, injector.setup = some setup →
    setup.unlimited ≠ toString injector.limitBytes

theorem Ready.ensureSetup (h : self.Ready) {setup : CgroupSetup}
    (hens : self.ensureSetup env = .ok setup) :
    setup.unlimited ≠ toString self.limitBytes := by
  unfold CgroupMemoryPressureInjector.ensureSetup at hens
  rcases hsetup : self.setup with _ | found <;> rw [hsetup] at hens
  · dsimp only at hens
    repeat' split at hens
    all_goals cases hens
    exact h.limits _
  · cases hens
    exact h.unlimited setup hsetup

/-- `arm` writes the limit and sets the flag, or fails and leaves both. Either way the injector
stays ready. -/
theorem Ready.arm (h : self.Ready) (env : CgroupEnv) :
    (self.arm env).2.Ready ∧
      (((self.arm env).1 = .ok () ∧
          toggle.view (self.arm env).2 = (true, some (toString self.limitBytes))) ∨
        ∃ e, (self.arm env).1 = .error e ∧ toggle.view (self.arm env).2 = toggle.view self) := by
  unfold CgroupMemoryPressureInjector.arm
  rcases hens : self.ensureSetup env with e | setup
  · exact ⟨h, Or.inr ⟨e, rfl, rfl⟩⟩
  · have hne := h.ensureSetup hens
    have hready (armed : Bool) (limit : Option String) :
        Ready { self with setup := some setup, armed := armed, limit := limit } :=
      ⟨h.limits, nofun, fun _ heq => Option.some.inj heq ▸ hne⟩
    dsimp only
    rcases env.write (setup.path.join setup.limitFile) (toString self.limitBytes) with e | ⟨⟩
    · exact ⟨hready self.armed self.limit, Or.inr ⟨_, rfl, rfl⟩⟩
    · exact ⟨hready true _, Or.inl ⟨rfl, rfl⟩⟩

/-- `disarm` lifts the limit and clears the flag, or fails and changes nothing. -/
theorem Ready.disarm (h : self.Ready) (env : CgroupEnv) :
    (self.disarm env).2.Ready ∧
      (((self.disarm env).1 = .ok () ∧
          toggle.view (self.disarm env).2 = (false, self.setup.map CgroupSetup.unlimited)) ∨
        ∃ e, self.disarm env = (.error e, self)) := by
  unfold CgroupMemoryPressureInjector.disarm
  rcases hsetup : self.setup with _ | setup
  · have hlimit := h.limit hsetup
    exact ⟨⟨h.limits, fun _ => hlimit, nofun⟩, Or.inl ⟨rfl, congrArg (Prod.mk false) hlimit⟩⟩
  · dsimp only
    rcases env.write (setup.path.join setup.limitFile) setup.unlimited with e | ⟨⟩
    · exact ⟨h, Or.inr ⟨_, rfl⟩⟩
    · exact ⟨⟨h.limits, nofun, fun _ heq => h.unlimited _ (hsetup.trans heq)⟩,
        Or.inl ⟨rfl, rfl⟩⟩

theorem on_call (self : CgroupMemoryPressureInjector) (c : Toggle.Call CgroupEnv) :
    (toggle.call self c).2.limitBytes = self.limitBytes := by
  rcases c with env | env
  · show (self.arm env).2.limitBytes = _
    unfold CgroupMemoryPressureInjector.arm
    dsimp only
    repeat' split
    all_goals rfl
  · show (self.disarm env).2.limitBytes = _
    unfold CgroupMemoryPressureInjector.disarm
    repeat' split
    all_goals rfl

theorem setup_disarm (self : CgroupMemoryPressureInjector) (env : CgroupEnv) :
    (self.disarm env).2.setup = self.setup := by
  unfold CgroupMemoryPressureInjector.disarm
  repeat' split
  all_goals rfl

/-- The limit file is a switch. -/
theorem toggle_lawful : toggle.Lawful Ready where
  inv := by
    rintro self (env | env) h
    · exact (h.arm env).1
    · exact (h.disarm env).1
  on_call := fun self c => congrArg (fun limitBytes => some (toString limitBytes)) (on_call self c)
  off_disarm := fun self env => congrArg (Option.map CgroupSetup.unlimited) (setup_disarm self env)
  off_ne_on := by
    intro self h
    show self.setup.map CgroupSetup.unlimited ≠ some (toString self.limitBytes)
    rcases hsetup : self.setup with _ | setup
    · exact nofun
    · exact fun heq => h.unlimited setup hsetup (Option.some.inj heq)
  arm_ok := by
    intro self env h hok
    rcases (h.arm env).2 with ⟨-, hview⟩ | ⟨e, he, -⟩
    · exact hview
    · exact absurd (he.symm.trans hok) nofun
  disarm_ok := by
    intro self env h hok
    rcases (h.disarm env).2 with ⟨-, hview⟩ | ⟨e, he⟩
    · exact hview
    · rw [show toggle.disarm self env = _ from he] at hok
      cases hok
  error := by
    rintro self (env | env) e h he
    · rcases (h.arm env).2 with ⟨hok, -⟩ | ⟨e', -, hview⟩
      · exact absurd (hok.symm.trans he) nofun
      · exact hview
    · rcases (h.disarm env).2 with ⟨hok, -⟩ | ⟨e', he'⟩
      · exact absurd (hok.symm.trans he) nofun
      · rw [show toggle.call self (.disarm env) = _ from he']

end Blackswan.Kernel.CgroupMemoryPressureInjector

namespace Blackswan.Fix.FixFaultInjector

open Lib (Toggle)

variable {A : Type}

/-- The cell is the `enabled` flag that the relay threads read. -/
def toggle : Toggle (FixFaultInjector A) FixEnv HarnessError Bool where
  arm := arm
  disarm := fun self _ => self.disarm
  armed := isArmed
  cell := fun self => self.proxy.enabled
  on := fun _ => true
  off := fun _ => false

theorem toggle_lawful : (toggle (A := A)).Lawful fun _ => True where
  inv := fun _ _ _ => trivial
  on_call := fun _ _ => rfl
  off_disarm := fun _ _ => rfl
  off_ne_on := fun _ _ => Bool.false_ne_true
  arm_ok := by
    intro self env _ hok
    rcases self.arm_cases env with harm | ⟨e, harm⟩
    · rw [show toggle.arm self env = _ from harm]
      rfl
    · rw [show toggle.arm self env = _ from harm] at hok
      cases hok
  disarm_ok := fun _ _ _ _ => rfl
  error := by
    rintro self (env | env) e _ he
    · rcases self.arm_cases env with harm | ⟨e', harm⟩
      · rw [show toggle.call self (.arm env) = _ from harm] at he
        cases he
      · rw [show toggle.call self (.arm env) = _ from harm]
    · cases he

end Blackswan.Fix.FixFaultInjector

namespace Blackswan

open Lib (Endian)
open Blackswan.Kernel Blackswan.Fix

/-- **`is_armed` says what the control cell holds.** For each of the five injectors, configured to
something other than its off value, and every sequence of calls with every pattern of failures. -/
theorem injectors_sound {A : Type} (host : Endian) (id iface : String) (srcIp : IpAddr)
    (srcPort : UInt16) (dropEveryN corruptEveryN offset : UInt32) (mask : UInt8) (pid : UInt32)
    (limitBytes : UInt64) (mode : PressureMode) (listenAddr upstreamAddr : String) (adapter : A)
    (hdrop : dropEveryN ≠ 0) (hcorrupt : corruptEveryN ≠ 0)
    (hlimit : CgroupMemoryPressureInjector.Limits limitBytes mode) :
    XdpPacketLossInjector.toggle.Sound (.new id iface dropEveryN) ∧
      XdpCorruptionInjector.toggle.Sound (.new id iface corruptEveryN offset mask) ∧
      (XdpPartitionInjector.toggle host).Sound (.new id iface srcIp srcPort) ∧
      CgroupMemoryPressureInjector.toggle.Sound (.new id pid limitBytes mode) ∧
      FixFaultInjector.toggle.Sound (.new id listenAddr upstreamAddr adapter) := by
  refine ⟨?_, ?_, ?_, ?_, ?_⟩
  · exact (XdpPacketLossInjector.sim_fault _).sound ⟨rfl, rfl⟩
      ((XdpPacketLossInjector.wellFormed_fault _).toggle_sound hdrop)
  · exact (XdpCorruptionInjector.sim_fault _).sound ⟨rfl, rfl⟩
      ((XdpCorruptionInjector.wellFormed_fault _).toggle_sound hcorrupt)
  · exact (XdpPartitionInjector.sim_fault host _).sound ⟨rfl, rfl⟩
      ((XdpPartitionInjector.wellFormed_fault _ host).toggle_sound
        (show (1 : UInt32) ≠ 0 by decide))
  · exact CgroupMemoryPressureInjector.toggle_lawful.sound ⟨hlimit, fun _ => rfl, nofun⟩
      (iff_of_false nofun nofun)
  · exact FixFaultInjector.toggle_lawful.sound trivial (iff_of_false nofun nofun)

/-- Half a gigabyte is a limit on either hierarchy. -/
theorem injectors_sound_example :
    CgroupMemoryPressureInjector.toggle.Sound (.new "mem" 4711 536870912 .hard) :=
  (injectors_sound .little "mem" "eth0" (.v4 #v[10, 0, 0, 1]) 4000 7 5 0 1 4711 536870912 .hard
    "127.0.0.1:9000" "127.0.0.1:9001" () (by decide) (by decide)
    (by unfold CgroupMemoryPressureInjector.Limits; decide)).2.2.2.1

end Blackswan
