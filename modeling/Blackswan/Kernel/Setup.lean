import Blackswan.Kernel.Xdp

/-!
# The one-time setup and its retries

`ensure_loaded` stores the object before it writes the configuration maps, so a setup that fails
halfway is not repeated: the next `arm` finds the object and goes straight to the switch.

1. `writeMaps_holds_iff` says when the writes leave every configuration map with its value: from
   the first refused write on, only zeros were to be written, which the maps hold anyway.
2. `Configured.after` shows that calls which set up in that sense keep the loaded object configured.
3. `WellFormed.misconfigured_retry` shows that nothing less will do: after a setup that does not,
   an `arm` succeeds with the wrong configuration.
-/

namespace Blackswan.Kernel

open Lib (Endian fromNeBytes)

/-! ## Writing the configuration -/

/-- The map holds what the write was to put there. -/
def MapWrite.Holds (bpf : Bpf) : MapWrite → Prop
  | .u32 mapName value => bpf.u32 mapName = value
  | .bytes16 mapName value => bpf.bytes16 mapName = value

/-- The write is to put zeros, which is what an array map starts with. -/
def MapWrite.IsZero (write : MapWrite) : Prop := write.Holds .zeroed

/-- All writes take effect, or those from the first refused one on put zeros. -/
def Settles (env : XdpEnv) : List MapWrite → Prop
  | [] => True
  | write :: rest =>
    if env.access write.mapName = .ok then Settles env rest
    else ∀ w ∈ write :: rest, w.IsZero

variable {env : XdpEnv} {id : String} {bpf : Bpf} {write w : MapWrite}

theorem setMap_ok (h : env.access write.mapName = .ok) :
    setMap bpf id write env = (.ok (), write.apply bpf) := by
  unfold setMap
  rw [h]
  rfl

theorem setMap_refused (id : String) (bpf : Bpf) (h : env.access write.mapName ≠ .ok) :
    ∃ e, setMap bpf id write env = (.error e, bpf) := by
  unfold setMap
  rcases ha : env.access write.mapName with _ | _ | e | e
  · exact absurd ha h
  · exact ⟨_, rfl⟩
  · exact ⟨_, rfl⟩
  · exact ⟨_, rfl⟩

theorem holds_apply_self (bpf : Bpf) (write : MapWrite) : write.Holds (write.apply bpf) := by
  rcases write with ⟨mapName, value⟩ | ⟨mapName, value⟩
  · exact Function.update_self mapName value bpf.u32
  · exact Function.update_self mapName value bpf.bytes16

/-- A write to one map does not show in the others. -/
theorem holds_apply_of_ne (bpf : Bpf) (h : w.mapName ≠ write.mapName) :
    w.Holds (write.apply bpf) ↔ w.Holds bpf := by
  rcases write with ⟨mapName, value⟩ | ⟨mapName, value⟩ <;>
    rcases w with ⟨mapName', value'⟩ | ⟨mapName', value'⟩ <;>
    simp only [MapWrite.mapName] at h <;>
    simp [MapWrite.Holds, MapWrite.apply, Function.update_of_ne h]

/-- Maps that no write names keep what they hold. -/
theorem holds_writeMaps_of_notMem (id : String) (env : XdpEnv) (bpf : Bpf)
    {writes : List MapWrite} (h : w.mapName ∉ writes.map MapWrite.mapName) :
    w.Holds (writeMaps id env writes bpf).2 ↔ w.Holds bpf := by
  induction writes generalizing bpf with
  | nil => exact Iff.rfl
  | cons write rest ih =>
    rw [List.map_cons, List.mem_cons, not_or] at h
    rw [writeMaps, MapWrite.run_eq]
    by_cases hok : env.access write.mapName = .ok
    · rw [setMap_ok hok]
      exact (ih _ h.2).trans (holds_apply_of_ne bpf h.1)
    · obtain ⟨e, he⟩ := setMap_refused id bpf hok
      rw [he]

/-- **What the setup leaves in the maps** is the configuration exactly if it settles. -/
theorem writeMaps_holds_iff {writes : List MapWrite}
    (hnodup : (writes.map MapWrite.mapName).Nodup)
    (hzero : ∀ w ∈ writes, w.Holds bpf ↔ w.IsZero) :
    (∀ w ∈ writes, w.Holds (writeMaps id env writes bpf).2) ↔ Settles env writes := by
  induction writes generalizing bpf with
  | nil => simp [Settles]
  | cons write rest ih =>
    rw [List.map_cons, List.nodup_cons] at hnodup
    rw [writeMaps, MapWrite.run_eq, Settles]
    by_cases hok : env.access write.mapName = .ok
    · rw [setMap_ok hok, if_pos hok]
      have hrest : ∀ w ∈ rest, w.Holds (write.apply bpf) ↔ w.IsZero := by
        intro w hw
        have hne : w.mapName ≠ write.mapName :=
          fun heq => hnodup.1 (heq ▸ List.mem_map_of_mem hw)
        exact (holds_apply_of_ne bpf hne).trans (hzero w (List.mem_cons_of_mem _ hw))
      have hself := (holds_writeMaps_of_notMem id env (write.apply bpf) hnodup.1).mpr
        (holds_apply_self bpf write)
      rw [List.forall_mem_cons, ← ih hnodup.2 hrest]
      exact ⟨And.right, fun h => ⟨hself, h⟩⟩
    · obtain ⟨e, he⟩ := setMap_refused id bpf hok
      rw [he, if_neg hok]
      exact forall₂_congr hzero

theorem settles_of_access_ok (henv : ∀ mapName, env.access mapName = .ok)
    (writes : List MapWrite) : Settles env writes := by
  induction writes with
  | nil => trivial
  | cons write rest ih =>
    rw [Settles, if_pos (henv _)]
    exact ih

theorem settles_of_writeMaps_ok {writes : List MapWrite} {bpf' : Bpf}
    (h : writeMaps id env writes bpf = (.ok (), bpf')) : Settles env writes := by
  induction writes generalizing bpf with
  | nil => trivial
  | cons write rest ih =>
    rw [writeMaps, MapWrite.run_eq] at h
    rw [Settles]
    by_cases hok : env.access write.mapName = .ok
    · rw [setMap_ok hok] at h
      rw [if_pos hok]
      exact ih h
    · obtain ⟨e, he⟩ := setMap_refused id bpf hok
      rw [he] at h
      cases h

/-! ## Calls on the shared machine -/

/-- A call on an injector, with what it meets outside the process. -/
inductive XdpCall where
  | arm (env : XdpEnv)
  | disarm (env : XdpEnv)

namespace XdpFault

variable {fault : XdpFault} {hook : XdpHook}

def call (fault : XdpFault) (hook : XdpHook) : XdpCall → Except HarnessError Unit × XdpHook
  | .arm env => fault.arm env hook
  | .disarm env => fault.disarm env hook

/-- The maps are distinct, and `arm` and `disarm` write none of the configuration. -/
structure WellFormed (fault : XdpFault) : Prop where
  nodup : (fault.config.map MapWrite.mapName).Nodup
  switch : fault.switchMap ∉ fault.config.map MapWrite.mapName

/-- If the object loads and attaches, its configuration settles. -/
def SetsUp (fault : XdpFault) (env : XdpEnv) : Prop :=
  ∀ bpf, fault.loadAndAttach env = .ok bpf → Settles env fault.config

/-- A loaded object holds the configuration. -/
def Configured (fault : XdpFault) (hook : XdpHook) : Prop :=
  ∀ bpf, hook.bpf = some bpf → ∀ w ∈ fault.config, w.Holds bpf

theorem loadAndAttach_eq_ok {bpf : Bpf} (h : fault.loadAndAttach env = .ok bpf) :
    bpf = .zeroed := by
  unfold loadAndAttach at h
  repeat' split at h
  all_goals cases h
  rfl

/-- The switch is not part of the configuration. -/
theorem WellFormed.holds_setU32Map (h : fault.WellFormed) (hw : w ∈ fault.config) (bpf : Bpf)
    (value : UInt32) (env : XdpEnv) :
    w.Holds (setU32Map bpf fault.id fault.switchMap value env).2 ↔ w.Holds bpf := by
  have hne : w.mapName ≠ (MapWrite.u32 fault.switchMap value).mapName :=
    fun heq => h.switch (by rw [← show w.mapName = fault.switchMap from heq]
                            exact List.mem_map_of_mem hw)
  unfold setU32Map
  by_cases hok : env.access (MapWrite.u32 fault.switchMap value).mapName = .ok
  · rw [setMap_ok hok]
    exact holds_apply_of_ne bpf hne
  · obtain ⟨e, he⟩ := setMap_refused fault.id bpf hok
    rw [he]

theorem WellFormed.holds_setup_iff (h : fault.WellFormed) :
    (∀ w ∈ fault.config, w.Holds (writeMaps fault.id env fault.config .zeroed).2) ↔
      Settles env fault.config :=
  writeMaps_holds_iff h.nodup fun _ _ => Iff.rfl

/-- `ensure_loaded` leaves nothing, the object it found, or a fresh one with whatever its
configuration writes left; the object it returns is the one it leaves. -/
theorem ensureLoaded_cases (fault : XdpFault) (env : XdpEnv) (bpf : Option Bpf) :
    (∃ e, fault.ensureLoaded env bpf = (.error e, none)) ∨
    ∃ loaded res, fault.ensureLoaded env bpf = (res, some loaded) ∧
      (∀ returned, res = .ok returned → returned = loaded) ∧
      (bpf = some loaded ∨ bpf = none ∧ fault.loadAndAttach env = .ok .zeroed ∧
        loaded = (writeMaps fault.id env fault.config .zeroed).2) := by
  rcases bpf with _ | loaded
  · rcases hl : fault.loadAndAttach env with e | fresh
    · exact Or.inl ⟨e, by simp [ensureLoaded, hl]⟩
    · obtain rfl := loadAndAttach_eq_ok hl
      rcases hw : writeMaps fault.id env fault.config .zeroed with ⟨e | ⟨⟩, written⟩
      · exact Or.inr ⟨written, .error e, by simp [ensureLoaded, hl, hw],
          (fun _ h => by cases h), Or.inr ⟨rfl, rfl, rfl⟩⟩
      · exact Or.inr ⟨written, .ok written, by simp [ensureLoaded, hl, hw],
          fun _ h => (Except.ok.inj h).symm, Or.inr ⟨rfl, rfl, rfl⟩⟩
  · exact Or.inr ⟨loaded, .ok loaded, rfl, fun _ h => (Except.ok.inj h).symm, Or.inl rfl⟩

/-- What `ensure_loaded` leaves is configured, if what it found was and the call sets up. -/
theorem Configured.ensureLoaded (hf : fault.WellFormed) (h : fault.Configured hook)
    (hsetup : hook.bpf = none → fault.SetsUp env) {res : Except HarnessError Bpf} {loaded : Bpf}
    (hens : fault.ensureLoaded env hook.bpf = (res, some loaded)) :
    ∀ w ∈ fault.config, w.Holds loaded := by
  rcases ensureLoaded_cases fault env hook.bpf with
    ⟨e, he⟩ | ⟨loaded', res', hens', -, hfound | ⟨hnone, hl, hwritten⟩⟩
  · rw [he] at hens
    cases hens
  · rw [hens'] at hens
    cases hens
    exact h loaded hfound
  · rw [hens'] at hens
    cases hens
    rw [hwritten]
    exact hf.holds_setup_iff.mpr (hsetup hnone _ hl)

/-- The switch leaves a configured object configured, however its write ends. -/
theorem WellFormed.configured_switch (hf : fault.WellFormed) {loaded : Bpf}
    (h : ∀ w ∈ fault.config, w.Holds loaded) (value : UInt32) (env : XdpEnv) (armed : Bool) :
    fault.Configured ⟨some (setU32Map loaded fault.id fault.switchMap value env).2, armed⟩ := by
  intro bpf hbpf w hw
  cases hbpf
  exact (hf.holds_setU32Map hw loaded value env).mpr (h w hw)

theorem Configured.arm (hf : fault.WellFormed) (h : fault.Configured hook)
    (hsetup : hook.bpf = none → fault.SetsUp env) : fault.Configured (fault.arm env hook).2 := by
  unfold XdpFault.arm
  rcases ensureLoaded_cases fault env hook.bpf with ⟨e, he⟩ | ⟨loaded, res, hens, hres, -⟩
  · rw [he]
    exact fun bpf hbpf => by cases hbpf
  · have hloaded := Configured.ensureLoaded hf h hsetup hens
    rw [hens]
    rcases res with e | returned
    · intro bpf hbpf
      cases hbpf
      exact hloaded
    · obtain rfl := hres returned rfl
      have hswitch := hf.configured_switch hloaded fault.switchValue env
      dsimp only
      rcases hs : setU32Map returned fault.id fault.switchMap fault.switchValue env with
        ⟨e | ⟨⟩, bpf⟩ <;> rw [hs] at hswitch
      · exact hswitch hook.armed
      · exact hswitch true

theorem Configured.disarm (hf : fault.WellFormed) (h : fault.Configured hook) (env : XdpEnv) :
    fault.Configured (fault.disarm env hook).2 := by
  unfold XdpFault.disarm
  rcases hloaded : hook.bpf with _ | loaded
  · exact fun bpf hbpf => by cases hbpf
  · have hswitch := hf.configured_switch (h loaded hloaded) 0 env
    dsimp only
    rcases hs : setU32Map loaded fault.id fault.switchMap 0 env with ⟨e | ⟨⟩, bpf⟩ <;>
      rw [hs] at hswitch
    · exact hswitch hook.armed
    · exact hswitch false

/-! ## Runs of calls -/

/-- The state after a list of calls. -/
def after (fault : XdpFault) (calls : List XdpCall) (hook : XdpHook) : XdpHook :=
  calls.foldl (fun hook c => (fault.call hook c).2) hook

/-- Every `arm` that finds nothing loaded sets up. -/
def SetupsSettle (fault : XdpFault) (calls : List XdpCall) (hook : XdpHook) : Prop :=
  ∀ pre env post, calls = pre ++ .arm env :: post → (fault.after pre hook).bpf = none →
    fault.SetsUp env

/-- **A whole run**: while setups settle, the loaded object is configured. -/
theorem Configured.after (hf : fault.WellFormed) (h : fault.Configured hook)
    {calls : List XdpCall} (hsettle : fault.SetupsSettle calls hook) :
    fault.Configured (fault.after calls hook) := by
  induction calls generalizing hook with
  | nil => exact h
  | cons c calls ih =>
    have hrest : fault.SetupsSettle calls (fault.call hook c).2 := by
      rintro pre env post rfl hnone
      exact hsettle (c :: pre) env post rfl hnone
    rcases c with env | env
    · exact ih (h.arm hf fun hnone => hsettle [] env calls rfl hnone) hrest
    · exact ih (h.disarm hf env) hrest

/-- An `arm` that returns `Ok` leaves an object loaded. -/
theorem exists_bpf_of_arm_ok (h : (fault.arm env hook).1 = .ok ()) :
    ∃ bpf, (fault.arm env hook).2.bpf = some bpf := by
  rcases fault.armed_arm env hook with ⟨bpf, harm⟩ | ⟨e, bpf, harm⟩
  · exact ⟨bpf, by rw [harm]⟩
  · rw [harm] at h
    cases h

theorem SetupsSettle.of_append {calls pre post : List XdpCall} {env : XdpEnv}
    (h : fault.SetupsSettle calls hook) (hcalls : calls = pre ++ .arm env :: post) :
    fault.SetupsSettle pre hook := by
  rintro pre' env' post' rfl hnone
  refine h pre' env' (post' ++ .arm env :: post) ?_ hnone
  rw [hcalls]
  simp

/-- Any `arm` of such a run that returns `Ok` finds the configuration in the maps. -/
theorem WellFormed.holds_of_arm_ok (hf : fault.WellFormed) (hfresh : hook.bpf = none)
    {calls pre post : List XdpCall} {env : XdpEnv} (hsettle : fault.SetupsSettle calls hook)
    (hcalls : calls = pre ++ .arm env :: post)
    (hok : (fault.arm env (fault.after pre hook)).1 = .ok ()) :
    ∃ bpf, (fault.arm env (fault.after pre hook)).2.bpf = some bpf ∧
      ∀ w ∈ fault.config, w.Holds bpf := by
  have hstart : fault.Configured hook := fun bpf hbpf => by rw [hfresh] at hbpf; cases hbpf
  have hpre := hstart.after hf (hsettle.of_append hcalls)
  obtain ⟨bpf, hbpf⟩ := exists_bpf_of_arm_ok hok
  exact ⟨bpf, hbpf, hpre.arm hf (fun hnone => hsettle pre env post hcalls hnone) bpf hbpf⟩

/-- A setup that does not settle leaves an object that is not configured. -/
theorem not_holds_of_not_setsUp (hf : fault.WellFormed) (hnone : hook.bpf = none)
    (hsetup : ¬ fault.SetsUp env) :
    ∃ bpf, (fault.arm env hook).2.bpf = some bpf ∧ ¬ ∀ w ∈ fault.config, w.Holds bpf := by
  have hfails : ∃ fresh, fault.loadAndAttach env = .ok fresh ∧ ¬ Settles env fault.config := by
    by_contra hno
    exact hsetup fun fresh hl => by_contra fun hs => hno ⟨fresh, hl, hs⟩
  obtain ⟨fresh, hl, hsettles⟩ := hfails
  obtain rfl := loadAndAttach_eq_ok hl
  have hnot := fun h => hsettles (hf.holds_setup_iff.mp h)
  rcases hw : writeMaps fault.id env fault.config .zeroed with ⟨e | ⟨⟩, written⟩
  · refine ⟨written, ?_, by rw [hw] at hnot; exact hnot⟩
    simp [XdpFault.arm, ensureLoaded, hnone, hl, hw]
  · exact absurd (settles_of_writeMaps_ok hw) hsettles

/-- The next `arm` then succeeds as soon as the switch can be written, and nothing else is
written any more. -/
theorem WellFormed.misconfigured_retry (hf : fault.WellFormed) (hnone : hook.bpf = none)
    (hsetup : ¬ fault.SetsUp env) {retry : XdpEnv}
    (hretry : retry.access fault.switchMap = .ok) :
    (fault.arm retry (fault.arm env hook).2).1 = .ok () ∧
      ¬ ∃ bpf, (fault.arm retry (fault.arm env hook).2).2.bpf = some bpf ∧
        ∀ w ∈ fault.config, w.Holds bpf := by
  obtain ⟨bpf, hbpf, hnot⟩ := not_holds_of_not_setsUp hf hnone hsetup
  have hswitch : setU32Map bpf fault.id fault.switchMap fault.switchValue retry =
      (.ok (), (MapWrite.u32 fault.switchMap fault.switchValue).apply bpf) := setMap_ok hretry
  have harm : fault.arm retry (fault.arm env hook).2 = (.ok (),
      ⟨some ((MapWrite.u32 fault.switchMap fault.switchValue).apply bpf), true⟩) := by
    unfold XdpFault.arm at hbpf ⊢
    rw [hbpf]
    simp only [ensureLoaded, hswitch]
  rw [harm]
  refine ⟨rfl, ?_⟩
  rintro ⟨bpf', hbpf', hall⟩
  cases hbpf'
  refine hnot fun w hw => ?_
  have hkeep := hf.holds_setU32Map hw bpf fault.switchValue retry
  rw [hswitch] at hkeep
  exact hkeep.mp (hall w hw)

end XdpFault

/-! ## The two injectors that have a configuration -/

namespace XdpPartitionInjector

def call (self : XdpPartitionInjector) (host : Endian) :
    XdpCall → Except HarnessError Unit × XdpPartitionInjector
  | .arm env => self.arm host env
  | .disarm env => self.disarm host env

def after (self : XdpPartitionInjector) (host : Endian) (calls : List XdpCall) :
    XdpPartitionInjector :=
  calls.foldl (fun self c => (self.call host c).2) self

/-- The maps of the program hold the peer's address, in the map of its family, and port. -/
def Configured (self : XdpPartitionInjector) (host : Endian) : Prop :=
  ∃ bpf, self.bpf = some bpf ∧
    (match self.srcIp with
      | .v4 octets => bpf.u32 SRC_IP_MAP = fromNeBytes host octets
      | .v6 octets => bpf.bytes16 SRC_IP6_MAP = octets) ∧
    bpf.u32 SRC_PORT_MAP = self.srcPort.toUInt32

theorem wellFormed_fault (self : XdpPartitionInjector) (host : Endian) :
    (self.fault host).WellFormed := by
  rcases hip : self.srcIp with octets | octets <;> constructor <;>
    simp [fault, hip, addressWrite, MapWrite.mapName, ENABLED_MAP, SRC_IP_MAP, SRC_IP6_MAP,
      SRC_PORT_MAP]

theorem after_eq (self : XdpPartitionInjector) (host : Endian) (calls : List XdpCall) :
    self.after host calls =
      { self with toXdpHook := (self.fault host).after calls self.toXdpHook } := by
  induction calls generalizing self with
  | nil => rfl
  | cons c calls ih =>
    show (self.call host c).2.after host calls = _
    rw [ih]
    rcases c with env | env <;> rfl

theorem configured_iff (self : XdpPartitionInjector) (host : Endian) :
    self.Configured host ↔
      ∃ bpf, self.bpf = some bpf ∧ ∀ w ∈ (self.fault host).config, w.Holds bpf := by
  unfold Configured fault
  rcases hip : self.srcIp with octets | octets <;>
    simp [addressWrite, MapWrite.Holds]

end XdpPartitionInjector

namespace XdpCorruptionInjector

def call (self : XdpCorruptionInjector) :
    XdpCall → Except HarnessError Unit × XdpCorruptionInjector
  | .arm env => self.arm env
  | .disarm env => self.disarm env

def after (self : XdpCorruptionInjector) (calls : List XdpCall) : XdpCorruptionInjector :=
  calls.foldl (fun self c => (self.call c).2) self

/-- The maps of the program hold the offset and the mask. -/
def Configured (self : XdpCorruptionInjector) : Prop :=
  ∃ bpf, self.bpf = some bpf ∧ bpf.u32 OFFSET_MAP = self.offset ∧
    bpf.u32 MASK_MAP = self.mask.toUInt32

theorem wellFormed_fault (self : XdpCorruptionInjector) : self.fault.WellFormed := by
  constructor <;> simp [fault, MapWrite.mapName, OFFSET_MAP, MASK_MAP]

theorem after_eq (self : XdpCorruptionInjector) (calls : List XdpCall) :
    self.after calls = { self with toXdpHook := self.fault.after calls self.toXdpHook } := by
  induction calls generalizing self with
  | nil => rfl
  | cons c calls ih =>
    show (self.call c).2.after calls = _
    rw [ih]
    rcases c with env | env <;> rfl

theorem configured_iff (self : XdpCorruptionInjector) :
    self.Configured ↔
      ∃ bpf, self.bpf = some bpf ∧ ∀ w ∈ self.fault.config, w.Holds bpf := by
  simp [Configured, fault, MapWrite.Holds]

end XdpCorruptionInjector

/-- **When an `arm` that returns `Ok` means the configured fault.** For both injectors, in any
sequence of calls in which every `arm` that finds nothing loaded sets up, each `arm` that returns
`Ok` finds the configuration in the maps. And that is what it takes: after a setup that does not
settle, the next `arm` whose switch can be written returns `Ok` with something else there. -/
theorem arm_ok_configured (host : Endian) (id iface : String) (srcIp : IpAddr) (srcPort : UInt16)
    (corruptEveryN offset : UInt32) (mask : UInt8) :
    let partition := XdpPartitionInjector.new id iface srcIp srcPort
    let corruption := XdpCorruptionInjector.new id iface corruptEveryN offset mask
    (∀ calls, (partition.fault host).SetupsSettle calls partition.toXdpHook →
      ∀ pre env post, calls = pre ++ .arm env :: post →
        ((partition.after host pre).arm host env).1 = .ok () →
        ((partition.after host pre).arm host env).2.Configured host) ∧
    (∀ calls, corruption.fault.SetupsSettle calls corruption.toXdpHook →
      ∀ pre env post, calls = pre ++ .arm env :: post →
        ((corruption.after pre).arm env).1 = .ok () →
        ((corruption.after pre).arm env).2.Configured) ∧
    (∀ pre env retry, (partition.after host pre).bpf = none →
      ¬ (partition.fault host).SetsUp env →
      retry.access XdpPartitionInjector.ENABLED_MAP = .ok →
        ((((partition.after host pre).arm host env).2).arm host retry).1 = .ok () ∧
        ¬ ((((partition.after host pre).arm host env).2).arm host retry).2.Configured host) ∧
    (∀ pre env retry, (corruption.after pre).bpf = none → ¬ corruption.fault.SetsUp env →
      retry.access "corrupt_every_n" = .ok →
        ((((corruption.after pre).arm env).2).arm retry).1 = .ok () ∧
        ¬ ((((corruption.after pre).arm env).2).arm retry).2.Configured) := by
  intro partition corruption
  have hp := partition.wellFormed_fault host
  have hc := corruption.wellFormed_fault
  refine ⟨?_, ?_, ?_, ?_⟩
  · intro calls hsettle pre env post hcalls hok
    rw [partition.after_eq] at hok ⊢
    rw [XdpPartitionInjector.configured_iff]
    exact hp.holds_of_arm_ok rfl hsettle hcalls hok
  · intro calls hsettle pre env post hcalls hok
    rw [corruption.after_eq] at hok ⊢
    rw [XdpCorruptionInjector.configured_iff]
    exact hc.holds_of_arm_ok rfl hsettle hcalls hok
  · intro pre env retry hnone hsetup hretry
    rw [partition.after_eq] at hnone ⊢
    rw [XdpPartitionInjector.configured_iff]
    exact hp.misconfigured_retry hnone hsetup hretry
  · intro pre env retry hnone hsetup hretry
    rw [corruption.after_eq] at hnone ⊢
    rw [XdpCorruptionInjector.configured_iff]
    exact hc.misconfigured_retry hnone hsetup hretry

/-- Everything outside the process works. -/
def XdpEnv.clear : XdpEnv :=
  ⟨.ok (), fun _ => some (.ok ()), .ok (), fun _ => .ok (), fun _ => .ok⟩

/-- The program cannot be attached. -/
def XdpEnv.unattachable : XdpEnv := { XdpEnv.clear with attach := fun _ => .error "EBUSY" }

/-- A first `arm` that cannot attach, one that can, a `disarm`, and another `arm`. -/
def retriedCalls : List XdpCall := [.arm .unattachable, .arm .clear, .disarm .clear, .arm .clear]

/-- After the failed `arm` both of the others return `Ok` with the configured peer. -/
theorem arm_ok_configured_retried :
    let peer := XdpPartitionInjector.new "peer" "eth0" (.v4 #v[10, 0, 0, 1]) 4000
    (peer.arm .little .unattachable).1 = .error (.armFailed "peer" "EBUSY") ∧
      ∀ n, n = 1 ∨ n = 3 → ((peer.after .little (retriedCalls.take n)).arm .little .clear).1 =
          .ok () ∧
        ((peer.after .little (retriedCalls.take n)).arm .little .clear).2.Configured .little := by
  intro peer
  have hsettle : (peer.fault .little).SetupsSettle retriedCalls peer.toXdpHook := by
    intro pre env post hcalls _ bpf _
    have hmem : XdpCall.arm env ∈ retriedCalls := by
      rw [hcalls]
      exact List.mem_append_right pre List.mem_cons_self
    have henv : env = .unattachable ∨ env = .clear := by simpa [retriedCalls] using hmem
    refine settles_of_access_ok ?_ _
    rcases henv with rfl | rfl <;> exact fun _ => rfl
  have hconfigured := (arm_ok_configured .little "peer" "eth0" (.v4 #v[10, 0, 0, 1]) 4000 0 0 0).1
    retriedCalls hsettle
  refine ⟨rfl, ?_⟩
  rintro n (rfl | rfl)
  · exact ⟨rfl, hconfigured [.arm .unattachable] .clear [.disarm .clear, .arm .clear] rfl rfl⟩
  · exact ⟨rfl, hconfigured [.arm .unattachable, .arm .clear, .disarm .clear] .clear [] rfl rfl⟩

/-- The address map refuses the first `arm`; the second one returns `Ok` with no address there,
so the partition is one from the unspecified address. -/
theorem rearm_ok_without_address :
    let refused : XdpEnv := { XdpEnv.clear with
      access := fun mapName => if mapName = "partition_src_ip" then .set "EPERM" else .ok }
    let first := (XdpPartitionInjector.new "peer" "eth0" (.v4 #v[10, 0, 0, 1]) 4000).arm
      .little refused
    first.1 = .error (.armFailed "peer" "EPERM") ∧ (first.2.arm .little .clear).1 = .ok () ∧
      ¬ (first.2.arm .little .clear).2.Configured .little := by
  refine ⟨rfl, rfl, ?_⟩
  rintro ⟨bpf, hbpf, haddress, -⟩
  cases hbpf
  have hzero : (0 : UInt32) = fromNeBytes .little #v[10, 0, 0, 1] := haddress
  exact absurd hzero (by decide)

end Blackswan.Kernel
