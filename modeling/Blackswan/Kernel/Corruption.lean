import Blackswan.Kernel.Partition
import Blackswan.Kernel.Switch
import Blackswan.Lib.Machine
import Blackswan.Lib.Words

/-!
# Corrupting frames

The program `xdp_corrupt` and its injector as one machine, which frames and calls of `arm` and
`disarm` reach in any order.

1. `corrupted` says what is to become of the `i`-th frame, and `xdpCorrupt_on` that the program does
   this, inside of the frame.
2. `Exact` is the invariant: the maps hold the configuration, `corrupt_every_n` tells whether the
   injector is armed, and the frames seen while armed are numbered by `packet_count`.
3. `Exact.step` shows that every event keeps it as long as the counter does not wrap around, and
   `corrupts_exactly` reads the pattern off it for whole runs.
-/

namespace Blackswan.Kernel

open Lib Lib.Outcome

/-! ## The program -/

def XdpCorruptionInjector.EVERY_N_MAP : String := "corrupt_every_n"

/-- `xdp_corrupt`: its verdict, and the frame and `packet_count` as it leaves them. Entry 0 of an
array map always exists, so no lookup returns `NULL`. -/
def xdpCorrupt (maps : Bpf) (count : UInt64) (frame : Frame) : Xdp (XdpAction × Frame × UInt64) :=
  let n := maps.u32 XdpCorruptionInjector.EVERY_N_MAP
  if n = 0 then .ok (.pass, frame, count)
  else
    let c := count + 1
    if c % n.toUInt64 ≠ 0 then .ok (.pass, frame, c)
    else
      let off := (maps.u32 XdpCorruptionInjector.OFFSET_MAP &&& 0xFFF).toNat
      if off + 1 > frame.length then .ok (.pass, frame, c)
      else
        let mask := (maps.u32 XdpCorruptionInjector.MASK_MAP).toUInt8
        (load8 frame off).bind fun byte =>
          (store8 frame off (byte ^^^ mask)).map fun frame => (.pass, frame, c)

section
variable {maps : Bpf} {N offset : UInt32} {mask : UInt8} {count : UInt64} {frame : Frame}

/-- What the `i`-th frame becomes. -/
def corrupted (N offset : UInt32) (mask : UInt8) (i : ℕ) (frame : Frame) : Frame :=
  if N.toNat ∣ i ∧ offset.toNat % 4096 < frame.length then
    frame.modify (offset.toNat % 4096) (· ^^^ mask)
  else frame

theorem length_corrupted (i : ℕ) : (corrupted N offset mask i frame).length = frame.length := by
  unfold corrupted
  split_ifs
  · exact List.length_modify _ _ _
  · rfl

/-- One byte is changed, and every other one is as it was. -/
theorem getElem?_corrupted {i : ℕ} (h : N.toNat ∣ i ∧ offset.toNat % 4096 < frame.length) (k : ℕ) :
    (corrupted N offset mask i frame)[k]? =
      if k = offset.toNat % 4096 then frame[k]?.map (· ^^^ mask) else frame[k]? := by
  rw [corrupted, if_pos h, List.getElem?_modify]
  by_cases hk : k = offset.toNat % 4096
  · simp only [if_pos hk, if_pos hk.symm]
    rfl
  · simp only [if_neg hk, if_neg (Ne.symm hk)]
    exact id_map _

theorem toNat_and_offset (offset : UInt32) : (offset &&& 0xFFF).toNat = offset.toNat % 4096 := by
  rw [UInt32.toNat_and]
  exact Nat.and_two_pow_sub_one_eq_mod offset.toNat 12

theorem xdpCorrupt_off (h : maps.u32 XdpCorruptionInjector.EVERY_N_MAP = 0) :
    xdpCorrupt maps count frame = .ok (.pass, frame, count) := by
  unfold xdpCorrupt
  exact if_pos h

/-- A byte of the frame is read and written back. -/
theorem load8_bind_store8 {α : Type} {off : ℕ} (h : off < frame.length) (f : Frame → α) :
    ((load8 frame off).bind fun byte => (store8 frame off (byte ^^^ mask)).map f : Xdp α) =
      .ok (f (frame.modify off (· ^^^ mask))) := by
  rw [load8_of_lt h, ok_bind, store8, if_pos h, map_ok, List.modify_eq_set,
    List.getD_eq_getElem?_getD]
  rfl

/-- **The program** touches no byte outside of the frame, whatever its maps hold, and the frame
becomes what it is to become. -/
theorem xdpCorrupt_on (h : maps.u32 XdpCorruptionInjector.EVERY_N_MAP ≠ 0) :
    xdpCorrupt maps count frame =
      .ok (.pass, corrupted (maps.u32 XdpCorruptionInjector.EVERY_N_MAP)
        (maps.u32 XdpCorruptionInjector.OFFSET_MAP)
        (maps.u32 XdpCorruptionInjector.MASK_MAP).toUInt8 (count + 1).toNat frame, count + 1) := by
  unfold xdpCorrupt corrupted
  dsimp only
  generalize maps.u32 XdpCorruptionInjector.EVERY_N_MAP = N at *
  generalize maps.u32 XdpCorruptionInjector.OFFSET_MAP = offset
  have hdvd := mod_toUInt64_eq_zero_iff N (count + 1)
  rw [toNat_and_offset, if_neg h]
  by_cases hturn : (count + 1) % N.toUInt64 = 0
  · rw [if_neg (not_not.mpr hturn)]
    by_cases hlen : offset.toNat % 4096 < frame.length
    · rw [if_neg (by omega), if_pos ⟨hdvd.mp hturn, hlen⟩, load8_bind_store8 hlen]
    · rw [if_pos (by omega), if_neg fun hboth => hlen hboth.2]
  · rw [if_pos hturn, if_neg fun hboth => hturn (hdvd.mpr hboth.1)]

end

/-! ## The machine -/

/-- A frame that has been dealt with: whether the injector was armed when it arrived, the frame as
it arrived, the verdict, and the frame as it was passed on. -/
structure CorruptDone where
  armed : Bool
  input : Frame
  action : XdpAction
  output : Frame
  deriving DecidableEq, Repr

/-- A frame arrives, or a call on the injector. -/
inductive CorruptEvent where
  | frame (bytes : Frame)
  | arm (env : XdpEnv)
  | disarm (env : XdpEnv)

def CorruptEvent.frame? : CorruptEvent → Option Frame
  | .frame bytes => some bytes
  | _ => none

theorem CorruptEvent.filterMap_frame?_cons (e : CorruptEvent) (events : List CorruptEvent) :
    (e :: events).filterMap frame? = e.frame?.toList ++ events.filterMap frame? := by
  cases e <;> rfl

/-- No map refuses a write. Loading and attaching the program may still fail. -/
def CorruptEvent.WritesSucceed : CorruptEvent → Prop
  | .frame _ => True
  | .arm env => ∀ mapName, env.access mapName = .ok
  | .disarm env => ∀ mapName, env.access mapName = .ok

/-- The injector with its maps, the map `packet_count`, and the frames so far. -/
structure CorruptSystem where
  injector : XdpCorruptionInjector
  packetCount : UInt64
  log : List CorruptDone

namespace CorruptSystem

def new (id iface : String) (corruptEveryN offset : UInt32) (mask : UInt8) : CorruptSystem :=
  ⟨.new id iface corruptEveryN offset mask, 0, []⟩

/-- Without a program attached the frame passes. Nothing if the program touches a byte outside of
the frame. -/
def receive (s : CorruptSystem) (frame : Frame) : Option CorruptSystem :=
  match s.injector.bpf with
  | none => some { s with log := s.log ++ [⟨s.injector.armed, frame, .pass, frame⟩] }
  | some bpf =>
    match xdpCorrupt bpf s.packetCount frame with
    | .ok (action, output, count) =>
      some { s with
        packetCount := count, log := s.log ++ [⟨s.injector.armed, frame, action, output⟩] }
    | _ => none

def step (s : CorruptSystem) : CorruptEvent → Option CorruptSystem
  | .frame bytes => s.receive bytes
  | .arm env => some { s with injector := (s.injector.arm env).2 }
  | .disarm env => some { s with injector := (s.injector.disarm env).2 }

/-! ## The log -/

/-- The frames that were seen while armed, in order. -/
def armedLog (log : List CorruptDone) : List CorruptDone := log.filter CorruptDone.armed

/-- Every frame is passed on; those seen while disarmed as they are, those seen while armed
corrupted by their number. -/
structure LogExact (N offset : UInt32) (mask : UInt8) (log : List CorruptDone) : Prop where
  pass : ∀ p ∈ log, p.action = .pass
  disarmed : ∀ p ∈ log, p.armed = false → p.output = p.input
  armed : ∀ i p, (armedLog log)[i]? = some p →
    p.output = corrupted N offset mask (i + 1) p.input

section
variable {N offset : UInt32} {mask : UInt8} {log : List CorruptDone}

theorem armedLog_append (log : List CorruptDone) (p : CorruptDone) :
    armedLog (log ++ [p]) = if p.armed then armedLog log ++ [p] else armedLog log := by
  rw [armedLog, List.filter_append]
  cases harmed : p.armed <;> simp [harmed, armedLog]

theorem logExact_nil : LogExact N offset mask [] := ⟨nofun, nofun, nofun⟩

theorem LogExact.append (h : LogExact N offset mask log) {p : CorruptDone}
    (hpass : p.action = .pass) (hdisarmed : p.armed = false → p.output = p.input)
    (harmed : p.armed = true →
      p.output = corrupted N offset mask ((armedLog log).length + 1) p.input) :
    LogExact N offset mask (log ++ [p]) where
  pass := by
    rw [List.forall_mem_append, List.forall_mem_singleton]
    exact ⟨h.pass, hpass⟩
  disarmed := by
    rw [List.forall_mem_append, List.forall_mem_singleton]
    exact ⟨h.disarmed, hdisarmed⟩
  armed := by
    intro i q hq
    rw [armedLog_append] at hq
    split_ifs at hq with hp
    · rw [List.getElem?_append] at hq
      split_ifs at hq with hi
      · exact h.armed i q hq
      · -- the last frame has the number after those before it
        obtain ⟨hzero, hlast⟩ := List.getElem?_eq_some_iff.mp hq
        rw [List.length_singleton] at hzero
        rw [List.getElem_singleton] at hlast
        rw [← hlast, show i = (armedLog log).length by omega]
        exact harmed hp
    · exact h.armed i q hq

theorem LogExact.length_output (h : LogExact N offset mask log) {p : CorruptDone} (hp : p ∈ log) :
    p.output.length = p.input.length := by
  cases harmed : p.armed with
  | false => rw [h.disarmed p hp harmed]
  | true =>
    obtain ⟨i, hi⟩ := List.mem_iff_getElem?.mp (List.mem_filter.mpr ⟨hp, harmed⟩)
    rw [h.armed i p hi, length_corrupted]

end

/-! ## The invariant -/

/-- The injector keeps its configuration, the maps hold it, the switch tells whether the injector
is armed, and the counter numbers the frames seen while armed. -/
structure Exact (N offset : UInt32) (mask : UInt8) (s : CorruptSystem) : Prop where
  config : s.injector.corruptEveryN = N ∧ s.injector.offset = offset ∧ s.injector.mask = mask
  switched : s.injector.fault.Switched s.injector.toXdpHook
  configured : s.injector.fault.Configured s.injector.toXdpHook
  counted : s.packetCount.toNat = (armedLog s.log).length
  log : LogExact N offset mask s.log

theorem exact_new (id iface : String) (N offset : UInt32) (mask : UInt8) :
    Exact N offset mask (new id iface N offset mask) where
  config := ⟨rfl, rfl, rfl⟩
  switched := rfl
  configured := nofun
  counted := rfl
  log := logExact_nil

section
variable {N offset : UInt32} {mask : UInt8} {s s' : CorruptSystem} {bpf : Bpf} {frame : Frame}

theorem Exact.switch (h : s.Exact N offset mask) :
    s.injector.fault.switch s.injector.toXdpHook = if s.injector.armed then N else 0 := by
  rw [← h.config.1]
  exact h.switched

/-- The offset and the mask are in the maps of an attached program. -/
theorem Exact.maps (h : s.Exact N offset mask) (hbpf : s.injector.bpf = some bpf) :
    bpf.u32 XdpCorruptionInjector.OFFSET_MAP = offset ∧
      (bpf.u32 XdpCorruptionInjector.MASK_MAP).toUInt8 = mask := by
  obtain ⟨-, rfl, rfl⟩ := h.config
  obtain ⟨bpf', hbpf', hoffset, hmask⟩ :=
    s.injector.configured_iff.mpr ⟨bpf, hbpf, h.configured bpf hbpf⟩
  obtain rfl := Option.some.inj (hbpf.symm.trans hbpf')
  rw [hmask, UInt8.toUInt8_toUInt32]
  exact ⟨hoffset, rfl⟩

/-- A frame that comes while the injector is disarmed. -/
theorem Exact.receive_disarmed (h : s.Exact N offset mask) (harmed : s.injector.armed = false) :
    s.receive frame = some { s with log := s.log ++ [⟨false, frame, .pass, frame⟩] } := by
  have hswitch := h.switch
  rw [harmed] at hswitch
  unfold receive
  cases hbpf : s.injector.bpf with
  | none => rw [harmed]
  | some bpf =>
    rw [XdpFault.switch, hbpf] at hswitch
    dsimp only
    rw [xdpCorrupt_off hswitch, harmed]

/-- A frame that comes while it is armed: the program is attached then. -/
theorem Exact.receive_armed (h : s.Exact N offset mask) (hN : N ≠ 0)
    (harmed : s.injector.armed = true) :
    s.receive frame = some { s with
      packetCount := s.packetCount + 1
      log := s.log ++ [⟨true, frame, .pass,
        corrupted N offset mask (s.packetCount + 1).toNat frame⟩] } := by
  have hswitch := h.switch
  rw [harmed] at hswitch
  unfold receive
  cases hbpf : s.injector.bpf with
  | none =>
    rw [XdpFault.switch, hbpf] at hswitch
    exact absurd hswitch.symm hN
  | some bpf =>
    rw [XdpFault.switch, hbpf] at hswitch
    have hn : bpf.u32 XdpCorruptionInjector.EVERY_N_MAP = N := hswitch
    obtain ⟨hoffset, hmask⟩ := h.maps hbpf
    dsimp only
    rw [xdpCorrupt_on (by rw [hn]; exact hN), hn, hoffset, hmask, harmed]

theorem Exact.receive (h : s.Exact N offset mask) (hN : N ≠ 0) (hroom : s.log.length + 1 < 2 ^ 64)
    (hs' : s.receive frame = some s') : s'.Exact N offset mask := by
  cases harmed : s.injector.armed with
  | false =>
    rw [h.receive_disarmed harmed] at hs'
    cases hs'
    refine ⟨h.config, h.switched, h.configured, ?_, h.log.append rfl (fun _ => rfl) nofun⟩
    rw [armedLog_append]
    exact h.counted
  | true =>
    have hle : (armedLog s.log).length ≤ s.log.length := List.length_filter_le _ _
    have hnext : (s.packetCount + 1).toNat = (armedLog s.log).length + 1 := by
      rw [← h.counted]
      exact toNat_add_one (by rw [h.counted]; omega)
    rw [h.receive_armed hN harmed, hnext] at hs'
    cases hs'
    refine ⟨h.config, h.switched, h.configured, ?_, h.log.append rfl nofun fun _ => rfl⟩
    rw [armedLog_append, if_pos rfl, List.length_append, List.length_singleton]
    exact hnext

/-- **One event** keeps the invariant, if the counter has room. -/
theorem Exact.step (h : s.Exact N offset mask) (hN : N ≠ 0) {e : CorruptEvent}
    (he : e.WritesSucceed) (hroom : s.log.length + e.frame?.toList.length < 2 ^ 64)
    (hs' : s.step e = some s') : s'.Exact N offset mask := by
  cases e with
  | frame bytes => exact h.receive hN hroom hs'
  | arm env =>
    cases hs'
    have hf := s.injector.wellFormed_fault
    exact ⟨h.config, h.switched.arm hf env,
      h.configured.arm hf fun _ _ _ => settles_of_access_ok he _, h.counted, h.log⟩
  | disarm env =>
    cases hs'
    exact ⟨h.config, h.switched.disarm env, h.configured.disarm s.injector.wellFormed_fault env,
      h.counted, h.log⟩

end

/-! ## Runs -/

section
variable {N offset : UInt32} {mask : UInt8} {s s' : CorruptSystem} {events : List CorruptEvent}

/-- The program finishes with every frame, whatever the maps hold, and the frame is logged. -/
theorem exists_receive (s : CorruptSystem) (frame : Frame) :
    ∃ s', s.receive frame = some s' ∧
      s'.log.map CorruptDone.input = s.log.map CorruptDone.input ++ [frame] := by
  unfold receive
  cases hbpf : s.injector.bpf with
  | none => exact ⟨_, rfl, by rw [List.map_append]; rfl⟩
  | some bpf =>
    by_cases hn : bpf.u32 XdpCorruptionInjector.EVERY_N_MAP = 0
    · dsimp only
      rw [xdpCorrupt_off hn]
      exact ⟨_, rfl, by rw [List.map_append]; rfl⟩
    · dsimp only
      rw [xdpCorrupt_on hn]
      exact ⟨_, rfl, by rw [List.map_append]; rfl⟩

theorem exists_step (s : CorruptSystem) (e : CorruptEvent) :
    ∃ s', s.step e = some s' ∧
      s'.log.map CorruptDone.input = s.log.map CorruptDone.input ++ e.frame?.toList := by
  cases e with
  | frame bytes => exact exists_receive s bytes
  | arm env => exact ⟨_, rfl, (List.append_nil _).symm⟩
  | disarm env => exact ⟨_, rfl, (List.append_nil _).symm⟩

/-- Every frame is dealt with, in the order of arrival. -/
theorem inputs_run (hrun : Lib.run step events s = some s') :
    s'.log.map CorruptDone.input =
      s.log.map CorruptDone.input ++ events.filterMap CorruptEvent.frame? := by
  induction events generalizing s with
  | nil =>
    cases hrun
    exact (List.append_nil _).symm
  | cons e events ih =>
    obtain ⟨mid, hmid, hrest⟩ := Lib.run_cons_eq_some hrun
    obtain ⟨mid', hmid', hinputs⟩ := exists_step s e
    obtain rfl := Option.some.inj (hmid.symm.trans hmid')
    rw [ih hrest, hinputs, List.append_assoc, ← CorruptEvent.filterMap_frame?_cons]

/-- **A whole run** keeps the invariant, with fewer than `2 ^ 64` frames. -/
theorem exact_run (hN : N ≠ 0) {id iface : String} (hwrites : ∀ e ∈ events, e.WritesSucceed)
    (hfew : (events.filterMap CorruptEvent.frame?).length < 2 ^ 64)
    (hrun : Lib.run step events (new id iface N offset mask) = some s) :
    s.Exact N offset mask := by
  have halong : Lib.Along step
      (fun s e => e.WritesSucceed ∧ s.log.length + e.frame?.toList.length < 2 ^ 64) events
      (new id iface N offset mask) := by
    rintro pre e post mid rfl hmid
    refine ⟨hwrites e (List.mem_append_right _ (List.mem_cons_self ..)), ?_⟩
    have hlen := congrArg List.length (inputs_run hmid)
    rw [List.length_map, List.length_append] at hlen
    rw [List.filterMap_append, CorruptEvent.filterMap_frame?_cons, List.length_append,
      List.length_append] at hfew
    have hstart : ((new id iface N offset mask).log.map CorruptDone.input).length = 0 := rfl
    omega
  exact halong.throughout (fun s e s' h hok hs' => h.step hN hok.1 hok.2 hs')
    (exact_new id iface N offset mask) events [] s (List.append_nil _).symm hrun

/-- **The pattern of corruption.** With fewer than `2 ^ 64` frames and no refused write, whatever
the order of frames and calls: the program touches no byte outside of a frame, so that the run goes
through; every frame is passed on with its length; those seen while disarmed are not changed and not
counted; and the `i`-th one seen while armed is changed only if `N` divides `i` and it is longer
than the offset modulo 4096, in that byte. -/
theorem corrupts_exactly (id iface : String) (N offset : UInt32) (mask : UInt8) (hN : N ≠ 0)
    (events : List CorruptEvent) (hwrites : ∀ e ∈ events, e.WritesSucceed)
    (hfew : (events.filterMap CorruptEvent.frame?).length < 2 ^ 64) :
    ∃ s, Lib.run step events (new id iface N offset mask) = some s ∧
      s.log.map CorruptDone.input = events.filterMap CorruptEvent.frame? ∧
      (∀ p ∈ s.log, p.action = .pass ∧ p.output.length = p.input.length) ∧
      (∀ p ∈ s.log, p.armed = false → p.output = p.input) ∧
      s.packetCount.toNat = (armedLog s.log).length ∧
      ∀ i p, (armedLog s.log)[i]? = some p →
        (¬ (N.toNat ∣ i + 1 ∧ offset.toNat % 4096 < p.input.length) → p.output = p.input) ∧
        (N.toNat ∣ i + 1 ∧ offset.toNat % 4096 < p.input.length → ∀ k, p.output[k]? =
          if k = offset.toNat % 4096 then p.input[k]?.map (· ^^^ mask) else p.input[k]?) := by
  obtain ⟨s, hrun⟩ := Lib.exists_run (fun s e => (exists_step s e).imp fun _ => And.left) events
    (new id iface N offset mask)
  have hexact := exact_run hN hwrites hfew hrun
  refine ⟨s, hrun, inputs_run hrun, fun p hp => ⟨hexact.log.pass p hp, hexact.log.length_output hp⟩,
    hexact.log.disarmed, hexact.counted, fun i p hp => ?_⟩
  rw [hexact.log.armed i p hp]
  exact ⟨fun hnot => if_neg hnot, fun hturn => getElem?_corrupted hturn⟩

end

/-- Every second frame, in the byte 1, as the offset 4097 counts. The frames that are seen while
armed come in two windows; of the two that are next in turn, one is too short. -/
theorem corrupts_exactly_two_windows :
    let events : List CorruptEvent := [.frame [1, 2], .arm .clear, .frame [3, 4], .frame [5, 6, 7],
      .disarm .clear, .frame [8, 9], .arm .clear, .frame [10, 11], .frame [12]]
    ∃ s, Lib.run step events (new "flip" "eth0" 2 4097 0xFF) = some s ∧
      s.packetCount.toNat = 4 ∧ s.log.map CorruptDone.output =
        [[1, 2], [3, 4], [5, 0xF9, 7], [8, 9], [10, 11], [12]] := by
  intro events
  obtain ⟨s, hrun, -, -, -, hcount, -⟩ := corrupts_exactly "flip" "eth0" 2 4097 0xFF (by decide)
    events (by simp [events, CorruptEvent.WritesSucceed, XdpEnv.clear]) (by decide)
  have hlog : (Lib.run step events (new "flip" "eth0" 2 4097 0xFF)).map (fun s =>
      ((armedLog s.log).length, s.log.map CorruptDone.output)) =
      some (4, [[1, 2], [3, 4], [5, 0xF9, 7], [8, 9], [10, 11], [12]]) := by decide
  rw [hrun] at hlog
  obtain ⟨hlength, houtput⟩ := Prod.mk.inj (Option.some.inj hlog)
  exact ⟨s, hrun, hcount.trans hlength, houtput⟩

end CorruptSystem

end Blackswan.Kernel
