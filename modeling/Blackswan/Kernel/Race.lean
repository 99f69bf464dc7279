import Mathlib.Data.Fintype.Card
import Blackswan.Kernel.Corruption
import Blackswan.Kernel.PacketLoss
import Blackswan.Lib.Machine
import Blackswan.Lib.Threads
import Blackswan.Lib.Tickets
import Blackswan.Lib.Words

/-!
# Calls that race with packets

`xdp_pktloss` and `xdp_corrupt` open with the same lines: they test `*n`, count the packet with an
atomic increment, and look at `c % *n`. The increment is a barrier, so `*n` is read again there. A
`disarm` that comes between the two reads leaves a packet that is counted and finds zero. In the
instruction set the remainder by zero is the number itself, as it is for `UInt64`, so that packet
passes even if its turn had come.

The machine has these lines on any number of CPUs and calls at any time, also while packets are in
flight. It keeps a log of the packets, and how many were counted and how often `disarm` was called.

1. `gate` is what the lines do without interruption, and `xdpPktloss_eq_gate` and
   `xdpCorrupt_eq_gate` say that the programs begin like this.
2. `Raced` is the invariant. A packet that was counted and finds zero is one that was in flight
   when `disarm` was called, so a potential pays for it: the packets missed so far, and while
   disarmed those in flight, are at most one for each CPU and `disarm`.
3. `racing_calls_lose_few` reads off how far the pattern can be from the exact one.
-/

namespace Blackswan.Kernel

open Lib (Tickets)

/-! ## The lines -/

/-- Whether it is the turn of the packet, and `packet_count`. -/
def gate (n : UInt32) (count : UInt64) : Bool × UInt64 :=
  if n = 0 then (false, count) else (decide ((count + 1) % n.toUInt64 = 0), count + 1)

theorem xdpPktloss_eq_gate (n : UInt32) (count : UInt64) :
    xdpPktloss n count = (if (gate n count).1 then .drop else .pass, (gate n count).2) := by
  unfold xdpPktloss gate pktlossVerdict
  by_cases hn : n = 0
  · simp [hn]
  · simp [hn]

/-- Behind the gate the frame is corrupted. It has the number zero here, which `n` divides. -/
theorem xdpCorrupt_eq_gate (maps : Bpf) (count : UInt64) (frame : Frame) :
    let n := maps.u32 XdpCorruptionInjector.EVERY_N_MAP
    xdpCorrupt maps count frame = .ok (.pass,
      (if (gate n count).1 then corrupted n (maps.u32 XdpCorruptionInjector.OFFSET_MAP)
        (maps.u32 XdpCorruptionInjector.MASK_MAP).toUInt8 0 frame else frame),
      (gate n count).2) := by
  intro n
  unfold gate
  by_cases hn : n = 0
  · rw [xdpCorrupt_off hn, if_pos hn]
    rfl
  · rw [xdpCorrupt_on hn, if_neg hn]
    have hturn := Lib.mod_toUInt64_eq_zero_iff n (count + 1)
    unfold corrupted
    by_cases hdvd : n.toNat ∣ (count + 1).toNat
    · rw [if_pos (decide_eq_true (hturn.mpr hdvd))]
      simp only [n, hdvd, dvd_zero, true_and]
    · rw [if_neg (mt of_decide_eq_true (mt hturn.mp hdvd)), if_neg fun hboth => hdvd hboth.1]

/-! ## The machine -/

/-- Where a CPU is with its packet: past the first read of `*n`, or past the increment. -/
inductive GatePhase where
  | idle
  | checked
  | counted (c : UInt64)
  deriving DecidableEq, Repr

def GatePhase.ticket : GatePhase → Option ℕ
  | .counted c => some c.toNat
  | _ => none

/-- A packet that has been dealt with: whether the injector was armed then, the counter value if
the packet was counted, and whether the last test selected it. `xdp_pktloss` drops what is selected;
`xdp_corrupt` goes on to the byte at its offset, which the frame may be too short for. -/
structure GateDone where
  armed : Bool
  counter : Option UInt64
  selected : Bool
  deriving DecidableEq, Repr

/-- The turn of the packet had come, and the test did not select it. -/
def GateDone.missed (N : UInt32) (p : GateDone) : Bool :=
  !p.selected && p.counter.any fun c => decide (N.toNat ∣ c.toNat)

inductive GateEvent (C : Type) where
  | arrive (cpu : C)
  | count (cpu : C)
  | verdict (cpu : C)
  | arm (env : XdpEnv)
  | disarm (env : XdpEnv)

def GateEvent.isCount {C : Type} : GateEvent C → Bool
  | .count _ => true
  | _ => false

def GateEvent.isDisarm {C : Type} : GateEvent C → Bool
  | .disarm _ => true
  | _ => false

/-- The injector, the map `packet_count`, and the CPUs. -/
structure GateSystem (C : Type) where
  hook : XdpHook
  packetCount : UInt64
  cpus : C → GatePhase
  log : List GateDone
  counted : ℕ
  disarms : ℕ

namespace GateSystem

variable {C : Type}

def start : GateSystem C := ⟨⟨none, false⟩, 0, fun _ => .idle, [], 0, 0⟩

def Quiet (s : GateSystem C) : Prop := ∀ cpu, s.cpus cpu = .idle

section Step

variable [DecidableEq C] (fault : XdpFault)

def setCpu (s : GateSystem C) (cpu : C) (phase : GatePhase) : GateSystem C :=
  { s with cpus := Function.update s.cpus cpu phase }

def arrive (s : GateSystem C) (cpu : C) : GateSystem C :=
  if fault.switch s.hook = 0 then { s with log := s.log ++ [⟨s.hook.armed, none, false⟩] }
  else s.setCpu cpu .checked

/-- `__sync_fetch_and_add(count, 1) + 1`. -/
def count (s : GateSystem C) (cpu : C) : GateSystem C :=
  { s.setCpu cpu (.counted (s.packetCount + 1)) with
    packetCount := s.packetCount + 1, counted := s.counted + 1 }

/-- `c % *n == 0`, with `*n` as it is now. -/
def verdict (s : GateSystem C) (cpu : C) (c : UInt64) : GateSystem C :=
  { s.setCpu cpu .idle with
    log := s.log ++
      [⟨s.hook.armed, some c, decide (c % (fault.switch s.hook).toUInt64 = 0)⟩] }

def step (s : GateSystem C) : GateEvent C → Option (GateSystem C)
  | .arrive cpu =>
    match s.cpus cpu with
    | .idle => some (s.arrive fault cpu)
    | _ => none
  | .count cpu =>
    match s.cpus cpu with
    | .checked => some (s.count cpu)
    | _ => none
  | .verdict cpu =>
    match s.cpus cpu with
    | .counted c => some (s.verdict fault cpu c)
    | _ => none
  | .arm env => some { s with hook := (fault.arm env s.hook).2 }
  | .disarm env => some { s with hook := (fault.disarm env s.hook).2, disarms := s.disarms + 1 }

/-- A packet that nothing interrupts goes through the gate. -/
theorem run_gate (s : GateSystem C) {cpu : C} (hidle : s.cpus cpu = .idle) :
    ∃ events s', Lib.run (step fault) events s = some s' ∧
      s'.packetCount = (gate (fault.switch s.hook) s.packetCount).2 ∧
      s'.log.getLast?.map GateDone.selected =
        some (gate (fault.switch s.hook) s.packetCount).1 := by
  unfold gate
  by_cases hn : fault.switch s.hook = 0
  · refine ⟨[.arrive cpu], s.arrive fault cpu, by simp [Lib.run, step, hidle], ?_, ?_⟩
    · rw [arrive, if_pos hn, if_pos hn]
    · rw [arrive, if_pos hn, if_pos hn]
      simp
  · refine ⟨[.arrive cpu, .count cpu, .verdict cpu],
      ((s.arrive fault cpu).count cpu).verdict fault cpu (s.packetCount + 1), ?_, ?_, ?_⟩
    · simp [Lib.run, step, hidle, arrive, hn, count, setCpu]
    · rw [arrive, if_neg hn, if_neg hn]
      rfl
    · rw [arrive, if_neg hn, if_neg hn]
      simp only [verdict, List.getLast?_concat, Option.map_some]
      rfl

end Step

/-! ## The invariant -/

/-- The counter values of the packets dealt with. -/
def counters (s : GateSystem C) : List ℕ := s.log.filterMap fun p => p.counter.map UInt64.toNat

def tickets (s : GateSystem C) : Tickets C :=
  ⟨s.packetCount.toNat, fun cpu => (s.cpus cpu).ticket, s.counters⟩

section Potential

variable [Fintype C]

/-- The CPUs that have a packet in hand. -/
def inFlight (s : GateSystem C) : Finset C := {cpu | s.cpus cpu ≠ .idle}

/-- The packets missed so far, and those that may be if the injector stays as it is. -/
def potential (N : UInt32) (s : GateSystem C) : ℕ :=
  s.log.countP (GateDone.missed N) + if s.hook.armed then 0 else s.inFlight.card

structure Raced (fault : XdpFault) (s : GateSystem C) : Prop where
  switched : fault.Switched s.hook
  counted : s.packetCount.toNat = s.counted
  fair : s.tickets.Fair
  selects : ∀ p ∈ s.log, p.selected = true → p.armed = true ∧
    ∃ c, p.counter = some c ∧ fault.switchValue.toNat ∣ c.toNat
  paid : s.potential fault.switchValue ≤ Fintype.card C * s.disarms

theorem raced_start (fault : XdpFault) : Raced fault (start : GateSystem C) where
  switched := rfl
  counted := rfl
  fair := Tickets.fair_start
  selects := nofun
  paid := by
    unfold potential inFlight start
    simp

end Potential

theorem counters_append (s : GateSystem C) (p : GateDone) :
    (s.log ++ [p]).filterMap (fun p => p.counter.map UInt64.toNat) =
      s.counters ++ (p.counter.map UInt64.toNat).toList := by
  rw [List.filterMap_append]
  rcases hc : p.counter with _ | c <;> simp [counters, hc]

section Keep

variable [DecidableEq C] {fault : XdpFault} {s : GateSystem C} {cpu : C}

theorem cpus_setCpu (s : GateSystem C) (cpu : C) (phase : GatePhase) (cpu' : C) :
    (s.setCpu cpu phase).cpus cpu' = if cpu' = cpu then phase else s.cpus cpu' :=
  Function.update_apply s.cpus cpu phase cpu'

theorem tickets_setCpu (s : GateSystem C) (cpu : C) (phase : GatePhase) :
    (s.setCpu cpu phase).tickets =
      { s.tickets with held := Function.update s.tickets.held cpu phase.ticket } := by
  unfold tickets
  congr 1
  funext cpu'
  rw [cpus_setCpu, Function.update_apply]
  split_ifs <;> rfl

omit [DecidableEq C] in
theorem armed_of_switch_ne_zero (h : fault.Switched s.hook) (hn : fault.switch s.hook ≠ 0) :
    s.hook.armed = true := by
  by_contra harmed
  exact hn (h.trans (if_neg harmed))

variable [Fintype C]

omit [DecidableEq C] in
theorem mem_inFlight {cpu' : C} : cpu' ∈ s.inFlight ↔ s.cpus cpu' ≠ .idle :=
  Finset.mem_filter_univ _

/-- The increment leaves the packet in flight. -/
theorem inFlight_setCpu_self {phase : GatePhase} (hphase : phase ≠ .idle)
    (hcpu : s.cpus cpu ≠ .idle) : (s.setCpu cpu phase).inFlight = s.inFlight := by
  have hinsert : (s.setCpu cpu phase).inFlight = insert cpu s.inFlight :=
    Lib.filter_update_insert s.cpus cpu (· ≠ .idle) hphase
  rw [hinsert, Finset.insert_eq_of_mem (mem_inFlight.mpr hcpu)]

theorem inFlight_setCpu_idle (s : GateSystem C) (cpu : C) :
    (s.setCpu cpu .idle).inFlight = s.inFlight.erase cpu :=
  Lib.filter_update_erase s.cpus cpu (· ≠ .idle) (not_not.mpr rfl)

theorem Raced.arrive (h : s.Raced fault) (hidle : s.cpus cpu = .idle) :
    (s.arrive fault cpu).Raced fault := by
  unfold GateSystem.arrive
  by_cases hn : fault.switch s.hook = 0
  · rw [if_pos hn]
    refine ⟨h.switched, h.counted, ?_, ?_, ?_⟩
    · have htickets := counters_append s ⟨s.hook.armed, none, false⟩
      rw [Option.map_none, Option.toList_none, List.append_nil] at htickets
      unfold tickets counters
      rw [htickets]
      exact h.fair
    · rw [List.forall_mem_append, List.forall_mem_singleton]
      exact ⟨h.selects, fun hsel => by cases hsel⟩
    · have hpaid := h.paid
      unfold potential at hpaid ⊢
      rw [List.countP_append]
      exact hpaid
  · rw [if_neg hn]
    have harmed := armed_of_switch_ne_zero h.switched hn
    refine ⟨h.switched, h.counted, ?_, h.selects, ?_⟩
    · have hnone : s.tickets.held cpu = none := congrArg GatePhase.ticket hidle
      rw [tickets_setCpu, show GatePhase.checked.ticket = _ from hnone.symm,
        Function.update_eq_self]
      exact h.fair
    · -- while armed, the packets in flight are not in the potential
      have hpaid := h.paid
      unfold potential at hpaid ⊢
      rw [if_pos harmed] at hpaid
      exact (if_pos harmed).symm ▸ hpaid

theorem Raced.count (h : s.Raced fault) (hcpu : s.cpus cpu = .checked)
    (hlt : s.counted + 1 < 2 ^ 64) : (s.count cpu).Raced fault := by
  have hnext := Lib.toNat_add_one (h.counted ▸ hlt)
  refine ⟨h.switched, hnext.trans (congrArg (· + 1) h.counted), ?_, h.selects, ?_⟩
  · have htake : (s.count cpu).tickets = s.tickets.take cpu := by
      show (⟨(s.packetCount + 1).toNat, _, _⟩ : Tickets C) = _
      have hset := tickets_setCpu s cpu (.counted (s.packetCount + 1))
      rw [GatePhase.ticket, hnext] at hset
      rw [hnext]
      exact congrArg (fun t => { t with issued := s.packetCount.toNat + 1 }) hset
    rw [htake]
    exact h.fair.take (congrArg GatePhase.ticket hcpu)
  · have hflight : (s.setCpu cpu (.counted (s.packetCount + 1))).inFlight = s.inFlight :=
      inFlight_setCpu_self (fun e => by cases e) fun e => by rw [hcpu] at e; cases e
    have hpaid := h.paid
    unfold potential at hpaid ⊢
    show _ + (if s.hook.armed then 0 else (s.setCpu cpu _).inFlight.card) ≤ _
    rw [hflight]
    exact hpaid

omit [DecidableEq C] in
/-- What the last test says: while armed it tells whether the turn of the packet has come, and
otherwise it says no. -/
theorem Raced.selected_iff (h : s.Raced fault) {c : UInt64} (hcpu : s.cpus cpu = .counted c) :
    c % (fault.switch s.hook).toUInt64 = 0 ↔
      s.hook.armed = true ∧ fault.switchValue.toNat ∣ c.toNat := by
  have hswitch : fault.switch s.hook = _ := h.switched
  rw [Lib.mod_toUInt64_eq_zero_iff, hswitch]
  by_cases harmed : s.hook.armed = true
  · rw [if_pos harmed]
    exact (and_iff_right harmed).symm
  · -- zero divides only zero, and counter values start with one
    have hpos := ((h.fair.issued c.toNat).mp (Or.inr ⟨cpu, congrArg GatePhase.ticket hcpu⟩)).1
    rw [if_neg harmed]
    refine iff_of_false (fun hdvd => ?_) fun hboth => harmed hboth.1
    have hzero := Nat.eq_zero_of_zero_dvd hdvd
    omega

/-- A packet that is missed was in flight while disarmed, and leaves the potential there. -/
theorem Raced.potential_verdict (h : s.Raced fault) {c : UInt64} (hcpu : s.cpus cpu = .counted c) :
    (s.verdict fault cpu c).potential fault.switchValue ≤ s.potential fault.switchValue := by
  have hmem : cpu ∈ s.inFlight := mem_inFlight.mpr fun e => by rw [hcpu] at e; cases e
  have hpos := Finset.card_pos.mpr ⟨cpu, hmem⟩
  have hsel := h.selected_iff hcpu
  unfold potential verdict
  show (s.log ++ [_]).countP _ +
    (if s.hook.armed then 0 else (s.setCpu cpu .idle).inFlight.card) ≤ _
  rw [List.countP_append, List.countP_singleton, inFlight_setCpu_idle,
    Finset.card_erase_of_mem hmem]
  by_cases harmed : s.hook.armed = true
  · have hnot : GateDone.missed fault.switchValue
        ⟨s.hook.armed, some c, decide (c % (fault.switch s.hook).toUInt64 = 0)⟩ = false := by
      rw [harmed] at hsel
      simp [GateDone.missed, hsel]
    rw [hnot, if_pos harmed, if_pos harmed]
    exact le_rfl
  · rw [if_neg harmed, if_neg harmed]
    split_ifs <;> omega

theorem Raced.verdict (h : s.Raced fault) {c : UInt64} (hcpu : s.cpus cpu = .counted c) :
    (s.verdict fault cpu c).Raced fault := by
  refine ⟨h.switched, h.counted, ?_, ?_, (h.potential_verdict hcpu).trans h.paid⟩
  · have hspend : (s.verdict fault cpu c).tickets = s.tickets.spend cpu c.toNat := by
      have hset := congrArg Tickets.held (tickets_setCpu s cpu .idle)
      have happend := counters_append s
        ⟨s.hook.armed, some c, decide (c % (fault.switch s.hook).toUInt64 = 0)⟩
      exact congrArg₂ (Tickets.mk s.packetCount.toNat) hset happend
    rw [hspend]
    exact h.fair.spend (congrArg GatePhase.ticket hcpu)
  · show ∀ p ∈ s.log ++ [_], _
    rw [List.forall_mem_append, List.forall_mem_singleton]
    refine ⟨h.selects, fun hsel => ?_⟩
    obtain ⟨harmed, hdvd⟩ := (h.selected_iff hcpu).mp (of_decide_eq_true hsel)
    exact ⟨harmed, c, rfl, hdvd⟩

omit [DecidableEq C] in
/-- `arm` only takes from the potential. -/
theorem Raced.arm (hf : fault.WellFormed) (h : s.Raced fault) (env : XdpEnv) :
    Raced fault { s with hook := (fault.arm env s.hook).2 } := by
  refine ⟨h.switched.arm hf env, h.counted, h.fair, h.selects, le_trans ?_ h.paid⟩
  unfold potential
  obtain ⟨bpf, harm⟩ | ⟨e, bpf, harm⟩ := fault.armed_arm env s.hook
  · rw [harm]
    exact Nat.le_add_right _ _
  · rw [harm]
    exact le_rfl

omit [DecidableEq C] in
/-- `disarm` adds to the potential what is in flight, at most one packet for each CPU. -/
theorem Raced.disarm (h : s.Raced fault) (env : XdpEnv) : Raced fault
    { s with hook := (fault.disarm env s.hook).2, disarms := s.disarms + 1 } := by
  refine ⟨h.switched.disarm env, h.counted, h.fair, h.selects, ?_⟩
  have hpaid := h.paid
  have hcard : s.inFlight.card ≤ Fintype.card C := Finset.card_le_univ _
  unfold potential at hpaid ⊢
  show s.log.countP (GateDone.missed fault.switchValue) +
    (if (fault.disarm env s.hook).2.armed then 0 else s.inFlight.card) ≤
      Fintype.card C * (s.disarms + 1)
  rw [Nat.mul_succ]
  split_ifs <;> omega

end Keep

/-! ## Runs -/

section Runs

variable [DecidableEq C] {fault : XdpFault} {s s' : GateSystem C}

/-- What an event can do. -/
theorem step_cases {e : GateEvent C} (hstep : s.step fault e = some s') :
    (∃ cpu, e = .arrive cpu ∧ s.cpus cpu = .idle ∧ s' = s.arrive fault cpu) ∨
    (∃ cpu, e = .count cpu ∧ s.cpus cpu = .checked ∧ s' = s.count cpu) ∨
    (∃ cpu c, e = .verdict cpu ∧ s.cpus cpu = .counted c ∧ s' = s.verdict fault cpu c) ∨
    (∃ env, e = .arm env ∧ s' = { s with hook := (fault.arm env s.hook).2 }) ∨
    ∃ env, e = .disarm env ∧
      s' = { s with hook := (fault.disarm env s.hook).2, disarms := s.disarms + 1 } := by
  rcases e with cpu | cpu | cpu | env | env
  · rw [step] at hstep
    split at hstep <;> cases hstep
    exact Or.inl ⟨cpu, rfl, by assumption, rfl⟩
  · rw [step] at hstep
    split at hstep <;> cases hstep
    exact Or.inr (Or.inl ⟨cpu, rfl, by assumption, rfl⟩)
  · rw [step] at hstep
    split at hstep <;> cases hstep
    exact Or.inr (Or.inr (Or.inl ⟨cpu, _, rfl, by assumption, rfl⟩))
  · cases hstep
    exact Or.inr (Or.inr (Or.inr (Or.inl ⟨env, rfl, rfl⟩)))
  · cases hstep
    exact Or.inr (Or.inr (Or.inr (Or.inr ⟨env, rfl, rfl⟩)))

theorem totals_arrive (fault : XdpFault) (s : GateSystem C) (cpu : C) :
    (s.arrive fault cpu).counted = s.counted ∧ (s.arrive fault cpu).disarms = s.disarms := by
  unfold arrive
  split_ifs <;> exact ⟨rfl, rfl⟩

theorem counted_step {e : GateEvent C} (hstep : s.step fault e = some s') :
    s'.counted = s.counted + if e.isCount then 1 else 0 := by
  rcases step_cases hstep with ⟨cpu, rfl, -, rfl⟩ | ⟨cpu, rfl, -, rfl⟩ | ⟨cpu, c, rfl, -, rfl⟩ |
    ⟨env, rfl, rfl⟩ | ⟨env, rfl, rfl⟩
  · exact (totals_arrive fault s cpu).1
  all_goals rfl

theorem disarms_step {e : GateEvent C} (hstep : s.step fault e = some s') :
    s'.disarms = s.disarms + if e.isDisarm then 1 else 0 := by
  rcases step_cases hstep with ⟨cpu, rfl, -, rfl⟩ | ⟨cpu, rfl, -, rfl⟩ | ⟨cpu, c, rfl, -, rfl⟩ |
    ⟨env, rfl, rfl⟩ | ⟨env, rfl, rfl⟩
  · exact (totals_arrive fault s cpu).2
  all_goals rfl

variable [Fintype C]

/-- **One event** keeps the invariant, if the counter has room. -/
theorem Raced.step (hf : fault.WellFormed) (h : s.Raced fault) {e : GateEvent C}
    (hstep : s.step fault e = some s') (hroom : s'.counted < 2 ^ 64) : s'.Raced fault := by
  rcases step_cases hstep with ⟨cpu, rfl, hcpu, rfl⟩ | ⟨cpu, rfl, hcpu, rfl⟩ |
    ⟨cpu, c, rfl, hcpu, rfl⟩ | ⟨env, rfl, rfl⟩ | ⟨env, rfl, rfl⟩
  · exact h.arrive hcpu
  · exact h.count hcpu hroom
  · exact h.verdict hcpu
  · exact h.arm hf env
  · exact h.disarm env

/-- **A whole run** keeps it, with fewer than `2 ^ 64` packets counted. -/
theorem raced_run (hf : fault.WellFormed) {events : List (GateEvent C)}
    (hrun : Lib.run (step fault) events start = some s)
    (hfew : events.countP GateEvent.isCount < 2 ^ 64) :
    s.Raced fault ∧ s.counted = events.countP GateEvent.isCount ∧
      s.disarms = events.countP GateEvent.isDisarm := by
  have hcounted := Lib.run_measure_eq counted _ (fun _ _ _ => counted_step) hrun
  have hdisarms := Lib.run_measure_eq disarms _ (fun _ _ _ => disarms_step) hrun
  rw [show (start : GateSystem C).counted = 0 from rfl, Nat.zero_add] at hcounted
  rw [show (start : GateSystem C).disarms = 0 from rfl, Nat.zero_add] at hdisarms
  refine ⟨?_, hcounted, hdisarms⟩
  have hinv := Lib.run_invariant (fun s : GateSystem C => s.counted < 2 ^ 64 → s.Raced fault)
    ?_ (fun _ => raced_start fault) hrun
  · exact hinv (hcounted ▸ hfew)
  · intro s e s' h hstep hroom
    have hmono := counted_step hstep
    exact Raced.step hf (h (by omega)) hstep hroom

/-- Of the packets whose turn had come, each was selected or missed. -/
theorem countP_turns {N : UInt32} {log : List GateDone}
    (hselects : ∀ p ∈ log, p.selected = true → ∃ c, p.counter = some c ∧ N.toNat ∣ c.toNat) :
    (log.filterMap fun p => p.counter.map UInt64.toNat).countP (fun v => decide (N.toNat ∣ v)) =
      log.countP GateDone.selected + log.countP (GateDone.missed N) := by
  induction log with
  | nil => rfl
  | cons p log ih =>
    rw [List.forall_mem_cons] at hselects
    have hrest := ih hselects.2
    obtain ⟨armed, counter, selected⟩ := p
    rw [List.countP_cons, List.countP_cons]
    cases selected with
    | true =>
      obtain ⟨c, hc, hdvd⟩ := hselects.1 rfl
      simp only at hc
      simp [hc, hdvd, GateDone.missed, hrest, Nat.add_right_comm]
    | false =>
      cases counter with
      | none => simp [GateDone.missed, hrest]
      | some c =>
        by_cases hdvd : N.toNat ∣ c.toNat
        · simp [hdvd, GateDone.missed, hrest, Nat.add_assoc]
        · simp [hdvd, GateDone.missed, hrest]

/-- **Calls at any time.** Whatever `arm` and `disarm` do while packets are in flight, on any
number of CPUs: only packets whose counter value `N` divides are selected, and only while armed, so
`disarm` ends the fault for the packets in flight too. No two packets have the same value. Once no
packet is in flight, the values are `1, …, k`, where `k` packets were counted, and of the `k / N`
packets whose turn it was at most one for each CPU and `disarm` was not selected. -/
theorem racing_calls_lose_few (hf : fault.WellFormed) (events : List (GateEvent C))
    (hfew : events.countP GateEvent.isCount < 2 ^ 64)
    (hrun : Lib.run (step fault) events start = some s) :
    let N := fault.switchValue.toNat
    let k := events.countP GateEvent.isCount
    let selections := s.log.countP GateDone.selected
    (∀ p ∈ s.log, p.selected = true → p.armed = true ∧ ∃ c, p.counter = some c ∧ N ∣ c.toNat) ∧
    s.counters.Nodup ∧
    (s.Quiet → s.counters.Perm (List.range' 1 k) ∧ selections ≤ k / N ∧
      k / N ≤ selections + Fintype.card C * events.countP GateEvent.isDisarm) := by
  intro N k selections
  obtain ⟨h, hcounted, hdisarms⟩ := raced_run hf hrun hfew
  refine ⟨h.selects, h.fair.nodup, fun hquiet => ?_⟩
  have hidle : ∀ cpu, s.tickets.held cpu = none :=
    fun cpu => congrArg GatePhase.ticket (hquiet cpu)
  have hissued : s.tickets.issued = k := h.counted.trans hcounted
  have hturns := h.fair.countP_dvd hidle N
  have hsplit := countP_turns fun p hp hsel => (h.selects p hp hsel).2
  have hpaid := h.paid
  rw [hdisarms] at hpaid
  unfold potential at hpaid
  rw [hissued] at hturns
  refine ⟨hissued ▸ h.fair.perm hidle, ?_, ?_⟩
  · rw [← hturns]
    exact (Nat.le_add_right _ _).trans hsplit.ge
  · rw [← hturns]
    refine hsplit.le.trans (Nat.add_le_add_left ?_ _)
    omega

end Runs

/-- One CPU, and every packet is to be dropped. A `disarm` between the two reads of `*n` lets the
first packet through, and an `arm` before the second read of the next one comes in time. -/
theorem racing_calls_lose_one :
    let fault := (XdpPacketLossInjector.new "pktloss" "eth0" 1).fault
    let events : List (GateEvent Unit) := [.arm .clear, .arrive (), .count (), .disarm .clear,
      .verdict (), .arm .clear, .arrive (), .disarm .clear, .count (), .arm .clear, .verdict ()]
    ∃ s, Lib.run (step fault) events start = some s ∧
      s.log = [⟨false, some 1, false⟩, ⟨true, some 2, true⟩] ∧
      s.counters.Perm (List.range' 1 2) := by
  intro fault events
  obtain ⟨s, hrun⟩ : ∃ s, Lib.run (step fault) events start = some s := ⟨_, rfl⟩
  have h := racing_calls_lose_few (XdpPacketLossInjector.wellFormed_fault _) events (by decide) hrun
  cases hrun
  exact ⟨_, rfl, by decide, (h.2.2 fun () => by decide).1⟩

end GateSystem

end Blackswan.Kernel
