import Mathlib.Data.Fintype.Card
import Blackswan.Kernel.Partition
import Blackswan.Kernel.Switch
import Blackswan.Lib.Machine
import Blackswan.Lib.Threads
import Blackswan.Lib.Tickets
import Blackswan.Lib.Words

/-!
# Packet loss on many CPUs

The program `xdp_pktloss` and its injector as one machine. A packet is handled on one CPU in three
steps (the test of `drop_every_n`, the atomic increment of `packet_count`, the verdict), and those
of different CPUs interleave freely. `arm` and `disarm` take effect between packets.

The machine keeps what the source does not: a log of the packets with their counter values and
whether the injector was armed when they arrived, and how many have arrived.

1. `Exact` is the invariant: the map holds `N` exactly while armed, and the counter values are
   tickets in the sense of `Lib.Tickets`, held by CPUs between increment and verdict.
2. `Exact.step` shows that every event keeps it, as long as the counter does not wrap around.
3. `drops_exactly` reads the drop pattern off it for whole runs.
-/

namespace Blackswan.Kernel

open Lib (Tickets)

/-! ## The program -/

/-- The last test of the program. -/
def pktlossVerdict (n : UInt32) (c : UInt64) : XdpAction :=
  if c % n.toUInt64 = 0 then .drop else .pass

/-- `xdp_pktloss` without interruption, on the entries of `drop_every_n` and `packet_count`. Entry
0 of an array map always exists, so no lookup returns `NULL`. -/
def xdpPktloss (n : UInt32) (count : UInt64) : XdpAction × UInt64 :=
  if n = 0 then (.pass, count)
  else
    let c := count + 1
    (pktlossVerdict n c, c)

theorem pktlossVerdict_eq_drop_iff (n : UInt32) (c : UInt64) :
    pktlossVerdict n c = .drop ↔ n.toNat ∣ c.toNat := by
  rw [← Lib.mod_toUInt64_eq_zero_iff, pktlossVerdict]
  by_cases h : c % n.toUInt64 = 0 <;> simp [h]

namespace XdpPacketLossInjector

/-- The map holds the configured value while armed, and zero otherwise. -/
def Switched (self : XdpPacketLossInjector) : Prop :=
  self.fault.switch self.toXdpHook = if self.armed then self.dropEveryN else 0

theorem Switched.arm {self : XdpPacketLossInjector} (h : self.Switched) (env : XdpEnv) :
    (self.arm env).2.Switched := XdpFault.Switched.arm self.wellFormed_fault h env

theorem Switched.disarm {self : XdpPacketLossInjector} (h : self.Switched) (env : XdpEnv) :
    (self.disarm env).2.Switched := XdpFault.Switched.disarm h env

end XdpPacketLossInjector

/-! ## The machine -/

/-- Where a CPU is with its packet: past the test of `*n`, or past the increment with the value
`c`. Either way it knows whether the injector was armed when the packet arrived. -/
inductive PktlossPhase where
  | idle
  | checked (armed : Bool)
  | counted (armed : Bool) (c : UInt64)
  deriving DecidableEq, Repr

/-- The counter value the CPU holds. -/
def PktlossPhase.ticket : PktlossPhase → Option ℕ
  | .counted _ c => some c.toNat
  | _ => none

/-- The injector was armed when the packet arrived. -/
def PktlossPhase.armed : PktlossPhase → Bool
  | .idle => false
  | .checked armed => armed
  | .counted armed _ => armed

def PktlossPhase.isChecked : PktlossPhase → Bool
  | .checked _ => true
  | _ => false

/-- A packet that has been dealt with, and its counter value if it was counted. -/
structure PktlossDone where
  armed : Bool
  counter : Option UInt64
  action : XdpAction
  deriving DecidableEq, Repr

/-- A packet seen while disarmed was passed on uncounted, one seen while armed was counted and
dropped exactly if `N` divides its counter value. -/
def PktlossDone.Exact (N : UInt32) (p : PktlossDone) : Prop :=
  (p.armed = false ∧ p.counter = none ∧ p.action = .pass) ∨
    (p.armed = true ∧ ∃ c, p.counter = some c ∧ p.action = pktlossVerdict N c)

/-- A packet arrives, is counted, gets its verdict; or a call on the injector. -/
inductive PktlossEvent (C : Type) where
  | arrive (cpu : C)
  | count (cpu : C)
  | verdict (cpu : C)
  | arm (env : XdpEnv)
  | disarm (env : XdpEnv)

def PktlossEvent.isArrive {C : Type} : PktlossEvent C → Bool
  | .arrive _ => true
  | _ => false

/-- The injector with its maps, the map `packet_count`, and the CPUs. -/
structure PktlossSystem (C : Type) where
  injector : XdpPacketLossInjector
  packetCount : UInt64
  cpus : C → PktlossPhase
  arrived : ℕ
  log : List PktlossDone

namespace PktlossSystem

variable {C : Type}

def new (id iface : String) (dropEveryN : UInt32) : PktlossSystem C :=
  ⟨.new id iface dropEveryN, 0, fun _ => .idle, 0, []⟩

/-- `*n`. Without a program attached every packet passes, as it does with zero in the map. -/
def n (s : PktlossSystem C) : UInt32 := s.injector.fault.switch s.injector.toXdpHook

/-- No packet is being handled. -/
def Quiet (s : PktlossSystem C) : Prop := ∀ cpu, s.cpus cpu = .idle

section Step

variable [DecidableEq C]

def setCpu (s : PktlossSystem C) (cpu : C) (phase : PktlossPhase) : PktlossSystem C :=
  { s with cpus := Function.update s.cpus cpu phase }

def arrive (s : PktlossSystem C) (cpu : C) : PktlossSystem C :=
  if s.n = 0 then
    { s with arrived := s.arrived + 1, log := s.log ++ [⟨s.injector.armed, none, .pass⟩] }
  else { s.setCpu cpu (.checked s.injector.armed) with arrived := s.arrived + 1 }

/-- `__sync_fetch_and_add(count, 1) + 1`. -/
def count (s : PktlossSystem C) (cpu : C) (armed : Bool) : PktlossSystem C :=
  { s.setCpu cpu (.counted armed (s.packetCount + 1)) with packetCount := s.packetCount + 1 }

def verdict (s : PktlossSystem C) (cpu : C) (armed : Bool) (c : UInt64) : PktlossSystem C :=
  { s.setCpu cpu .idle with log := s.log ++ [⟨armed, some c, pktlossVerdict s.n c⟩] }

variable [Fintype C]

instance (s : PktlossSystem C) : Decidable s.Quiet := by unfold Quiet; infer_instance

def step (s : PktlossSystem C) : PktlossEvent C → Option (PktlossSystem C)
  | .arrive cpu =>
    match s.cpus cpu with
    | .idle => some (s.arrive cpu)
    | _ => none
  | .count cpu =>
    match s.cpus cpu with
    | .checked armed => some (s.count cpu armed)
    | _ => none
  | .verdict cpu =>
    match s.cpus cpu with
    | .counted armed c => some (s.verdict cpu armed c)
    | _ => none
  | .arm env =>
    if s.Quiet then some { s with injector := (s.injector.arm env).2 } else none
  | .disarm env =>
    if s.Quiet then some { s with injector := (s.injector.disarm env).2 } else none

/-- A packet that nothing interrupts is handled as the program says. -/
theorem run_uninterrupted (s : PktlossSystem C) {cpu : C} (hidle : s.cpus cpu = .idle) :
    ∃ events s', Lib.run step events s = some s' ∧
      s'.packetCount = (xdpPktloss s.n s.packetCount).2 ∧
      s'.log.getLast?.map PktlossDone.action = some (xdpPktloss s.n s.packetCount).1 := by
  unfold xdpPktloss
  by_cases hn : s.n = 0
  · refine ⟨[.arrive cpu], s.arrive cpu, by simp [Lib.run, step, hidle], ?_, ?_⟩
    · rw [arrive, if_pos hn, if_pos hn]
    · rw [arrive, if_pos hn, if_pos hn]
      simp
  · refine ⟨[.arrive cpu, .count cpu, .verdict cpu],
      ((s.arrive cpu).count cpu s.injector.armed).verdict cpu s.injector.armed
        (s.packetCount + 1), ?_, ?_, ?_⟩
    · simp [Lib.run, step, hidle, arrive, hn, count, setCpu]
    · rw [arrive, if_neg hn, if_neg hn]
      rfl
    · rw [arrive, if_neg hn, if_neg hn]
      simp only [verdict, List.getLast?_concat, Option.map_some]
      rfl

end Step

/-! ## The invariant -/

/-- The counter values of the packets dealt with. -/
def counters (s : PktlossSystem C) : List ℕ :=
  s.log.filterMap fun p => p.counter.map UInt64.toNat

/-- Counter values as tickets. -/
def tickets (s : PktlossSystem C) : Tickets C :=
  ⟨s.packetCount.toNat, fun cpu => (s.cpus cpu).ticket, s.counters⟩

structure Exact (N : UInt32) (s : PktlossSystem C) : Prop where
  config : s.injector.dropEveryN = N
  switch : s.n = if s.injector.armed then N else 0
  flight : ∀ cpu, s.cpus cpu = .idle ∨ s.injector.armed = true ∧ (s.cpus cpu).armed = true
  fair : s.tickets.Fair
  log : ∀ p ∈ s.log, p.Exact N

theorem exact_new (id iface : String) (N : UInt32) :
    Exact N (PktlossSystem.new id iface N : PktlossSystem C) where
  config := rfl
  switch := rfl
  flight := fun _ => Or.inl rfl
  fair := Tickets.fair_start
  log := nofun

theorem counters_append (s : PktlossSystem C) (p : PktlossDone) :
    (s.log ++ [p]).filterMap (fun p => p.counter.map UInt64.toNat) =
      s.counters ++ (p.counter.map UInt64.toNat).toList := by
  rw [List.filterMap_append]
  rcases hc : p.counter with _ | c <;> simp [counters, hc]

section Keep

variable [DecidableEq C] {N : UInt32} {s : PktlossSystem C} {cpu : C}

theorem cpus_setCpu (s : PktlossSystem C) (cpu : C) (phase : PktlossPhase) (cpu' : C) :
    (s.setCpu cpu phase).cpus cpu' = if cpu' = cpu then phase else s.cpus cpu' :=
  Function.update_apply s.cpus cpu phase cpu'

theorem tickets_setCpu (s : PktlossSystem C) (cpu : C) (phase : PktlossPhase) :
    (s.setCpu cpu phase).tickets =
      { s.tickets with held := Function.update s.tickets.held cpu phase.ticket } := by
  unfold tickets
  congr 1
  funext cpu'
  rw [cpus_setCpu, Function.update_apply]
  split_ifs <;> rfl

theorem flight_setCpu (h : s.Exact N) {phase : PktlossPhase}
    (hphase : phase = .idle ∨ s.injector.armed = true ∧ phase.armed = true) (cpu' : C) :
    (s.setCpu cpu phase).cpus cpu' = .idle ∨
      s.injector.armed = true ∧ ((s.setCpu cpu phase).cpus cpu').armed = true := by
  rw [cpus_setCpu]
  split_ifs
  · exact hphase
  · exact h.flight cpu'

theorem Exact.arrive (h : s.Exact N) (hN : N ≠ 0) (hidle : s.cpus cpu = .idle) :
    (s.arrive cpu).Exact N := by
  have hswitch := h.switch
  unfold PktlossSystem.arrive
  by_cases hn : s.n = 0
  · -- the packet passes uncounted, so the injector is not armed
    have harmed : s.injector.armed = false := by
      by_contra harmed
      rw [hn, if_pos (Bool.not_eq_false _ ▸ harmed)] at hswitch
      exact hN hswitch.symm
    rw [if_pos hn]
    refine ⟨h.config, hswitch, h.flight, ?_, ?_⟩
    · have htickets := counters_append s ⟨s.injector.armed, none, .pass⟩
      rw [Option.map_none, Option.toList_none, List.append_nil] at htickets
      unfold tickets counters
      rw [htickets]
      exact h.fair
    · rw [List.forall_mem_append, List.forall_mem_singleton]
      exact ⟨h.log, Or.inl ⟨harmed, rfl, rfl⟩⟩
  · have harmed : s.injector.armed = true := by
      by_contra harmed
      exact hn (hswitch.trans (if_neg harmed))
    rw [if_neg hn]
    refine ⟨h.config, hswitch, flight_setCpu h (Or.inr ⟨harmed, harmed⟩), ?_, h.log⟩
    show (s.setCpu cpu (.checked s.injector.armed)).tickets.Fair
    have hnone : s.tickets.held cpu = none := by
      show (s.cpus cpu).ticket = none
      rw [hidle]
      rfl
    rw [tickets_setCpu, show (PktlossPhase.checked s.injector.armed).ticket = _ from hnone.symm,
      Function.update_eq_self]
    exact h.fair

theorem Exact.count (h : s.Exact N) {armed : Bool} (hcpu : s.cpus cpu = .checked armed)
    (hlt : s.packetCount.toNat + 1 < 2 ^ 64) : (s.count cpu armed).Exact N := by
  have hflight := h.flight cpu
  rw [hcpu] at hflight
  obtain ⟨harmed, hseen⟩ := hflight.resolve_left nofun
  have hnext := Lib.toNat_add_one hlt
  refine ⟨h.config, h.switch, flight_setCpu h (Or.inr ⟨harmed, hseen⟩), ?_, h.log⟩
  have htake : (s.count cpu armed).tickets = s.tickets.take cpu := by
    show (⟨(s.packetCount + 1).toNat, _, _⟩ : Tickets C) = _
    have hset := tickets_setCpu s cpu (.counted armed (s.packetCount + 1))
    rw [PktlossPhase.ticket, hnext] at hset
    rw [hnext]
    exact congrArg (fun t => { t with issued := s.packetCount.toNat + 1 }) hset
  rw [htake]
  refine h.fair.take ?_
  show (s.cpus cpu).ticket = none
  rw [hcpu]
  rfl

theorem Exact.verdict (h : s.Exact N) {armed : Bool} {c : UInt64}
    (hcpu : s.cpus cpu = .counted armed c) : (s.verdict cpu armed c).Exact N := by
  have hflight := h.flight cpu
  rw [hcpu] at hflight
  obtain ⟨harmed, hseen⟩ := hflight.resolve_left nofun
  have hn : s.n = N := h.switch.trans (if_pos harmed)
  refine ⟨h.config, h.switch, flight_setCpu h (Or.inl rfl), ?_, ?_⟩
  · have hspend : (s.verdict cpu armed c).tickets = s.tickets.spend cpu c.toNat := by
      have hset := congrArg Tickets.held (tickets_setCpu s cpu .idle)
      have happend := counters_append s ⟨armed, some c, pktlossVerdict s.n c⟩
      exact congrArg₂ (Tickets.mk s.packetCount.toNat) hset happend
    rw [hspend]
    refine h.fair.spend ?_
    show (s.cpus cpu).ticket = some c.toNat
    rw [hcpu]
    rfl
  · show ∀ p ∈ s.log ++ [_], p.Exact N
    rw [List.forall_mem_append, List.forall_mem_singleton, hn]
    exact ⟨h.log, Or.inr ⟨hseen, c, rfl, rfl⟩⟩

theorem arrived_arrive (s : PktlossSystem C) (cpu : C) :
    (s.arrive cpu).arrived = s.arrived + 1 := by
  unfold arrive
  split_ifs <;> rfl

end Keep

/-- A call on the injector between packets. -/
theorem Exact.call {N : UInt32} {s : PktlossSystem C} (h : s.Exact N) (hquiet : s.Quiet)
    {injector : XdpPacketLossInjector} (hconfig : injector.dropEveryN = s.injector.dropEveryN)
    (hswitched : s.injector.Switched → injector.Switched) :
    Exact N { s with injector := injector } where
  config := hconfig.trans h.config
  switch := by
    have hs : s.injector.Switched := by
      unfold XdpPacketLossInjector.Switched
      rw [h.config]
      exact h.switch
    have hs' := hswitched hs
    unfold XdpPacketLossInjector.Switched at hs'
    rw [hconfig, h.config] at hs'
    exact hs'
  flight := fun cpu => Or.inl (hquiet cpu)
  fair := h.fair
  log := h.log

/-! ## Runs -/

section Runs

variable [Fintype C] {N : UInt32} {s s' : PktlossSystem C} {cpu : C}

/-- The CPUs between the test of `*n` and the increment. -/
def checkedCpus (s : PktlossSystem C) : Finset C := {cpu | (s.cpus cpu).isChecked}

/-- Packets that were counted or are about to be have arrived. -/
def Bounded (s : PktlossSystem C) : Prop :=
  s.packetCount.toNat + s.checkedCpus.card ≤ s.arrived

theorem mem_checkedCpus {armed : Bool} (hcpu : s.cpus cpu = .checked armed) :
    cpu ∈ s.checkedCpus := by
  rw [checkedCpus, Finset.mem_filter_univ, hcpu]
  rfl

theorem Bounded.lt_arrived (h : s.Bounded) {armed : Bool} (hcpu : s.cpus cpu = .checked armed) :
    s.packetCount.toNat < s.arrived := by
  have hpos := Finset.card_pos.mpr ⟨cpu, mem_checkedCpus hcpu⟩
  unfold Bounded at h
  omega

variable [DecidableEq C]

theorem checkedCpus_setCpu_insert {phase : PktlossPhase} (hphase : phase.isChecked = true) :
    (s.setCpu cpu phase).checkedCpus = insert cpu s.checkedCpus :=
  Lib.filter_update_insert s.cpus cpu (fun phase => phase.isChecked = true) hphase

/-- A CPU that is not checked any more counts no longer. -/
theorem checkedCpus_setCpu_erase {phase : PktlossPhase} (hphase : phase.isChecked = false) :
    (s.setCpu cpu phase).checkedCpus = s.checkedCpus.erase cpu :=
  Lib.filter_update_erase s.cpus cpu (fun phase => phase.isChecked = true)
    (Bool.eq_false_iff.mp hphase)

/-- What an event can do. -/
theorem step_cases {e : PktlossEvent C} (hstep : s.step e = some s') :
    (∃ cpu, e = .arrive cpu ∧ s.cpus cpu = .idle ∧ s' = s.arrive cpu) ∨
    (∃ cpu armed, e = .count cpu ∧ s.cpus cpu = .checked armed ∧ s' = s.count cpu armed) ∨
    (∃ cpu armed c, e = .verdict cpu ∧ s.cpus cpu = .counted armed c ∧
      s' = s.verdict cpu armed c) ∨
    (∃ injector, e.isArrive = false ∧ s.Quiet ∧
      injector.dropEveryN = s.injector.dropEveryN ∧
      (s.injector.Switched → injector.Switched) ∧ s' = { s with injector := injector }) := by
  rcases e with cpu | cpu | cpu | env | env
  · rw [step] at hstep
    split at hstep <;> cases hstep
    exact Or.inl ⟨cpu, rfl, by assumption, rfl⟩
  · rw [step] at hstep
    split at hstep <;> cases hstep
    exact Or.inr (Or.inl ⟨cpu, _, rfl, by assumption, rfl⟩)
  · rw [step] at hstep
    split at hstep <;> cases hstep
    exact Or.inr (Or.inr (Or.inl ⟨cpu, _, _, rfl, by assumption, rfl⟩))
  · obtain ⟨hquiet, hs'⟩ := Option.ite_none_right_eq_some.mp hstep
    cases hs'
    exact Or.inr (Or.inr (Or.inr ⟨(s.injector.arm env).2, rfl, hquiet, rfl, fun h => h.arm env,
      rfl⟩))
  · obtain ⟨hquiet, hs'⟩ := Option.ite_none_right_eq_some.mp hstep
    cases hs'
    exact Or.inr (Or.inr (Or.inr ⟨(s.injector.disarm env).2, rfl, hquiet, rfl,
      fun h => h.disarm env, rfl⟩))

theorem arrived_step {e : PktlossEvent C} (hstep : s.step e = some s') :
    s'.arrived = s.arrived + if e.isArrive then 1 else 0 := by
  rcases step_cases hstep with ⟨cpu, rfl, -, rfl⟩ | ⟨cpu, armed, rfl, -, rfl⟩ |
    ⟨cpu, armed, c, rfl, -, rfl⟩ | ⟨injector, he, -, -, -, rfl⟩
  · exact arrived_arrive s cpu
  · rfl
  · rfl
  · rw [he]
    rfl

theorem Bounded.arrive (h : s.Bounded) (cpu : C) : (s.arrive cpu).Bounded := by
  unfold Bounded PktlossSystem.arrive at *
  split_ifs
  · exact Nat.le_succ_of_le h
  · have hcard := Finset.card_insert_le cpu s.checkedCpus
    show s.packetCount.toNat + (s.setCpu cpu _).checkedCpus.card ≤ s.arrived + 1
    rw [checkedCpus_setCpu_insert rfl]
    omega

/-- The increment moves a CPU from the second summand to the first. -/
theorem Bounded.count (h : s.Bounded) {armed : Bool} (hcpu : s.cpus cpu = .checked armed)
    (hlt : s.packetCount.toNat + 1 < 2 ^ 64) : (s.count cpu armed).Bounded := by
  have hmem := mem_checkedCpus hcpu
  have hpos := Finset.card_pos.mpr ⟨cpu, hmem⟩
  unfold Bounded at h ⊢
  show (s.packetCount + 1).toNat + (s.setCpu cpu _).checkedCpus.card ≤ s.arrived
  rw [checkedCpus_setCpu_erase rfl, Finset.card_erase_of_mem hmem, Lib.toNat_add_one hlt]
  omega

theorem Bounded.verdict (h : s.Bounded) (cpu : C) (armed : Bool) (c : UInt64) :
    (s.verdict cpu armed c).Bounded := by
  unfold Bounded at h ⊢
  show s.packetCount.toNat + (s.setCpu cpu _).checkedCpus.card ≤ s.arrived
  have hcard := Finset.card_erase_le (s := s.checkedCpus) (a := cpu)
  rw [checkedCpus_setCpu_erase rfl]
  omega

/-- **One event** keeps the invariant, if the counter has room. -/
theorem Exact.step (hN : N ≠ 0) (h : s.Exact N ∧ s.Bounded) {e : PktlossEvent C}
    (hstep : s.step e = some s') (hroom : s'.arrived < 2 ^ 64) : s'.Exact N ∧ s'.Bounded := by
  obtain ⟨hexact, hbounded⟩ := h
  rcases step_cases hstep with ⟨cpu, rfl, hcpu, rfl⟩ | ⟨cpu, armed, rfl, hcpu, rfl⟩ |
    ⟨cpu, armed, c, rfl, hcpu, rfl⟩ | ⟨injector, -, hquiet, hconfig, hswitched, rfl⟩
  · exact ⟨hexact.arrive hN hcpu, hbounded.arrive cpu⟩
  · have hlt : s.packetCount.toNat + 1 < 2 ^ 64 :=
      Nat.lt_of_le_of_lt (hbounded.lt_arrived hcpu) hroom
    exact ⟨hexact.count hcpu hlt, hbounded.count hcpu hlt⟩
  · exact ⟨hexact.verdict hcpu, hbounded.verdict cpu armed c⟩
  · exact ⟨hexact.call hquiet hconfig hswitched, hbounded⟩

/-- **A whole run** keeps it, with fewer than `2 ^ 64` packets. -/
theorem exact_run (hN : N ≠ 0) {events : List (PktlossEvent C)} {id iface : String}
    (hrun : Lib.run step events (new id iface N) = some s)
    (hfew : events.countP PktlossEvent.isArrive < 2 ^ 64) : s.Exact N := by
  have hinv := Lib.run_invariant
    (fun s : PktlossSystem C => s.arrived < 2 ^ 64 → s.Exact N ∧ s.Bounded) ?_ ?_ hrun
  · have harrived := Lib.run_measure_le arrived PktlossEvent.isArrive
      (fun s e s' hstep => (arrived_step hstep).le) hrun
    have hstart : (new id iface N : PktlossSystem C).arrived = 0 := rfl
    exact (hinv (by omega)).1
  · intro s e s' h hstep hroom
    have hmono := arrived_step hstep
    exact Exact.step hN (h (by omega)) hstep hroom
  · intro _
    refine ⟨exact_new id iface N, ?_⟩
    unfold Bounded checkedCpus
    simp [new, PktlossPhase.isChecked]

/-- The CPUs with a packet in hand. -/
def busyCpus (s : PktlossSystem C) : Finset C := {cpu | s.cpus cpu ≠ .idle}

/-- The packets that have been dealt with or are in hand. -/
def handled (s : PktlossSystem C) : ℕ := s.log.length + s.busyCpus.card

theorem busyCpus_setCpu_insert {phase : PktlossPhase} (hphase : phase ≠ .idle) :
    (s.setCpu cpu phase).busyCpus = insert cpu s.busyCpus :=
  Lib.filter_update_insert s.cpus cpu (· ≠ .idle) hphase

theorem busyCpus_setCpu_erase : (s.setCpu cpu .idle).busyCpus = s.busyCpus.erase cpu :=
  Lib.filter_update_erase s.cpus cpu (· ≠ .idle) (not_not.mpr rfl)

theorem handled_arrive (hidle : s.cpus cpu = .idle) : (s.arrive cpu).handled = s.handled + 1 := by
  have hnot : cpu ∉ s.busyCpus := by simp [busyCpus, hidle]
  unfold handled arrive
  split_ifs
  · show (s.log ++ [_]).length + s.busyCpus.card = _
    rw [List.length_append, List.length_singleton]
    omega
  · show s.log.length + (s.setCpu cpu _).busyCpus.card = _
    rw [busyCpus_setCpu_insert (fun hc => by cases hc), Finset.card_insert_of_notMem hnot,
      Nat.add_assoc]

/-- A packet is dealt with once: every event but an arrival leaves their number as it is. -/
theorem handled_step {e : PktlossEvent C} (hstep : s.step e = some s') :
    s'.handled = s.handled + if e.isArrive then 1 else 0 := by
  rcases step_cases hstep with ⟨cpu, rfl, hcpu, rfl⟩ | ⟨cpu, armed, rfl, hcpu, rfl⟩ |
    ⟨cpu, armed, c, rfl, hcpu, rfl⟩ | ⟨injector, he, -, -, -, rfl⟩
  · exact handled_arrive hcpu
  · have hmem : cpu ∈ s.busyCpus := by simp [busyCpus, hcpu]
    show s.log.length + (s.setCpu cpu _).busyCpus.card = _
    rw [busyCpus_setCpu_insert (fun hc => by cases hc), Finset.insert_eq_of_mem hmem]
    rfl
  · have hmem : cpu ∈ s.busyCpus := by simp [busyCpus, hcpu]
    have hpos := Finset.card_pos.mpr ⟨cpu, hmem⟩
    show (s.log ++ [_]).length + (s.setCpu cpu .idle).busyCpus.card = s.handled + 0
    rw [busyCpus_setCpu_erase, Finset.card_erase_of_mem hmem, List.length_append,
      List.length_singleton, handled]
    omega
  · rw [he]
    rfl

/-- Once no packet is in flight, every packet that has arrived is in the log, once. -/
theorem length_log_of_quiet {events : List (PktlossEvent C)} {id iface : String}
    (hrun : Lib.run step events (new id iface N) = some s) (hquiet : s.Quiet) :
    s.log.length = events.countP PktlossEvent.isArrive := by
  have hhandled := Lib.run_measure_eq handled PktlossEvent.isArrive
    (fun s e s' hstep => handled_step hstep) hrun
  have hidle : s.busyCpus = ∅ := by
    unfold busyCpus
    rw [Finset.filter_eq_empty_iff]
    exact fun cpu _ hbusy => hbusy (hquiet cpu)
  have hstart : (new id iface N : PktlossSystem C).handled = 0 := by simp [handled, busyCpus, new]
  rwa [handled, hidle, Finset.card_empty, hstart, Nat.zero_add] at hhandled

/-- Packets seen while armed are those with a counter value, and the dropped ones those whose
value `N` divides. -/
theorem countP_log {log : List PktlossDone} (h : ∀ p ∈ log, p.Exact N) :
    let counters := log.filterMap fun p => p.counter.map UInt64.toNat
    log.countP PktlossDone.armed = counters.length ∧
      log.countP (fun p => decide (p.action = .drop)) =
        counters.countP (fun v => decide (N.toNat ∣ v)) := by
  induction log with
  | nil => exact ⟨rfl, rfl⟩
  | cons p log ih =>
    rw [List.forall_mem_cons] at h
    obtain ⟨harmed, hdrop⟩ := ih h.2
    rcases h.1 with ⟨hp, hcounter, haction⟩ | ⟨hp, c, hcounter, haction⟩
    · simp [hp, hcounter, haction, harmed, hdrop]
    · have hiff := pktlossVerdict_eq_drop_iff N c
      simp [hp, hcounter, haction, harmed, hdrop, hiff, List.countP_cons]

/-- **The drop pattern.** In every run with fewer than `2 ^ 64` packets, on any number of CPUs,
packets seen while disarmed pass and are not counted, and one seen while armed is dropped exactly
if `N` divides its counter value, which is its own. Once no packet is in flight, every packet that
has arrived is in the log, the values are `1, …, A`, where `A` packets were seen while armed, and
`A / N` packets were dropped. -/
theorem drops_exactly (id iface : String) (hN : N ≠ 0) (events : List (PktlossEvent C))
    (hfew : events.countP PktlossEvent.isArrive < 2 ^ 64)
    (hrun : Lib.run step events (new id iface N) = some s) :
    let A := s.log.countP PktlossDone.armed
    (∀ p ∈ s.log, p.armed = false → p.action = .pass ∧ p.counter = none) ∧
    (∀ p ∈ s.log, p.armed = true →
      ∃ c, p.counter = some c ∧ (p.action = .drop ↔ N.toNat ∣ c.toNat)) ∧
    s.counters.Nodup ∧
    (s.Quiet → s.counters.Perm (List.range' 1 A) ∧ s.packetCount.toNat = A ∧
      s.log.countP (fun p => decide (p.action = .drop)) = A / N.toNat ∧
      s.log.length = events.countP PktlossEvent.isArrive) := by
  intro A
  have hexact := exact_run hN hrun hfew
  obtain ⟨hA, hdropped⟩ := countP_log hexact.log
  refine ⟨?_, ?_, hexact.fair.nodup, ?_⟩
  · intro p hp hdisarmed
    rcases hexact.log p hp with ⟨-, hcounter, haction⟩ | ⟨harmed, -⟩
    · exact ⟨haction, hcounter⟩
    · rw [hdisarmed] at harmed
      cases harmed
  · intro p hp harmed
    rcases hexact.log p hp with ⟨hdisarmed, -⟩ | ⟨-, c, hcounter, haction⟩
    · rw [harmed] at hdisarmed
      cases hdisarmed
    · refine ⟨c, hcounter, ?_⟩
      rw [haction]
      exact pktlossVerdict_eq_drop_iff N c
  · intro hquiet
    have hidle : ∀ cpu, s.tickets.held cpu = none := by
      intro cpu
      show (s.cpus cpu).ticket = none
      rw [hquiet cpu]
      rfl
    have hperm : s.counters.Perm (List.range' 1 s.packetCount.toNat) := hexact.fair.perm hidle
    have hcount : s.packetCount.toNat = A := by
      rw [show A = s.counters.length from hA, hperm.length_eq, List.length_range']
    refine ⟨hcount ▸ hperm, hcount, ?_, length_log_of_quiet hrun hquiet⟩
    rw [← hcount, hdropped]
    exact hexact.fair.countP_dvd hidle N.toNat

end Runs

/-- Two CPUs and two windows; the packets of the first window are counted in the other order than
they arrived in. Of the five packets three are seen while armed, and every second one of these is
dropped. -/
theorem drops_exactly_two_cpus :
    let events : List (PktlossEvent Bool) := [.arrive true, .arm .clear, .arrive false,
      .arrive true, .count true, .verdict true, .count false, .verdict false, .disarm .clear,
      .arrive false, .arm .clear, .arrive true, .count true, .verdict true]
    ∃ s, Lib.run step events (new "loss" "eth0" 2) = some s ∧ s.Quiet ∧ s.log.length = 5 ∧
      s.log.countP (fun p => decide (p.action = .drop)) = 1 := by
  intro events
  have hpattern := drops_exactly "loss" "eth0" (N := 2) (by decide) events (by decide)
    (Option.some_get rfl).symm
  obtain ⟨-, -, hdropped, hlength⟩ := hpattern.2.2.2 (by decide)
  exact ⟨(Lib.run step events (new "loss" "eth0" 2)).get rfl, (Option.some_get rfl).symm,
    by decide, hlength.trans (by decide), hdropped.trans (by decide)⟩

end PktlossSystem

end Blackswan.Kernel
