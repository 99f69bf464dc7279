import Blackswan.Kernel.Object

/-!
# Frames in the middle of a call

`ensure_loaded` attaches the program before it writes the configuration, so frames meet the maps
while they are being written. And a program reads its maps one after the other, so it may find each
of them at another moment, with calls going on in between.

1. `moments` are the contents that the maps take on in the course of a call, and `bpf_call` says
   that the last of them is what the call leaves.
2. `history_split`: over any calls, the moments are first some at which the switch is zero and then
   some at which the configuration is complete.
3. The switch is read first. So a frame that finds it on finds all of the configuration
   (`Torn.cases`), and `partition_whole_at_any_moment` says what that means for a partition.
-/

namespace Blackswan.Kernel

open Lib (Endian)

/-- The object after each write, up to the first that fails. -/
def writeMoments (id : String) (env : XdpEnv) : List MapWrite → Bpf → List Bpf
  | [], _ => []
  | write :: rest, bpf =>
    match write.run bpf id env with
    | (.error _, _) => []
    | (.ok (), bpf') => bpf' :: writeMoments id env rest bpf'

section
variable {id : String} {env : XdpEnv} {write : MapWrite} {rest : List MapWrite} {bpf : Bpf}

theorem writeMoments_cons_ok (h : env.access write.mapName = .ok) :
    writeMoments id env (write :: rest) bpf =
      write.apply bpf :: writeMoments id env rest (write.apply bpf) := by
  rw [writeMoments, MapWrite.run_eq, setMap_ok h]

theorem writeMoments_cons_refused (h : env.access write.mapName ≠ .ok) :
    writeMoments id env (write :: rest) bpf = [] := by
  obtain ⟨e, he⟩ := setMap_refused id bpf h
  rw [writeMoments, MapWrite.run_eq, he]

/-- The last moment is what the writes leave. -/
theorem getLastD_writeMoments (id : String) (env : XdpEnv) (writes : List MapWrite) (bpf : Bpf) :
    (writeMoments id env writes bpf).getLastD bpf = (writeMaps id env writes bpf).2 := by
  induction writes generalizing bpf with
  | nil => rfl
  | cons write rest ih =>
    rw [writeMaps, MapWrite.run_eq]
    by_cases hok : env.access write.mapName = .ok
    · rw [writeMoments_cons_ok hok, setMap_ok hok, List.getLastD_cons]
      exact ih (write.apply bpf)
    · obtain ⟨e, he⟩ := setMap_refused id bpf hok
      rw [writeMoments_cons_refused hok, he]
      rfl

/-- Writes that are not refused come before what follows them. -/
theorem writeMoments_append {writes : List MapWrite} (h : ∀ w ∈ writes, env.access w.mapName = .ok)
    (rest : List MapWrite) (bpf : Bpf) :
    writeMoments id env (writes ++ rest) bpf = writeMoments id env writes bpf ++
      writeMoments id env rest (writes.foldl MapWrite.apply bpf) := by
  induction writes generalizing bpf with
  | nil => rfl
  | cons write writes ih =>
    rw [List.forall_mem_cons] at h
    rw [List.cons_append, writeMoments_cons_ok h.1, writeMoments_cons_ok h.1, ih h.2,
      List.cons_append, List.foldl_cons]

theorem writeMaps_concat (id : String) (env : XdpEnv) (writes : List MapWrite) (w : MapWrite)
    (bpf : Bpf) : writeMaps id env (writes ++ [w]) bpf =
      match writeMaps id env writes bpf with
      | (.error e, bpf') => (.error e, bpf')
      | (.ok (), bpf') => w.run bpf' id env := by
  induction writes generalizing bpf with
  | nil =>
    rw [List.nil_append, writeMaps, writeMaps]
    dsimp only
    rcases w.run bpf id env with ⟨_ | ⟨⟩, bpf'⟩ <;> rfl
  | cons write writes ih =>
    rw [List.cons_append, writeMaps, writeMaps]
    rcases write.run bpf id env with ⟨_ | ⟨⟩, bpf'⟩
    · rfl
    · exact ih bpf'

theorem writeMaps_ok {writes : List MapWrite} (h : ∀ w ∈ writes, env.access w.mapName = .ok)
    (bpf : Bpf) : writeMaps id env writes bpf = (.ok (), writes.foldl MapWrite.apply bpf) := by
  induction writes generalizing bpf with
  | nil => rfl
  | cons write writes ih =>
    rw [List.forall_mem_cons] at h
    rw [writeMaps, MapWrite.run_eq, setMap_ok h.1]
    exact ih h.2 _

theorem u32_apply {mapName : String} (h : mapName ≠ write.mapName) (bpf : Bpf) :
    (write.apply bpf).u32 mapName = bpf.u32 mapName := by
  cases write with
  | u32 name value => exact Function.update_of_ne h value bpf.u32
  | bytes16 name value => rfl

theorem u32_foldl_apply {mapName : String} {writes : List MapWrite}
    (h : mapName ∉ writes.map MapWrite.mapName) (bpf : Bpf) :
    (writes.foldl MapWrite.apply bpf).u32 mapName = bpf.u32 mapName := by
  induction writes generalizing bpf with
  | nil => rfl
  | cons write writes ih =>
    rw [List.map_cons, List.mem_cons, not_or] at h
    rw [List.foldl_cons, ih h.2, u32_apply h.1]

/-- A map that is not written keeps its entry at every moment. -/
theorem u32_writeMoments {mapName : String} {writes : List MapWrite}
    (h : mapName ∉ writes.map MapWrite.mapName) :
    ∀ m ∈ writeMoments id env writes bpf, m.u32 mapName = bpf.u32 mapName := by
  induction writes generalizing bpf with
  | nil => exact fun m hm => by cases hm
  | cons write writes ih =>
    rw [List.map_cons, List.mem_cons, not_or] at h
    by_cases hok : env.access write.mapName = .ok
    · have hkeep := u32_apply h.1 bpf
      rw [writeMoments_cons_ok hok, List.forall_mem_cons]
      exact ⟨hkeep, fun m hm => (ih h.2 m hm).trans hkeep⟩
    · rw [writeMoments_cons_refused hok]
      exact fun m hm => by cases hm

end

namespace XdpFault

variable {fault : XdpFault} {hook : XdpHook} {env : XdpEnv}

/-- The write that `arm` and `disarm` end with. -/
def switchWrite (fault : XdpFault) (armed : Bool) : MapWrite :=
  .u32 fault.switchMap (if armed then fault.switchValue else 0)

/-- What the maps hold in the course of a call, from the moment the program is attached. -/
def moments (fault : XdpFault) (hook : XdpHook) : XdpCall → List Bpf
  | .arm env =>
    match hook.bpf with
    | some loaded => writeMoments fault.id env [fault.switchWrite true] loaded
    | none =>
      match fault.loadAndAttach env with
      | .error _ => []
      | .ok fresh => fresh ::
          writeMoments fault.id env (fault.config ++ [fault.switchWrite true]) fresh
  | .disarm env =>
    match hook.bpf with
    | some loaded => writeMoments fault.id env [fault.switchWrite false] loaded
    | none => []

/-- What the maps hold in the course of any calls. -/
def history (fault : XdpFault) : List XdpCall → XdpHook → List Bpf
  | [], _ => []
  | c :: calls, hook => fault.moments hook c ++ fault.history calls (fault.call hook c).2

/-- The configuration is not refused. Loading, attaching and the switch may fail. -/
def SetupsSucceed (fault : XdpFault) (calls : List XdpCall) : Prop :=
  ∀ env, XdpCall.arm env ∈ calls → ∀ w ∈ fault.config, env.access w.mapName = .ok

/-- **The last moment** of a call is what it leaves. -/
theorem bpf_call (fault : XdpFault) (hook : XdpHook) (c : XdpCall) :
    (fault.call hook c).2.bpf = (fault.moments hook c).getLast?.or hook.bpf := by
  -- a switch that is turned at an object that is loaded
  have hturn : ∀ env armed loaded, (writeMoments fault.id env [fault.switchWrite armed]
      loaded).getLast?.or (some loaded) =
        some (setMap loaded fault.id (fault.switchWrite armed) env).2 := by
    intro env armed loaded
    by_cases hok : env.access (fault.switchWrite armed).mapName = .ok
    · rw [writeMoments_cons_ok hok, setMap_ok hok]
      rfl
    · obtain ⟨e, he⟩ := setMap_refused fault.id loaded hok
      rw [writeMoments_cons_refused hok, he]
      rfl
  cases c with
  | arm env =>
    show (fault.arm env hook).2.bpf = _
    unfold moments arm ensureLoaded
    cases hook.bpf with
    | some loaded =>
      dsimp only
      rw [hturn env true loaded]
      unfold setU32Map
      rcases hset : setMap loaded fault.id _ env with ⟨_ | ⟨⟩, bpf⟩
      · exact congrArg (fun r => some (Prod.snd r)) hset.symm
      · exact congrArg (fun r => some (Prod.snd r)) hset.symm
    | none =>
      dsimp only
      cases fault.loadAndAttach env with
      | error e => rfl
      | ok fresh =>
        dsimp only
        rw [List.getLast?_cons, ← List.getLastD_eq_getLast?, getLastD_writeMoments,
          writeMaps_concat]
        rcases writeMaps fault.id env fault.config fresh with ⟨_ | ⟨⟩, written⟩
        · rfl
        · dsimp only
          rw [MapWrite.run_eq]
          unfold setU32Map
          rcases hset : setMap written fault.id _ env with ⟨_ | ⟨⟩, bpf⟩
          · exact congrArg (fun r => some (Prod.snd r)) hset.symm
          · exact congrArg (fun r => some (Prod.snd r)) hset.symm
  | disarm env =>
    show (fault.disarm env hook).2.bpf = _
    unfold moments disarm
    cases hook.bpf with
    | some loaded =>
      dsimp only
      rw [hturn env false loaded]
      unfold setU32Map
      rcases hset : setMap loaded fault.id _ env with ⟨_ | ⟨⟩, bpf⟩
      · exact congrArg (fun r => some (Prod.snd r)) hset.symm
      · exact congrArg (fun r => some (Prod.snd r)) hset.symm
    | none => rfl

/-! ## Off or whole -/

/-- The configuration without the switch is the object of a fault that is off. -/
theorem WellFormed.object_false (hf : fault.WellFormed) :
    fault.object false = fault.config.foldl MapWrite.apply .zeroed := by
  have hzero : (fault.config.foldl MapWrite.apply .zeroed).u32 fault.switchMap = 0 :=
    u32_foldl_apply hf.switch .zeroed
  unfold object
  rw [List.foldl_append]
  generalize fault.config.foldl MapWrite.apply .zeroed = bpf at *
  show (⟨Function.update bpf.u32 fault.switchMap 0, bpf.bytes16⟩ : Bpf) = bpf
  rw [← hzero, Function.update_eq_self]

/-- A switch that is turned, or not, at an object with its configuration. -/
theorem moments_switch (fault : XdpFault) (env : XdpEnv) (armed armed' : Bool) :
    ∀ m ∈ writeMoments fault.id env [fault.switchWrite armed'] (fault.object armed),
      m = fault.object armed' := by
  by_cases hok : env.access (fault.switchWrite armed').mapName = .ok
  · rw [writeMoments_cons_ok hok, List.forall_mem_cons]
    exact ⟨apply_object fault armed armed', fun m hm => by cases hm⟩
  · rw [writeMoments_cons_refused hok]
    exact fun m hm => by cases hm

/-- The switch is zero, or the maps are those of the flag. -/
def Off (fault : XdpFault) (m : Bpf) : Prop := m.u32 fault.switchMap = 0

def Whole (fault : XdpFault) (m : Bpf) : Prop := ∃ armed, m = fault.object armed

/-- A call on an object that has its configuration. -/
theorem whole_of_loaded {armed : Bool} (h : hook.bpf = some (fault.object armed)) (c : XdpCall) :
    ∀ m ∈ fault.moments hook c, fault.Whole m := by
  cases c with
  | arm env =>
    unfold moments
    rw [h]
    exact fun m hm => ⟨true, fault.moments_switch env armed true m hm⟩
  | disarm env =>
    unfold moments
    rw [h]
    exact fun m hm => ⟨false, fault.moments_switch env armed false m hm⟩

/-- What a call leaves that has a moment with the whole configuration as its last. -/
theorem whole_call {c : XdpCall} (hlast : ∀ m ∈ (fault.moments hook c).getLast?, fault.Whole m)
    (hbpf : ∀ m, hook.bpf = some m → fault.Whole m) :
    ∀ m, (fault.call hook c).2.bpf = some m → fault.Whole m := by
  intro m hm
  rw [bpf_call] at hm
  rcases hlast? : (fault.moments hook c).getLast? with _ | last
  · rw [hlast?] at hm
    exact hbpf m hm
  · rw [hlast?] at hm
    cases hm
    exact hlast m hlast?

/-- **The call that loads.** Its moments are off until the configuration is complete. -/
theorem WellFormed.split_loading (hf : fault.WellFormed) (hnone : hook.bpf = none)
    (henv : ∀ w ∈ fault.config, env.access w.mapName = .ok) :
    ∃ pre post, fault.moments hook (.arm env) = pre ++ post ∧ (∀ m ∈ pre, fault.Off m) ∧
      (∀ m ∈ post, fault.Whole m) ∧
      ∀ m ∈ (fault.moments hook (.arm env)).getLast?, fault.Whole m := by
  unfold moments
  rw [hnone]
  dsimp only
  cases hload : fault.loadAndAttach env with
  | error e =>
    refine ⟨[], [], rfl, ?_, ?_, ?_⟩
    all_goals exact fun m hm => by cases hm
  | ok fresh =>
    obtain rfl := loadAndAttach_eq_ok hload
    dsimp only
    have hoff : ∀ m ∈ writeMoments fault.id env fault.config .zeroed, fault.Off m :=
      u32_writeMoments hf.switch
    refine ⟨.zeroed :: writeMoments fault.id env fault.config .zeroed,
      writeMoments fault.id env [fault.switchWrite true] (fault.object false), ?_, ?_, ?_, ?_⟩
    · rw [writeMoments_append henv, hf.object_false, List.cons_append]
    · rw [List.forall_mem_cons]
      exact ⟨rfl, hoff⟩
    · exact fun m hm => ⟨true, fault.moments_switch env false true m hm⟩
    · intro m hm
      rw [List.getLast?_cons, ← List.getLastD_eq_getLast?, getLastD_writeMoments,
        writeMaps_concat, writeMaps_ok henv, ← hf.object_false] at hm
      cases hm
      dsimp only
      rw [MapWrite.run_eq]
      by_cases hok : env.access (fault.switchWrite true).mapName = .ok
      · rw [setMap_ok hok]
        exact ⟨true, apply_object fault false true⟩
      · obtain ⟨e, he⟩ := setMap_refused fault.id (fault.object false) hok
        rw [he]
        exact ⟨false, rfl⟩

theorem whole_history {calls : List XdpCall} {armed : Bool}
    (h : hook.bpf = some (fault.object armed)) :
    ∀ m ∈ fault.history calls hook, fault.Whole m := by
  induction calls generalizing hook armed with
  | nil => exact fun m hm => by cases hm
  | cons c calls ih =>
    have hmoments := whole_of_loaded h c
    have hleft := whole_call (fun m hm => hmoments m (List.mem_of_getLast? hm))
      fun m hm => ⟨armed, Option.some.inj (hm.symm.trans h)⟩
    have hsome : ∃ m, (fault.call hook c).2.bpf = some m := by
      rw [bpf_call, h]
      cases (fault.moments hook c).getLast? <;> exact ⟨_, rfl⟩
    obtain ⟨m', hm'⟩ := hsome
    obtain ⟨armed', rfl⟩ := hleft m' hm'
    rw [history, List.forall_mem_append]
    exact ⟨hmoments, ih hm'⟩

/-- **Over any calls**: first the switch is zero, then the configuration is complete. -/
theorem WellFormed.history_split (hf : fault.WellFormed) {calls : List XdpCall}
    (hsetup : fault.SetupsSucceed calls) (hnone : hook.bpf = none) :
    ∃ pre post, fault.history calls hook = pre ++ post ∧ (∀ m ∈ pre, fault.Off m) ∧
      ∀ m ∈ post, fault.Whole m := by
  induction calls generalizing hook with
  | nil => exact ⟨[], [], rfl, (fun m hm => by cases hm), (fun m hm => by cases hm)⟩
  | cons c calls ih =>
    have hrest : fault.SetupsSucceed calls :=
      fun env henv => hsetup env (List.mem_cons_of_mem c henv)
    obtain ⟨pre, post, hmoments, hpre, hpost, hlast⟩ : ∃ pre post,
        fault.moments hook c = pre ++ post ∧ (∀ m ∈ pre, fault.Off m) ∧
          (∀ m ∈ post, fault.Whole m) ∧ ∀ m ∈ (fault.moments hook c).getLast?, fault.Whole m := by
      cases c with
      | arm env => exact hf.split_loading hnone (hsetup env List.mem_cons_self)
      | disarm env =>
        unfold moments
        rw [hnone]
        refine ⟨[], [], rfl, ?_, ?_, ?_⟩
        all_goals exact fun m hm => by cases hm
    have hleft := whole_call hlast fun m hm => by rw [hnone] at hm; cases hm
    rw [history]
    cases hbpf : (fault.call hook c).2.bpf with
    | none =>
      -- nothing was attached, so there was no moment
      rw [bpf_call, hnone, Option.or_none, List.getLast?_eq_none_iff] at hbpf
      obtain ⟨pre', post', hhistory, hsplit⟩ := ih hrest (by rw [bpf_call, hnone, hbpf]; rfl)
      exact ⟨pre', post', by rw [hbpf, List.nil_append, hhistory], hsplit⟩
    | some m =>
      obtain ⟨armed, rfl⟩ := hleft m hbpf
      refine ⟨pre, post ++ fault.history calls (fault.call hook c).2, ?_, hpre, ?_⟩
      · rw [hmoments, List.append_assoc]
      · rw [List.forall_mem_append]
        exact ⟨hpost, whole_history hbpf⟩

/-- What a program finds that reads the switch at one moment and every other map at this moment or
a later one. -/
def Torn (fault : XdpFault) (history : List Bpf) (seen : Bpf) : Prop :=
  ∃ (i : ℕ) (m : Bpf), history[i]? = some m ∧
    seen.u32 fault.switchMap = m.u32 fault.switchMap ∧
    (∀ mapName, mapName ≠ fault.switchMap → ∃ (j : ℕ) (m' : Bpf), i ≤ j ∧
      history[j]? = some m' ∧ seen.u32 mapName = m'.u32 mapName) ∧
    ∀ mapName, ∃ (j : ℕ) (m' : Bpf), i ≤ j ∧ history[j]? = some m' ∧
      seen.bytes16 mapName = m'.bytes16 mapName

theorem u32_object_of_ne {mapName : String} (h : mapName ≠ fault.switchMap) (armed : Bool) :
    (fault.object armed).u32 mapName =
      (fault.config.foldl MapWrite.apply .zeroed).u32 mapName := by
  unfold object
  rw [List.foldl_append]
  exact Function.update_of_ne h _ _

theorem bytes16_object (armed armed' : Bool) :
    (fault.object armed).bytes16 = (fault.object armed').bytes16 := by
  unfold object
  rw [List.foldl_append, List.foldl_append]
  rfl

theorem u32_switch_object (armed : Bool) :
    (fault.object armed).u32 fault.switchMap = if armed then fault.switchValue else 0 := by
  unfold object
  rw [List.foldl_append]
  exact Function.update_self _ _ _

/-- A program that finds the switch on finds the object of the armed fault. -/
theorem Torn.cases (hf : fault.WellFormed) {calls : List XdpCall}
    (hsetup : fault.SetupsSucceed calls) {seen : Bpf}
    (h : fault.Torn (fault.history calls ⟨none, false⟩) seen) :
    seen.u32 fault.switchMap = 0 ∨ seen = fault.object true := by
  obtain ⟨i, m, hi, hswitch, hothers, hbytes⟩ := h
  obtain ⟨pre, post, hhistory, hpre, hpost⟩ :=
    hf.history_split hsetup (rfl : XdpHook.bpf ⟨none, false⟩ = none)
  rw [hhistory] at hi hothers hbytes
  by_cases hoff : seen.u32 fault.switchMap = 0
  · exact Or.inl hoff
  · right
    -- the switch was read after the configuration was complete, and so was everything else
    have hge : pre.length ≤ i := by
      by_contra hlt
      rw [List.getElem?_append_left (Nat.lt_of_not_le hlt)] at hi
      exact hoff (hswitch.trans (hpre m (List.mem_of_getElem? hi)))
    have hwhole : ∀ j m', i ≤ j → (pre ++ post)[j]? = some m' → fault.Whole m' := by
      intro j m' hj hm'
      rw [List.getElem?_append_right (hge.trans hj)] at hm'
      exact hpost m' (List.mem_of_getElem? hm')
    obtain ⟨armed, rfl⟩ := hwhole i m le_rfl hi
    have hon : armed = true := by
      by_contra hnot
      rw [u32_switch_object, if_neg hnot] at hswitch
      exact hoff hswitch
    subst hon
    obtain ⟨u32, bytes16⟩ := seen
    congr 1
    · funext mapName
      by_cases hname : mapName = fault.switchMap
      · rw [hname]
        exact hswitch
      · obtain ⟨j, m', hj, hm', hread⟩ := hothers mapName hname
        obtain ⟨armed', rfl⟩ := hwhole j m' hj hm'
        exact hread.trans ((u32_object_of_ne hname armed').trans (u32_object_of_ne hname true).symm)
    · funext mapName
      obtain ⟨j, m', hj, hm', hread⟩ := hbytes mapName
      obtain ⟨armed', rfl⟩ := hwhole j m' hj hm'
      exact hread.trans (congrFun (bytes16_object armed' true) mapName)

end XdpFault

/-- **A partition in the middle of calls.** Whenever a frame arrives, also between the writes of a
call, and at whatever moments from then on the program reads its maps: it drops the frame exactly
if it has found the switch on and the frame is one that the whole configuration drops, which means
from the configured peer or from the unspecified address of the other family. So half a
configuration never drops anything. Loading, attaching and the switch may fail any number of times;
writing the configuration may not. -/
theorem partition_whole_at_any_moment (host : Endian) (self : XdpPartitionInjector)
    (calls : List XdpCall) (hsetup : (self.fault host).SetupsSucceed calls) (seen : Bpf)
    (h : (self.fault host).Torn ((self.fault host).history calls ⟨none, false⟩) seen)
    (frame : Frame) :
    ∃ action, xdpPartition host seen frame = some action ∧
      (action = .drop ↔ seen.u32 XdpPartitionInjector.ENABLED_MAP ≠ 0 ∧
        FromPeerOrUnspecified self.srcIp self.srcPort frame) := by
  have hcases := XdpFault.Torn.cases (self.wellFormed_fault host) hsetup h
  rw [show (self.fault host).switchMap = XdpPartitionInjector.ENABLED_MAP from rfl] at hcases
  obtain hoff | rfl := hcases
  · refine ⟨.pass, ?_, iff_of_false (fun hc => by cases hc) fun hboth => hboth.1 hoff⟩
    unfold xdpPartition partitionBody
    rw [if_pos hoff]
  · obtain ⟨action, haction, hdrop⟩ := partition_object self host true frame
    have hon : ((self.fault host).object true).u32 XdpPartitionInjector.ENABLED_MAP ≠ 0 := by
      rw [show XdpPartitionInjector.ENABLED_MAP = (self.fault host).switchMap from rfl,
        XdpFault.u32_switch_object, if_pos rfl]
      exact (by decide : (1 : UInt32) ≠ 0)
    refine ⟨action, haction, hdrop.trans ?_⟩
    rw [and_iff_right rfl, and_iff_right hon]

/-- A UDP packet from `10.10.10.10:9000`. -/
def peerFrame : Frame :=
  List.replicate 12 0 ++ [0x08, 0x00] ++
    [0x45, 0, 0, 28, 0, 0, 0, 0, 64, 17, 0, 0, 10, 10, 10, 10, 10, 0, 0, 2] ++
    [0x23, 0x28, 0, 7, 0, 8, 0, 0]

/-- The switch is read before a `disarm` and everything else after it: the frame is dropped, and it
is one of the peer's. -/
theorem partition_whole_across_disarm :
    let self := XdpPartitionInjector.new "cut" "eth0" (.v4 (Vector.replicate 4 10)) 9000
    ∃ seen, (self.fault .little).Torn
        ((self.fault .little).history [.arm .clear, .disarm .clear] ⟨none, false⟩) seen ∧
      xdpPartition .little seen peerFrame = some .drop ∧
      FromPeerOrUnspecified self.srcIp self.srcPort peerFrame := by
  intro self
  have hsetup : (self.fault .little).SetupsSucceed [.arm .clear, .disarm .clear] := by
    intro env henv w _
    simp only [List.mem_cons, XdpCall.arm.injEq, List.not_mem_nil, or_false, reduceCtorEq] at henv
    rw [henv]
    rfl
  have hdrop : xdpPartition .little ((self.fault .little).object true) peerFrame = some .drop := by
    decide
  have htorn : (self.fault .little).Torn ((self.fault .little).history
      [.arm .clear, .disarm .clear] ⟨none, false⟩) ((self.fault .little).object true) := by
    let after := ((self.fault .little).switchWrite false).apply ((self.fault .little).object true)
    refine ⟨3, (self.fault .little).object true, rfl, rfl, fun mapName hname => ?_, fun _ => ?_⟩
    · exact ⟨4, after, by decide, rfl, (u32_apply hname _).symm⟩
    · exact ⟨4, after, by decide, rfl, rfl⟩
  obtain ⟨action, haction, hiff⟩ := partition_whole_at_any_moment .little self
    [.arm .clear, .disarm .clear] hsetup _ htorn peerFrame
  obtain rfl := Option.some.inj (hdrop.symm.trans haction)
  exact ⟨_, htorn, hdrop, (hiff.mp rfl).2⟩

end Blackswan.Kernel
