import Blackswan.Fix.Header
import Blackswan.Fix.Proxy

/-!
# The drain loop and the stream it reads

`relay` reads and then cuts messages off its buffer `while let Ok(Some(len))`. Two things can go
wrong with that loop, one for each kind of number and bytes a peer can send:

1. `drain_counts_exactly`: a declared length close to `2 ^ 64` traps or wraps around. As long as no
   header in the buffer does that, every pass shortens the buffer, so the loop ends; a length that
   wraps around to zero makes it run forever (`drain_forever`).
2. `waits_in_sync_iff`: an `Err` ends the loop like `Ok(None)` does, and the relay reads on.
   It waits for the rest of a message exactly if the stream it has read is in sync.
-/

namespace Blackswan.Fix

open Lib (Outcome Turn Ends Passes loop Extracts)

variable {A : Type} [ProtocolAdapter A] {build : Build} {direction : Direction} {env : RelayEnv}
  {s s' : RelayState A} {fuel : ℕ}

/-- A pass that ends the loop with the thread running has found nothing to cut. -/
theorem drainOne_eq_done (h : drainOne build direction env s = .done s')
    (hrun : s'.status = .running) :
    s' = s ∧ (findCompleteMessage build s.buf = .ok none ∨
      ∃ e, findCompleteMessage build s.buf = .err e) := by
  unfold drainOne at h
  rcases hf : findCompleteMessage build s.buf with (_ | n) | e | _ <;> rw [hf] at h
  · cases h
    exact ⟨rfl, Or.inl rfl⟩
  · dsimp only at h
    rcases hd : deliver direction env (s.buf.take n) s.delivery with ⟨d, _ | _ | _⟩ <;>
      rw [hd] at h <;> cases h <;> cases hrun
  · cases h
    exact ⟨rfl, Or.inr ⟨e, rfl⟩⟩
  · cases h
    cases hrun

/-! ## Termination -/

/-- A pass that asks for another one has cut a message. -/
theorem drainOne_eq_again (h : drainOne build direction env s = .again s') :
    ∃ n, findCompleteMessage build s.buf = .ok (some n) ∧ s'.buf = s.buf.drop n ∧
      s'.status = .running := by
  unfold drainOne at h
  rcases hf : findCompleteMessage build s.buf with (_ | n) | e | _ <;> rw [hf] at h
  · cases h
  · dsimp only at h
    split at h <;> cases h
    exact ⟨n, rfl, rfl, rfl⟩
  · cases h
  · cases h

theorem drainOne_shrinks (hfits : SumFits s.buf) (h : drainOne build direction env s = .again s') :
    s'.buf.length < s.buf.length := by
  obtain ⟨n, hn, hbuf, -⟩ := drainOne_eq_again h
  obtain ⟨-, -, -, hmin, hmax⟩ := (countsExactly_iff.mpr hfits).2 build n hn
  rw [hbuf, List.length_drop]
  omega

/-- **When lengths are exact and the drain loop ends.** A call counts exactly if and only if the
sum for the header at the front of its buffer stays below `2 ^ 64`. In a run of the drain loop in
which that holds of every buffer it looks at, every pass shortens the buffer, and the loop ends. -/
theorem drain_counts_exactly (build : Build) :
    (∀ b, CountsExactly b ↔
      ∀ v ds more n, HasHeader b v ds more n → (headerBytes v ds).length + n + 7 < 2 ^ 64) ∧
    ∀ (A : Type) [ProtocolAdapter A] (direction : Direction) (env : RelayEnv) (s : RelayState A),
      (∀ t, Passes (drainOne build direction env) s t → SumFits t.buf) →
      (∀ t t', Passes (drainOne build direction env) s t →
        drainOne build direction env t = .again t' → t'.buf.length < t.buf.length) ∧
      ∃ r, Ends (drainOne build direction env) s r := by
  refine ⟨fun b => countsExactly_iff, fun A _ direction env s hfits => ?_⟩
  have hshrinks : ∀ t t', Passes (drainOne build direction env) s t →
      drainOne build direction env t = .again t' → t'.buf.length < t.buf.length :=
    fun t t' hpass hagain => drainOne_shrinks (hfits t hpass) hagain
  exact ⟨hshrinks, Lib.exists_ends_of_measure (fun t => t.buf.length) hshrinks⟩

/-- `8=F|9=0|10=099|`. -/
def shortMessage : List UInt8 :=
  [56, EQ, 70, SOH, 57, EQ, 48, SOH, 49, 48, EQ, 48, 57, 57, SOH]

theorem sumFits_shortMessage : SumFits shortMessage := by
  refine fits_iff_sumFits.mp fun header hr => ?_
  have hheader : readHeader shortMessage = .ok (some (8, 0)) := by decide
  rw [hheader] at hr
  cases hr
  decide

theorem sumFits_nil : SumFits [] := fits_iff_sumFits.mp fun _ hr => by cases hr

/-- A buffer with one message is drained. -/
theorem drain_shortMessage :
    ∃ r, Ends (drainOne .release .inbound ⟨fun _ => true, fun _ => .ok⟩)
      ⟨shortMessage, ⟨(⟨⟩ : FixSilentReject), [], [], [], 0⟩, .running⟩ r := by
  refine ((drain_counts_exactly .release).2 _ _ _ _ fun t ht => ?_).2
  have hbuf : t.buf = shortMessage ∨ t.buf = [] := by
    induction ht with
    | refl => exact Or.inl rfl
    | again _ hagain ih =>
      obtain ⟨n, hn, hdrop, -⟩ := drainOne_eq_again hagain
      rcases ih with hmsg | hnil
      · rw [hmsg, show findCompleteMessage .release shortMessage = .ok (some 15) by decide] at hn
        cases hn
        exact Or.inr (by rw [hdrop, hmsg]; rfl)
      · rw [hnil] at hn
        cases hn
  rcases hbuf with hmsg | hnil
  · rw [hmsg]
    exact sumFits_shortMessage
  · rw [hnil]
    exact sumFits_nil

/-- `8=|9=18446744073709551583|`. -/
def wrappingHeader : List UInt8 :=
  [56, EQ, SOH, 57, EQ, 49, 56, 52, 52, 54, 55, 52, 52, 48, 55, 51, 55, 48, 57, 53, 53, 49, 53, 56,
    51, SOH]

/-- A declared length for which the sum is `2 ^ 64`: it traps in a debug build, and in a release
build a message of no bytes is found, again and again. -/
theorem drain_forever :
    findCompleteMessage .debug wrappingHeader = .panic ∧
      findCompleteMessage .release wrappingHeader = .ok (some 0) ∧
      ∀ r, ¬ Ends (drainOne .release .inbound ⟨fun _ => false, fun _ => .ok⟩)
        ⟨wrappingHeader, ⟨(⟨⟩ : FixSilentReject), [], [], [], 0⟩, .running⟩ r := by
  have hzero : findCompleteMessage .release wrappingHeader = .ok (some 0) := by decide
  refine ⟨by decide, hzero, fun r => ?_⟩
  refine Lib.not_ends_of_again (fun t => t.buf = wrappingHeader ∧ t.status = .running)
    ⟨rfl, rfl⟩ ?_ r
  rintro ⟨buf, d, status⟩ ⟨rfl, rfl⟩
  have hone := drainOne_of_frame .inbound ⟨fun _ => false, fun _ => .ok⟩
    (verdict_eq_frame_iff.mpr hzero) d
  rw [deliver_disabled (fun _ => rfl) (wrappingHeader.take 0) rfl] at hone
  exact ⟨_, hone, rfl, rfl⟩

/-! ## Staying in sync -/

/-- The bytes that the reads bring. -/
def bytesRead (polls : List Poll) : List UInt8 :=
  polls.flatMap fun poll =>
    match poll.read with
    | .ok bytes => bytes
    | _ => []

/-- Cutting messages off the stream ends at bytes that framing refuses. -/
def OutOfSync (build : Build) (stream : List UInt8) : Prop :=
  ∃ frames rest e, Extracts (framer build) stream frames rest ∧
    findCompleteMessage build rest = .err e

/-- What the buffer is in terms of the stream: its messages have been cut, and looking at the rest
does not panic. -/
def Remains (build : Build) (stream buf : List UInt8) : Prop :=
  (∃ frames, Extracts (framer build) stream frames buf) ∧ findCompleteMessage build buf ≠ .panic

theorem remains_of_not_found {b : List UInt8}
    (hnone : ∀ n, findCompleteMessage build b ≠ .ok (some n))
    (hpanic : findCompleteMessage build b ≠ .panic) : Remains build b b :=
  ⟨⟨[], .stop fun n hlook => hnone n (verdict_eq_frame_iff.mp hlook)⟩, hpanic⟩

/-- The buffer from which the remaining bytes of the stream are cut. -/
theorem Remains.append {stream buf bytes buf' : List UInt8} (h : Remains build stream buf)
    (h' : Remains build (buf ++ bytes) buf') : Remains build (stream ++ bytes) buf' := by
  obtain ⟨⟨frames, hext⟩, -⟩ := h
  obtain ⟨⟨frames', hext'⟩, hpanic⟩ := h'
  exact ⟨⟨frames ++ frames', hext.append hext'⟩, hpanic⟩

/-- A drain loop that ends with the thread running has cut the messages of its buffer. -/
theorem remains_of_drain (hs : s.status = .running)
    (h : Ends (drainOne build direction env) s s') (hrun : s'.status = .running) :
    Remains build s.buf s'.buf := by
  obtain ⟨fuel, hloop⟩ := h
  induction fuel generalizing s with
  | zero => cases hloop
  | succ fuel ih =>
    rcases hone : drainOne build direction env s with t | r
    · rw [Lib.loop_succ_again hone] at hloop
      obtain ⟨n, hn, hbuf, ht⟩ := drainOne_eq_again hone
      obtain ⟨⟨frames, hext⟩, hpanic⟩ := ih ht hloop
      rw [hbuf] at hext
      exact ⟨⟨_, .cut (verdict_eq_frame_iff.mpr hn) hext⟩, hpanic⟩
    · rw [Lib.loop_succ_done hone] at hloop
      cases hloop
      obtain ⟨rfl, hnone | ⟨e, herr⟩⟩ := drainOne_eq_done hone hrun
      · exact remains_of_not_found (by rw [hnone]; exact nofun) (by rw [hnone]; exact nofun)
      · exact remains_of_not_found (by rw [herr]; exact nofun) (by rw [herr]; exact nofun)

/-- **A whole session**: while the relay goes on, its buffer is what remains of the stream. -/
theorem remains_of_relayLoop {polls : List Poll} {stream : List UInt8}
    (hs : s.status = .running) (hremains : Remains build stream s.buf)
    (h : relayLoop build direction env fuel polls s = some s') (hrun : s'.status = .running) :
    Remains build (stream ++ bytesRead polls) s'.buf := by
  induction polls generalizing s stream with
  | nil =>
    cases h
    rw [show bytesRead [] = [] from rfl, List.append_nil]
    exact hremains
  | cons poll polls ih =>
    obtain ⟨shutdown, read⟩ := poll
    rw [show bytesRead (⟨shutdown, read⟩ :: polls) = bytesRead [⟨shutdown, read⟩] ++
      bytesRead polls by simp [bytesRead], ← List.append_assoc]
    rcases shutdown with _ | _
    · rcases read with (_ | ⟨x, bytes⟩) | _ | _
      · cases h
        cases hrun
      · rcases hloop : loop (drainOne build direction env) fuel
          { s with buf := s.buf ++ x :: bytes } with _ | t
        · simp [relayLoop, hloop] at h
        · by_cases ht : t.status = .running
          · rw [relayLoop_cons_running (List.cons_ne_nil x bytes) polls hloop ht] at h
            refine ih ht ?_ h
            rw [show bytesRead [⟨false, .ok (x :: bytes)⟩] = x :: bytes by simp [bytesRead]]
            exact hremains.append (remains_of_drain (s := { s with buf := s.buf ++ x :: bytes }) hs
              ⟨fuel, hloop⟩ ht)
          · rw [relayLoop_cons_stopped (List.cons_ne_nil x bytes) polls hloop ht] at h
            cases h
            exact absurd hrun ht
      · refine ih hs ?_ h
        rw [show bytesRead [⟨false, .wouldBlock⟩] = [] from rfl, List.append_nil]
        exact hremains
      · cases h
        cases hrun
    · cases h
      cases hrun

/-- **Waiting in sync.** In every state in which the relay is about to read again, framing waits
for the rest of a message exactly if the stream read so far is in sync. -/
theorem waits_in_sync_iff {polls : List Poll} {adapter : A}
    (h : relay build direction env fuel polls adapter = some s) (hrun : s.status = .running) :
    findCompleteMessage build s.buf = .ok none ↔ ¬ OutOfSync build (bytesRead polls) := by
  have hstart : Remains build [] (RelayState.new adapter).buf :=
    remains_of_not_found (by exact nofun) (by exact nofun)
  obtain ⟨⟨frames, hext⟩, hpanic⟩ := remains_of_relayLoop rfl hstart h hrun
  rw [List.nil_append] at hext
  constructor
  · rintro hnone ⟨frames', rest, e, hext', herr⟩
    obtain ⟨-, rfl⟩ := hext.unique hext'
    rw [hnone] at herr
    cases herr
  · intro hsync
    rcases hf : findCompleteMessage build s.buf with (_ | n) | e | _
    · rfl
    · exact absurd (verdict_eq_frame_iff.mpr hf) (hext.look_rest n)
    · exact absurd ⟨frames, s.buf, e, hext, hf⟩ hsync
    · exact absurd hf hpanic

/-- One message in two reads. -/
theorem in_sync_shortMessage :
    ¬ OutOfSync .release (bytesRead (pollsOf [shortMessage.take 9, shortMessage.drop 9])) := by
  have hrelay : ∃ s, relay .release .inbound ⟨fun _ => false, fun _ => .ok⟩ 2
      (pollsOf [shortMessage.take 9, shortMessage.drop 9]) (⟨⟩ : FixSilentReject) = some s ∧
      s.status = .running ∧ s.buf = [] := ⟨_, rfl, rfl, rfl⟩
  obtain ⟨s, hs, hrun, hbuf⟩ := hrelay
  refine (waits_in_sync_iff hs hrun).mp ?_
  rw [hbuf]
  rfl

/-- A stream that starts with `XX`: framing refuses it, and the relay keeps reading and
buffering. -/
theorem reads_on_out_of_sync :
    ∃ s s' : RelayState FixSilentReject,
      relay .release .inbound ⟨fun _ => false, fun _ => .ok⟩ 1 (pollsOf [[88, 88]]) ⟨⟩ = some s ∧
      s.status = .running ∧ findCompleteMessage .release s.buf = .err .malformedTag ∧
      relay .release .inbound ⟨fun _ => false, fun _ => .ok⟩ 1
        (pollsOf [[88, 88], shortMessage]) ⟨⟩ = some s' ∧
      s'.status = .running ∧ s'.buf = [88, 88] ++ shortMessage :=
  ⟨_, _, rfl, rfl, rfl, rfl, rfl, rfl⟩

end Blackswan.Fix
