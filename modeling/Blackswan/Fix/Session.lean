import Blackswan.Fix.Proxy

/-!
# What a proxied session does to its byte stream

Three results about `relay`, all read off `exists_relay`:

* `relay_segmentation`: the frames and the bytes written depend on the stream, not on how it was
  cut into reads;
* `relay_delivers_messages`: a stream of whole messages is delivered message by message, exactly
  once and in order;
* `relay_price_mutation_reframes`: the rewritten stream falls into as many frames as the original.
-/

namespace Blackswan.Fix

open Lib (Outcome Extracts Residual)
open ProtocolAdapter (intercept)

variable {A : Type} [ProtocolAdapter A] {build : Build} {direction : Direction} {env : RelayEnv}

theorem look_nil : (framer build).look [] = .wait :=
  congrArg verdict (findCompleteMessage_nil build)

theorem look_nil_ne_frame (n : ℕ) : (framer build).look [] ≠ .frame n := by
  rw [look_nil]
  exact fun h => by cases h

/-- A stream whose headers all fit holds finitely many frames. -/
theorem exists_extracts_of_fits {stream : List UInt8}
    (hfits : ∀ b, Residual (framer build) stream b → Fits b) :
    ∃ frames rest, Extracts (framer build) stream frames rest :=
  Lib.exists_extracts fun b _ hres hlook =>
    pos_of_fits (hfits b hres) (verdict_eq_frame_iff.mp hlook)

/-- A session over a stream whose frames are known. -/
theorem exists_relay_of_extracts (direction : Direction) (env : RelayEnv)
    {reads : List (List UInt8)} (hne : ∀ bytes ∈ reads, bytes ≠ []) {stream rest : List UInt8}
    {frames : List (List UInt8)} (hflat : reads.flatten = stream)
    (hext : Extracts (framer build) stream frames rest) (adapter : A) :
    ∃ s bound, (∀ fuel ≥ bound,
        relay build direction env fuel (pollsOf reads) adapter = some s) ∧
      s.delivery = (deliverAll direction env frames ⟨adapter, [], [], [], 0⟩).1 ∧
      ((deliverAll direction env frames (⟨adapter, [], [], [], 0⟩ : Delivery A)).2 = .running →
        (s.status = .running ∧ s.buf = rest) ∨
          s.status = .panicked ∧ (framer build).look rest = .stuck) := by
  refine exists_relay hne look_nil_ne_frame ?_ _
  rw [hflat, List.nil_append]
  exact hext

/-- **Segmentation does not matter.** Let no header that cutting the stream meets overflow. Two
splittings of the stream into non-empty reads give the same frames and the same bytes written.
Where writes succeed and the adapter does not panic on the way, these frames are the ones that
`find_complete_message` cuts off the whole stream. -/
theorem relay_segmentation {stream : List UInt8}
    (hfits : ∀ b, Residual (framer build) stream b → Fits b)
    (reads reads' : List (List UInt8)) (hne : ∀ bytes ∈ reads, bytes ≠ [])
    (hne' : ∀ bytes ∈ reads', bytes ≠ []) (hflat : reads.flatten = stream)
    (hflat' : reads'.flatten = stream) (direction : Direction) (env : RelayEnv) (adapter : A) :
    ∃ frames rest, Extracts (framer build) stream frames rest ∧
      (∀ frames' rest', Extracts (framer build) stream frames' rest' → frames' = frames) ∧
      ∃ s s' bound,
        (∀ fuel ≥ bound, relay build direction env fuel (pollsOf reads) adapter = some s ∧
          relay build direction env fuel (pollsOf reads') adapter = some s') ∧
        s.delivery.frames = s'.delivery.frames ∧ s.delivery.written = s'.delivery.written ∧
        ((∀ i, env.writeAll i = .ok) → Calm direction env.enabled 0 adapter frames →
          s.delivery.frames = frames) := by
  obtain ⟨frames, rest, hext⟩ := exists_extracts_of_fits hfits
  obtain ⟨s, n, hs, hdel, -⟩ := exists_relay_of_extracts direction env hne hflat hext adapter
  obtain ⟨s', n', hs', hdel', -⟩ := exists_relay_of_extracts direction env hne' hflat' hext adapter
  refine ⟨frames, rest, hext, fun _ _ h => (h.unique hext).1, s, s', max n n', ?_, ?_, ?_, ?_⟩
  · intro fuel hfuel
    exact ⟨hs fuel (le_trans (le_max_left _ _) hfuel),
      hs' fuel (le_trans (le_max_right _ _) hfuel)⟩
  · rw [hdel, hdel']
  · rw [hdel, hdel']
  · intro hwrite hcalm
    obtain ⟨-, hframes, -, -⟩ :=
      deliverAll_eq hwrite frames (⟨adapter, [], [], [], 0⟩ : Delivery A) hcalm
    rw [hdel, hframes]
    rfl

/-- One frame: a header with an empty body and its checksum field. -/
def emptyMessage : List UInt8 :=
  [56, 61, 70, SOH, 57, 61, 48, SOH, 49, 48, 61, 49, 52, 53, SOH]

theorem look_emptyMessage (build : Build) : (framer build).look emptyMessage = .frame 15 := by
  rcases build with _ | _ <;> decide

theorem fits_of_residual_emptyMessage {b : List UInt8}
    (h : Residual (framer build) emptyMessage b) : b = emptyMessage ∨ b = [] := by
  induction h with
  | refl => exact Or.inl rfl
  | cut _ hlook ih =>
    rcases ih with rfl | rfl
    · rw [look_emptyMessage, Lib.Verdict.frame.injEq] at hlook
      subst hlook
      exact Or.inr rfl
    · exact absurd hlook (look_nil_ne_frame _)

theorem relay_segmentation_emptyMessage :
    ∃ (s s' : RelayState FixSilentReject) (bound : ℕ), (∀ fuel ≥ bound,
      relay .release .inbound ⟨fun _ => true, fun _ => .ok⟩ fuel
        (pollsOf [emptyMessage]) ⟨⟩ = some s ∧
      relay .release .inbound ⟨fun _ => true, fun _ => .ok⟩ fuel
        (pollsOf [emptyMessage.take 5, emptyMessage.drop 5]) ⟨⟩ = some s') ∧
      s.delivery.written = s'.delivery.written := by
  have hfits : ∀ b, Residual (framer .release) emptyMessage b → Fits b := by
    intro b hb header hread
    rcases fits_of_residual_emptyMessage hb with rfl | rfl
    · have hheader : readHeader emptyMessage = .ok (some (8, 0)) := by decide
      rw [hheader] at hread
      cases hread
      decide
    · cases hread
  obtain ⟨-, -, -, -, s, s', bound, hrun, -, hwritten, -⟩ :=
    relay_segmentation (A := FixSilentReject) hfits [emptyMessage]
      [emptyMessage.take 5, emptyMessage.drop 5] (by decide) (by decide) rfl rfl
      .inbound ⟨fun _ => true, fun _ => .ok⟩ ⟨⟩
  exact ⟨s, s', bound, hrun, hwritten⟩

/-! ## A stream of whole messages -/

theorem length_decisions (enabled : ℕ → Bool) (i : ℕ) (adapter : A)
    (messages : List (List UInt8)) :
    (decisions direction enabled i adapter messages).length = messages.length := by
  induction messages generalizing i adapter with
  | nil => rfl
  | cons message rest ih =>
    rw [decisions]
    split_ifs <;> simp [ih]

theorem extracts_messages {messages : List (List UInt8)}
    (hmsg : ∀ m ∈ messages, findCompleteMessage build m = .ok (some m.length)) :
    Extracts (framer build) messages.flatten messages [] :=
  Lib.extracts_flatten messages (fun m hm => verdict_eq_frame_iff.mpr (hmsg m hm))
    look_nil_ne_frame

/-- **Exactly once and in order.** A stream of whole messages, split into non-empty reads in any
way: the relay writes one contribution per message, consults the adapter once about each message
that finds the flag on and about no other, and leaves its buffer empty. -/
theorem relay_delivers_messages {messages : List (List UInt8)}
    (hmsg : ∀ m ∈ messages, findCompleteMessage build m = .ok (some m.length))
    (reads : List (List UInt8)) (hne : ∀ bytes ∈ reads, bytes ≠ [])
    (hflat : reads.flatten = messages.flatten) (env : RelayEnv)
    (hwrite : ∀ i, env.writeAll i = .ok) (adapter : A)
    (hcalm : Calm direction env.enabled 0 adapter messages) :
    ∃ s bound,
      (∀ fuel ≥ bound, relay build direction env fuel (pollsOf reads) adapter = some s) ∧
      s.status = .running ∧ s.buf = [] ∧ s.delivery.frames = messages ∧
      s.delivery.consulted = (List.range messages.length).filter env.enabled ∧
      (decisions direction env.enabled 0 adapter messages).length = messages.length ∧
      s.delivery.written = (List.zipWith contribution
        (decisions direction env.enabled 0 adapter messages) messages).flatten := by
  obtain ⟨s, bound, hs, hdel, hend⟩ :=
    exists_relay_of_extracts direction env hne hflat (extracts_messages hmsg) adapter
  obtain ⟨hrun, hframes, hconsulted, hwritten⟩ :=
    deliverAll_eq hwrite messages (⟨adapter, [], [], [], 0⟩ : Delivery A) hcalm
  have hempty : s.status = .running ∧ s.buf = [] := by
    rcases hend hrun with h | ⟨-, hstuck⟩
    · exact h
    · rw [look_nil] at hstuck
      cases hstuck
  refine ⟨s, bound, hs, hempty.1, hempty.2, ?_, ?_, length_decisions _ _ _ _, ?_⟩
  · rw [hdel, hframes]
    rfl
  · rw [hdel, hconsulted, List.range_eq_range']
    rfl
  · rw [hdel, hwritten]
    rfl

/-- Two orders through the throttle of a debug build, cut in the middle of the first: one passes. -/
theorem relay_delivers_two_messages :
    ∃ (s : RelayState (FixRateLimitThrottle .debug)) (bound : ℕ), (∀ fuel ≥ bound,
      relay .debug .outbound ⟨fun _ => true, fun _ => .ok⟩ fuel
        (pollsOf [emptyMessage.take 5, emptyMessage.drop 5 ++ emptyMessage]) (.new 1) = some s) ∧
      s.buf = [] ∧ s.delivery.frames = [emptyMessage, emptyMessage] ∧
      s.delivery.consulted = [0, 1] ∧ s.delivery.written = emptyMessage := by
  have hmsg : ∀ m ∈ [emptyMessage, emptyMessage],
      findCompleteMessage .debug m = .ok (some m.length) := by decide
  have hcalm : Calm .outbound (fun _ => true) 0 (.new 1 : FixRateLimitThrottle .debug)
      [emptyMessage, emptyMessage] := by
    unfold Calm
    decide
  obtain ⟨s, bound, hrun, -, hbuf, hframes, hconsulted, -, hwritten⟩ :=
    relay_delivers_messages hmsg
      [emptyMessage.take 5, emptyMessage.drop 5 ++ emptyMessage] (by decide) (by decide)
      ⟨fun _ => true, fun _ => .ok⟩ (fun _ => rfl) _ hcalm
  exact ⟨s, bound, hrun, hbuf, hframes, hconsulted, hwritten⟩

/-! ## The price mutation -/

/-- The message parses as an ExecutionReport that has a price. -/
def IsPricedReport (m : List UInt8) : Prop :=
  ∃ parsed, parse m = .ok parsed ∧ parsed.is TAG_MSG_TYPE MSG_TYPE_EXECUTION_REPORT = true ∧
    (parsed.get TAG_PRICE).isSome = true

/-- What the price mutation makes of one message. -/
def Repriced (price m out : List UInt8) : Prop :=
  (IsPricedReport m ∧ setField m TAG_PRICE price = .ok out) ∨ (¬ IsPricedReport m ∧ out = m)

variable {adapter : FixExecutionReportPriceMutation} {m : List UInt8}

/-- On a priced report that is a frame, the price mutation answers with `set_field`. -/
theorem intercept_of_priced (hm : findCompleteMessage build m = .ok (some m.length))
    (h : IsPricedReport m) : ∃ out, setField m TAG_PRICE adapter.mutatedPrice = .ok out ∧
      adapter.intercept ⟨m, .inbound⟩ = .ok (.mutate out) := by
  obtain ⟨parsed, hp, hreport, hprice⟩ := h
  have hset : ∃ out, setField m TAG_PRICE adapter.mutatedPrice = .ok out := by
    obtain ⟨beginString, hget⟩ := get_begin_of_found hm hp
    unfold setField
    rw [hp]
    dsimp only
    rw [hget]
    exact ⟨_, rfl⟩
  obtain ⟨out, hout⟩ := hset
  refine ⟨out, hout, ?_⟩
  have hnone : (parsed.get TAG_PRICE).isNone = false := by
    rw [← Option.not_isSome, hprice]
    rfl
  unfold FixExecutionReportPriceMutation.intercept interceptInbound
  simp [hp, hreport, hnone, hout]

/-- On every other message it forwards or reports an error. -/
theorem intercept_of_not_priced (adapter : FixExecutionReportPriceMutation)
    (h : ¬ IsPricedReport m) :
    adapter.intercept ⟨m, .inbound⟩ = .ok .forward ∨
      ∃ e, adapter.intercept ⟨m, .inbound⟩ = .err e := by
  unfold FixExecutionReportPriceMutation.intercept interceptInbound
  rcases hp : parse m with e | parsed
  · exact Or.inr ⟨rejected "fix-execution-report-price-mutation" e, by simp⟩
  · have hcond : (!parsed.is TAG_MSG_TYPE MSG_TYPE_EXECUTION_REPORT ||
        (parsed.get TAG_PRICE).isNone) = true := by
      by_contra hc
      rw [Bool.not_eq_true, Bool.or_eq_false_iff, Bool.not_eq_false'] at hc
      refine h ⟨parsed, hp, hc.1, ?_⟩
      rw [← Option.not_isNone, hc.2]
      rfl
    exact Or.inl (by simp [hcond])

/-- The price mutation panics only where `set_field` does. -/
theorem intercept_ne_panic (adapter : FixExecutionReportPriceMutation) (direction : Direction)
    (h : setField m TAG_PRICE adapter.mutatedPrice ≠ .panic) :
    adapter.intercept ⟨m, direction⟩ ≠ .panic := by
  unfold FixExecutionReportPriceMutation.intercept interceptInbound
  dsimp only
  split_ifs with hdirection
  · exact nofun
  · cases parse m with
    | error e => exact nofun
    | ok parsed =>
      dsimp only
      split_ifs with hreport
      · exact nofun
      · cases hset : setField m TAG_PRICE adapter.mutatedPrice with
        | ok out => exact nofun
        | err e => exact nofun
        | panic => exact absurd hset h

theorem intercept_ne_panic_of_found (hm : findCompleteMessage build m = .ok (some m.length))
    (adapter : FixExecutionReportPriceMutation) : adapter.intercept ⟨m, .inbound⟩ ≠ .panic :=
  intercept_ne_panic adapter .inbound
    (setField_ne_panic (fun _ hp => get_begin_of_found hm hp) TAG_PRICE adapter.mutatedPrice)

/-- **The price mutation never panics** on what the framer cut, also where the sum wrapped around
and the cut is anywhere in the message: if that still parses, its first field is tag 8. -/
theorem intercept_found {buf : List UInt8} {n : ℕ}
    (h : findCompleteMessage build buf = .ok (some n)) (direction : Direction)
    (adapter : FixExecutionReportPriceMutation) :
    n ≤ buf.length ∧ adapter.intercept ⟨buf.take n, direction⟩ ≠ .panic ∧
      (∀ tag newValue, setField (buf.take n) tag newValue ≠ .panic) ∧
      ∀ parsed, parse (buf.take n) = .ok parsed → (buf.take n).take 2 = [56, EQ] ∧
        parsed.fields.head? = some (8, ((buf.take n).drop 2).takeWhile (· != SOH)) := by
  have hfirst : ∀ parsed, parse (buf.take n) = .ok parsed → (buf.take n).take 2 = [56, EQ] ∧
      parsed.fields.head? = some (8, ((buf.take n).drop 2).takeWhile (· != SOH)) := by
    intro parsed hp
    obtain ⟨rest, hrest⟩ := begin_of_take_found h hp
    rw [hrest] at hp ⊢
    exact ⟨rfl, head?_fields_of_begin hp⟩
  have hset : ∀ tag newValue, setField (buf.take n) tag newValue ≠ .panic :=
    setField_ne_panic fun parsed hp => ⟨_, get_of_head? (hfirst parsed hp).2⟩
  obtain ⟨header, -, -, hle⟩ := findCompleteMessage_eq_some_iff.mp h
  exact ⟨hle, intercept_ne_panic adapter direction (hset _ _), hset, hfirst⟩

/-- `8=|9=18446744073709551589|`: the sum wraps around to 6, and `8=|9=1` is cut. -/
theorem intercept_found_wrapped :
    let buf : List UInt8 := [56, EQ, SOH, 57, EQ, 49, 56, 52, 52, 54, 55, 52, 52, 48, 55, 51, 55,
      48, 57, 53, 53, 49, 53, 56, 57, SOH]
    parse (buf.take 6) = .ok ⟨[(8, []), (9, [49])]⟩ ∧
      FixExecutionReportPriceMutation.intercept ⟨[55]⟩ ⟨buf.take 6, .inbound⟩ ≠ .panic := by
  intro buf
  have hfound : findCompleteMessage .release buf = .ok (some 6) := by decide
  exact ⟨by decide, (intercept_found hfound .inbound ⟨[55]⟩).2.1⟩

theorem repriced_contribution (hm : findCompleteMessage build m = .ok (some m.length)) :
    Repriced adapter.mutatedPrice m
      (contribution (some (adapter.intercept ⟨m, .inbound⟩)) m) := by
  by_cases h : IsPricedReport m
  · obtain ⟨out, hset, hout⟩ := intercept_of_priced hm h
    rw [hout]
    exact Or.inl ⟨h, hset⟩
  · rcases intercept_of_not_priced adapter h with hf | ⟨e, he⟩
    · rw [hf]
      exact Or.inr ⟨h, rfl⟩
    · rw [he]
      exact Or.inr ⟨h, rfl⟩

/-- The price mutation has no state, so its answers do not depend on the earlier messages. -/
theorem zipWith_decisions (messages : List (List UInt8)) (i : ℕ) :
    List.zipWith contribution (decisions .inbound (fun _ => true) i adapter messages) messages =
      messages.map fun m => contribution (some (adapter.intercept ⟨m, .inbound⟩)) m := by
  induction messages generalizing i with
  | nil => rfl
  | cons message rest ih =>
    rw [decisions, if_pos rfl, List.map_cons, ← ih (i + 1)]
    rfl

theorem found_of_repriced {price out : List UInt8}
    (hm : findCompleteMessage build m = .ok (some m.length))
    (hlen : ∀ out, setField m TAG_PRICE price = .ok out → out.length < 2 ^ 64)
    (h : Repriced price m out) : findCompleteMessage build out = .ok (some out.length) := by
  rcases h with ⟨-, hset⟩ | ⟨-, rfl⟩
  · exact findCompleteMessage_setField build hset (hlen out hset)
  · exact hm

/-- **A mutation never desynchronises the stream.** Of a stream of whole inbound messages the
client cuts as many messages as were sent: `set_field` of the ExecutionReports that have a price,
and the others byte for byte. -/
theorem relay_price_mutation_reframes {messages : List (List UInt8)}
    (hmsg : ∀ m ∈ messages, findCompleteMessage build m = .ok (some m.length))
    (reads : List (List UInt8)) (hne : ∀ bytes ∈ reads, bytes ≠ [])
    (hflat : reads.flatten = messages.flatten) (env : RelayEnv) (hon : ∀ i, env.enabled i = true)
    (hwrite : ∀ i, env.writeAll i = .ok) (adapter : FixExecutionReportPriceMutation)
    (hlen : ∀ m ∈ messages, ∀ out,
      setField m TAG_PRICE adapter.mutatedPrice = .ok out → out.length < 2 ^ 64) :
    ∃ s bound outputs,
      (∀ fuel ≥ bound, relay build .inbound env fuel (pollsOf reads) adapter = some s) ∧
      Extracts (framer build) s.delivery.written outputs [] ∧
      List.Forall₂ (Repriced adapter.mutatedPrice) messages outputs := by
  obtain ⟨s, bound, hs, hdel, -⟩ :=
    exists_relay_of_extracts .inbound env hne hflat (extracts_messages hmsg) adapter
  obtain ⟨-, -, -, hwritten⟩ :=
    deliverAll_eq hwrite messages
      (⟨adapter, [], [], [], 0⟩ : Delivery FixExecutionReportPriceMutation)
      (calm_of_ne_panic .inbound (fun m hm => intercept_ne_panic_of_found (hmsg m hm)) _ _ _)
  have henabled : env.enabled = fun _ => true := funext hon
  rw [henabled, zipWith_decisions, List.nil_append] at hwritten
  refine ⟨s, bound, messages.map fun m => contribution (some (adapter.intercept ⟨m, .inbound⟩)) m,
    hs, ?_, ?_⟩
  · rw [hdel, hwritten]
    refine extracts_messages fun out hout => ?_
    obtain ⟨m, hm, rfl⟩ := List.mem_map.mp hout
    exact found_of_repriced (hmsg m hm) (hlen m hm) (repriced_contribution (hmsg m hm))
  · rw [List.forall₂_map_right_iff]
    exact List.forall₂_same.mpr fun m hm => repriced_contribution (hmsg m hm)

/-- `8=F|9=10|35=8|44=1|10=000|`, an ExecutionReport with a price. -/
def pricedReport : List UInt8 :=
  [56, 61, 70, SOH, 57, 61, 49, 48, SOH, 51, 53, 61, 56, SOH, 52, 52, 61, 49, SOH,
    49, 48, 61, 48, 48, 48, SOH]

/-- The price becomes `7|`, a delimiter in it and all, and the next message is still found. -/
theorem relay_price_mutation_pricedReport :
    ∃ (s : RelayState FixExecutionReportPriceMutation) (bound : ℕ) (outputs : List (List UInt8)),
      (∀ fuel ≥ bound, relay .release .inbound ⟨fun _ => true, fun _ => .ok⟩ fuel
        (pollsOf [pricedReport ++ emptyMessage]) ⟨[55, SOH]⟩ = some s) ∧
      Extracts (framer .release) s.delivery.written outputs [] ∧ outputs.length = 2 := by
  have hmsg : ∀ m ∈ [pricedReport, emptyMessage],
      findCompleteMessage .release m = .ok (some m.length) := by decide
  have hlen : ∀ m ∈ [pricedReport, emptyMessage], ∀ out,
      setField m TAG_PRICE [55, SOH] = .ok out → out.length < 2 ^ 64 := by
    intro m hm out hout
    have hsmall : ∀ m ∈ [pricedReport, emptyMessage],
        (setField m TAG_PRICE [55, SOH]).map (fun out => decide (out.length < 100)) = .ok true := by
      decide
    have hm' := hsmall m hm
    rw [hout, Outcome.map_ok, Outcome.ok.injEq, decide_eq_true_eq] at hm'
    omega
  obtain ⟨s, bound, outputs, hrun, hext, hpairs⟩ :=
    relay_price_mutation_reframes hmsg [pricedReport ++ emptyMessage] (by decide) (by decide)
      ⟨fun _ => true, fun _ => .ok⟩ (fun _ => rfl) (fun _ => rfl) ⟨[55, SOH]⟩ hlen
  exact ⟨s, bound, outputs, hrun, hext, hpairs.length_eq.symm⟩

end Blackswan.Fix
