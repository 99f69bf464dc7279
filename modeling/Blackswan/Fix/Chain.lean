import Blackswan.Fix.Directed
import Blackswan.Fix.Rewrite
import Blackswan.Fix.Session

/-!
# Proxies in series

Several faults on one FIX connection are several proxies in series: what one writes is what the
next one reads, cut into reads in whatever way. `effect` is what an armed adapter does to one
inbound message, and `Passes` what an armed proxy does to a stream.

1. `passes_messages`: a proxy turns a stream of whole messages into the effects on them.
2. `dropped_effect`: the tags that the dropping adapters look at survive the price mutation. So
   the effects of two adapters commute (`effect_comm`) and repeat without effect (`effect_absorb`).
3. `proxies_commute` and `last_proxy_wins` lift this to streams, `dropping_session` says what a
   dropping fault leaves of one.
-/

namespace Blackswan.Fix

open Lib (Outcome Extracts)
open ProtocolAdapter (intercept)

variable {build : Build} {m out price : List UInt8}

/-! ## The effect on one message -/

/-- What is passed on of a message after an answer of the adapter. -/
def passedOn (answer : Outcome HarnessError InterceptAction) (m : List UInt8) :
    Option (List UInt8) :=
  match answer with
  | .ok .drop => none
  | .ok (.mutate bytes) => some bytes
  | _ => some m

/-- What reaches the client of an inbound message while the fault is enabled. -/
def effect (adapter : FixAdapter build) (m : List UInt8) : Option (List UInt8) :=
  passedOn (intercept adapter ⟨m, .inbound⟩).1 m

/-- The adapter drops messages with these fields. -/
def drops : FixAdapter build → FixMessage → Bool
  | .silentReject _, parsed => FixSilentReject.isRejection parsed
  | .ackWithoutExecution _, parsed =>
    parsed.is TAG_MSG_TYPE MSG_TYPE_EXECUTION_REPORT && FixAckWithoutExecution.isFill parsed
  | _, _ => false

/-- The adapter drops this message. One that cannot be parsed is never dropped. -/
def dropped (adapter : FixAdapter build) (m : List UInt8) : Bool :=
  match parse m with
  | .error _ => false
  | .ok parsed => drops adapter parsed

def FixAdapter.price? : FixAdapter build → Option (List UInt8)
  | .executionReportPriceMutation adapter => some adapter.mutatedPrice
  | _ => none

theorem FixAdapter.eq_of_price? {adapter : FixAdapter build} (h : adapter.price? = some price) :
    adapter = .executionReportPriceMutation ⟨price⟩ := by
  cases adapter with
  | executionReportPriceMutation adapter =>
    obtain rfl : adapter.mutatedPrice = price := Option.some.inj h
    rfl
  | silentReject _ => cases h
  | ackWithoutExecution _ => cases h
  | rateLimitThrottle _ => cases h

/-- The adapters that drop: parse, and drop what has the fields. -/
theorem passedOn_interceptInbound (name : String) (m : List UInt8) (drop : FixMessage → Bool)
    {decideOn : FixMessage → Outcome HarnessError InterceptAction}
    (h : ∀ parsed, decideOn parsed = .ok (if drop parsed then .drop else .forward)) :
    passedOn (interceptInbound name ⟨m, .inbound⟩ decideOn) m =
      if (match parse m with
        | .error _ => false
        | .ok parsed => drop parsed) then none else some m := by
  unfold interceptInbound
  rw [if_neg (fun hc => hc rfl)]
  dsimp only
  cases parse m with
  | error e => rfl
  | ok parsed =>
    dsimp only
    rw [h parsed]
    by_cases hdrop : drop parsed = true
    · rw [if_pos hdrop, if_pos hdrop]
      rfl
    · rw [if_neg hdrop, if_neg hdrop]
      rfl

/-- An adapter that changes no price drops a message or leaves it alone. -/
theorem effect_eq {adapter : FixAdapter build} (h : adapter.price? = none) (m : List UInt8) :
    effect adapter m = if dropped adapter m then none else some m := by
  cases adapter with
  | silentReject adapter => exact passedOn_interceptInbound _ m _ fun _ => rfl
  | ackWithoutExecution adapter =>
    refine passedOn_interceptInbound _ m _ fun parsed => ?_
    cases hreport : parsed.is TAG_MSG_TYPE MSG_TYPE_EXECUTION_REPORT with
    | true =>
      rw [Bool.not_true, if_neg Bool.false_ne_true, drops, hreport, Bool.true_and]
    | false =>
      rw [Bool.not_false, if_pos rfl, drops, hreport, Bool.false_and, if_neg Bool.false_ne_true]
  | rateLimitThrottle adapter =>
    unfold dropped
    cases parse m <;> rfl
  | executionReportPriceMutation adapter => cases h

/-- The price mutation answers with what `set_field` makes of a priced report. -/
theorem effect_of_setField {adapter : FixAdapter build} (h : adapter.price? = some price)
    (hpriced : IsPricedReport m) (hset : setField m TAG_PRICE price = .ok out) :
    effect adapter m = some out := by
  obtain rfl := FixAdapter.eq_of_price? h
  obtain ⟨parsed, hp, hreport, hprice⟩ := hpriced
  have hnone : (parsed.get TAG_PRICE).isNone = false := by
    rw [← Option.not_isSome, hprice]
    rfl
  have hintercept : FixExecutionReportPriceMutation.intercept ⟨price⟩ ⟨m, .inbound⟩ =
      .ok (.mutate out) := by
    unfold FixExecutionReportPriceMutation.intercept interceptInbound
    simp [hp, hreport, hnone, hset]
  exact congrArg (passedOn · m) hintercept

/-- The price mutation rewrites the priced reports and leaves the other messages alone. -/
theorem effect_price {adapter : FixAdapter build} (h : adapter.price? = some price)
    (hm : findCompleteMessage build m = .ok (some m.length)) :
    (IsPricedReport m ∧ ∃ out, setField m TAG_PRICE price = .ok out ∧
        effect adapter m = some out) ∨ ¬ IsPricedReport m ∧ effect adapter m = some m := by
  by_cases hpriced : IsPricedReport m
  · have hparsed := hpriced
    obtain ⟨parsed, hp, -, -⟩ := hparsed
    obtain ⟨beginString, hget⟩ := get_begin_of_found hm hp
    have hset := setField_eq hp hget TAG_PRICE price
    exact Or.inl ⟨hpriced, _, hset, effect_of_setField h hpriced hset⟩
  · refine Or.inr ⟨hpriced, ?_⟩
    obtain rfl := FixAdapter.eq_of_price? h
    rcases intercept_of_not_priced ⟨price⟩ hpriced with hf | ⟨e, he⟩
    · exact congrArg (passedOn · m) hf
    · exact congrArg (passedOn · m) he

/-! ## What a rewrite leaves alone -/

/-- The first value of any other tag stays what it was. -/
theorem find?_overwrite {tag t : ℕ} (ht : ¬ IsStructural t) (hne : t ≠ tag) (v : List UInt8)
    (fields : List (ℕ × List UInt8)) :
    (overwrite tag v fields).find? (fun field => field.1 == t) =
      fields.find? fun field => field.1 == t := by
  induction fields with
  | nil => rfl
  | cons field fields ih =>
    rw [overwrite_cons, List.find?_append, ih, List.find?_cons]
    by_cases hfield : field.1 = t
    · obtain ⟨t', value⟩ := field
      obtain rfl : t' = t := hfield
      have hkept : overwrite tag v [(t', value)] = [(t', value)] := by
        simp [overwrite, ht, hne]
      rw [hkept, List.find?_cons, beq_self_eq_true]
      rfl
    · have hskipped : (overwrite tag v [field]).find? (fun field => field.1 == t) = none := by
        rw [List.find?_eq_none]
        intro f hf
        obtain ⟨g, hg, rfl⟩ := List.mem_map.mp hf
        obtain rfl := List.mem_singleton.mp (List.mem_of_mem_filter hg)
        simpa using hfield
      rw [hskipped, beq_false_of_ne hfield]
      rfl

theorem get_written {tag t : ℕ} (ht : ¬ IsStructural t) (hne : t ≠ tag) (v beginString : List UInt8)
    (fields : List (ℕ × List UInt8)) :
    FixMessage.get ⟨written beginString (overwrite tag v fields)⟩ t =
      FixMessage.get ⟨fields⟩ t := by
  have h8 : (8 == t) = false := beq_false_of_ne fun h => ht (Or.inl h.symm)
  have h9 : (9 == t) = false := beq_false_of_ne fun h => ht (Or.inr (Or.inl h.symm))
  have h10 : (10 == t) = false := beq_false_of_ne fun h => ht (Or.inr (Or.inr h.symm))
  unfold FixMessage.get written
  dsimp only
  rw [List.find?_cons, h8, List.find?_cons, h9, List.find?_append, find?_overwrite ht hne,
    List.find?_cons, h10, List.find?_nil, Option.or_none]

/-- A rewritten price leaves the tags alone that say what kind of message this is. -/
theorem drops_written (adapter : FixAdapter build) (v beginString : List UInt8)
    (parsed : FixMessage) :
    drops adapter ⟨written beginString (overwrite TAG_PRICE v parsed.fields)⟩ =
      drops adapter parsed := by
  have his (t : ℕ) (ht : t = TAG_MSG_TYPE ∨ t = TAG_ORD_STATUS ∨ t = TAG_EXEC_TYPE)
      (expected : List UInt8) :
      FixMessage.is ⟨written beginString (overwrite TAG_PRICE v parsed.fields)⟩ t expected =
        parsed.is t expected := by
    unfold FixMessage.is
    rw [get_written]
    · rcases ht with rfl | rfl | rfl <;> decide
    · rcases ht with rfl | rfl | rfl <;> decide
  cases adapter with
  | silentReject _ =>
    simp only [drops, FixSilentReject.isRejection, his TAG_MSG_TYPE (Or.inl rfl),
      his TAG_ORD_STATUS (Or.inr (Or.inl rfl)), his TAG_EXEC_TYPE (Or.inr (Or.inr rfl))]
  | ackWithoutExecution _ =>
    simp only [drops, FixAckWithoutExecution.isFill, his TAG_MSG_TYPE (Or.inl rfl),
      his TAG_ORD_STATUS (Or.inr (Or.inl rfl)), his TAG_EXEC_TYPE (Or.inr (Or.inr rfl))]
  | rateLimitThrottle _ => rfl
  | executionReportPriceMutation _ => rfl

/-- A priced report after the rewrite of its price. -/
theorem parse_repriced (hm : findCompleteMessage build m = .ok (some m.length))
    (hprice : SOH ∉ price) {parsed : FixMessage} (hp : parse m = .ok parsed)
    (hset : setField m TAG_PRICE price = .ok out) :
    ∃ beginString, SOH ∉ beginString ∧
      out = wire (written beginString (overwrite TAG_PRICE price parsed.fields)) ∧
      parse out = .ok ⟨written beginString (overwrite TAG_PRICE price parsed.fields)⟩ := by
  obtain ⟨beginString, hget⟩ := get_begin_of_found hm hp
  have hbegin := notMem_value_of_parse hp hget
  have hout : out = wire (written beginString (overwrite TAG_PRICE price parsed.fields)) :=
    Outcome.ok.inj (hset.symm.trans (setField_eq hp hget TAG_PRICE price))
  refine ⟨beginString, hbegin, hout, ?_⟩
  rw [hout]
  exact parse_written hbegin
    (wellFormedField_overwrite hprice (wellFormedField_of_parse hp) TAG_PRICE)

/-- **What an adapter drops does not depend on another one before it.** -/
theorem dropped_effect (adapter before : FixAdapter build)
    (hprice : ∀ price, before.price? = some price → SOH ∉ price)
    (hm : findCompleteMessage build m = .ok (some m.length)) (h : effect before m = some out) :
    dropped adapter out = dropped adapter m := by
  cases hb : before.price? with
  | none =>
    rw [effect_eq hb] at h
    split_ifs at h
    cases h
    rfl
  | some price =>
    rcases effect_price hb hm with ⟨⟨parsed, hp, -, -⟩, out', hset, heffect⟩ | ⟨-, heffect⟩
    · obtain rfl : out' = out := Option.some.inj (heffect.symm.trans h)
      obtain ⟨beginString, -, -, hparse⟩ := parse_repriced hm (hprice price hb) hp hset
      unfold dropped
      rw [hp, hparse]
      exact drops_written adapter price beginString parsed
    · obtain rfl : m = out := Option.some.inj (heffect.symm.trans h)
      rfl

/-! ## Two effects -/

/-- An adapter that only drops can come before or after any other one. -/
theorem bind_effect_comm {adapter : FixAdapter build} (hdrop : adapter.price? = none)
    (other : FixAdapter build) (hprice : ∀ price, other.price? = some price → SOH ∉ price)
    (hm : findCompleteMessage build m = .ok (some m.length)) :
    (effect adapter m).bind (effect other) = (effect other m).bind (effect adapter) := by
  rw [effect_eq hdrop]
  cases hother : effect other m with
  | none =>
    split_ifs
    · rfl
    · exact hother
  | some out =>
    rw [Option.bind_some, effect_eq hdrop out, dropped_effect adapter other hprice hm hother]
    split_ifs
    · rfl
    · exact hother

/-- **The effects of two adapters commute**, unless they write different prices. -/
theorem effect_comm (a b : FixAdapter build)
    (hprice : ∀ price, a.price? = some price ∨ b.price? = some price → SOH ∉ price)
    (hsame : ∀ p q, a.price? = some p → b.price? = some q → p = q)
    (hm : findCompleteMessage build m = .ok (some m.length)) :
    (effect a m).bind (effect b) = (effect b m).bind (effect a) := by
  cases ha : a.price? with
  | none => exact bind_effect_comm ha b (fun price h => hprice price (Or.inr h)) hm
  | some p =>
    cases hb : b.price? with
    | none => exact (bind_effect_comm hb a (fun price h => hprice price (Or.inl h)) hm).symm
    | some q =>
      rw [FixAdapter.eq_of_price? ha, FixAdapter.eq_of_price? hb, hsame p q ha hb]

theorem interceptInbound_ne_panic (name : String) (msg : RawMessage)
    {decideOn : FixMessage → Outcome HarnessError InterceptAction}
    (h : ∀ parsed, decideOn parsed ≠ .panic) : interceptInbound name msg decideOn ≠ .panic := by
  unfold interceptInbound
  split_ifs
  · exact fun hc => by cases hc
  · cases parse msg.bytes with
    | error e => exact fun hc => by cases hc
    | ok parsed => exact h parsed

/-- No adapter of the crate panics on an inbound frame. -/
theorem inbound_ne_panic (hm : findCompleteMessage build m = .ok (some m.length))
    (adapter : FixAdapter build) : (intercept adapter ⟨m, .inbound⟩).1 ≠ .panic := by
  cases adapter with
  | silentReject adapter =>
    show FixSilentReject.intercept ⟨m, .inbound⟩ ≠ .panic
    exact interceptInbound_ne_panic _ _ fun parsed => fun hc => by cases hc
  | ackWithoutExecution adapter =>
    show FixAckWithoutExecution.intercept ⟨m, .inbound⟩ ≠ .panic
    unfold FixAckWithoutExecution.intercept
    refine interceptInbound_ne_panic _ _ fun parsed => ?_
    split_ifs <;> exact fun hc => by cases hc
  | rateLimitThrottle adapter => exact fun hc => by cases hc
  | executionReportPriceMutation adapter => exact intercept_ne_panic_of_found hm adapter

/-- What the inbound messages from the `i`-th on come to, message by message: no adapter of the
crate is changed by them. -/
theorem due_inbound (enabled : ℕ → Bool) (adapter : FixAdapter build)
    (messages : List (List UInt8)) (i : ℕ) :
    due .inbound enabled i adapter messages = ((messages.zipIdx i).filterMap fun p =>
      if enabled p.2 then effect adapter p.1 else some p.1).flatten := by
  induction messages generalizing i with
  | nil => rfl
  | cons m rest ih =>
    rw [due_cons, List.zipIdx_cons, List.filterMap_cons]
    by_cases hon : enabled i = true
    · have hanswer : answer .inbound (enabled i) adapter m =
          (some (intercept adapter ⟨m, .inbound⟩).1, adapter) := by
        rw [answer, if_pos hon, FixAdapter.intercept_inbound]
      have hcontribution : contribution (some (intercept adapter ⟨m, .inbound⟩).1) m =
          (effect adapter m).getD [] := by
        unfold contribution effect passedOn
        rcases (intercept adapter ⟨m, .inbound⟩).1 with (_ | _ | _ | _) | _ | _ <;> rfl
      rw [hanswer, hcontribution, ih, if_pos hon]
      cases effect adapter m <;> rfl
    · have hanswer : answer .inbound (enabled i) adapter m = (none, adapter) := by
        rw [answer, if_neg hon]
      rw [hanswer, ih, if_neg hon]
      rfl

/-- **An inbound stream of whole messages**, with any flags and however it is cut into reads. -/
theorem exists_relay_inbound {messages : List (List UInt8)}
    (hmsg : ∀ m ∈ messages, findCompleteMessage build m = .ok (some m.length))
    {reads : List (List UInt8)} (hne : ∀ bytes ∈ reads, bytes ≠ [])
    (hflat : reads.flatten = messages.flatten) (enabled : ℕ → Bool)
    (adapter : FixAdapter build) :
    ∃ s bound, (∀ fuel ≥ bound, relay build .inbound ⟨enabled, fun _ => .ok⟩ fuel
        (pollsOf reads) adapter = some s) ∧
      s.status = .running ∧ s.buf = [] ∧
      s.delivery.written = due .inbound enabled 0 adapter messages := by
  obtain ⟨s, bound, hs, hdel, hend⟩ := exists_relay_of_extracts .inbound
    ⟨enabled, fun _ => .ok⟩ hne hflat (extracts_messages hmsg) adapter
  have hwrite : ∀ i, (⟨enabled, fun _ => .ok⟩ : RelayEnv).writeAll i = .ok := fun _ => rfl
  obtain ⟨hrun, -, -, hwritten⟩ := deliverAll_eq hwrite messages
    (⟨adapter, [], [], [], 0⟩ : Delivery (FixAdapter build))
    (calm_of_ne_panic .inbound (fun m hm => inbound_ne_panic (hmsg m hm)) _ _ _)
  refine ⟨s, bound, hs, ?_, ?_, ?_⟩
  · rcases hend hrun with h | ⟨-, hstuck⟩
    · exact h.1
    · rw [look_nil] at hstuck
      cases hstuck
  · rcases hend hrun with h | ⟨-, hstuck⟩
    · exact h.2
    · rw [look_nil] at hstuck
      cases hstuck
  · rw [hdel, hwritten]
    rfl

/-- An armed proxy turns `stream` into `out`, however the stream is cut into reads. -/
def Passes (adapter : FixAdapter build) (stream out : List UInt8) : Prop :=
  ∀ reads : List (List UInt8), (∀ bytes ∈ reads, bytes ≠ []) → reads.flatten = stream →
    ∃ s bound, (∀ fuel ≥ bound, relay build .inbound ⟨fun _ => true, fun _ => .ok⟩ fuel
        (pollsOf reads) adapter = some s) ∧
      s.status = .running ∧ s.buf = [] ∧ s.delivery.written = out

/-- **One proxy** turns whole messages into the effects on them. -/
theorem passes_messages {messages : List (List UInt8)}
    (hmsg : ∀ m ∈ messages, findCompleteMessage build m = .ok (some m.length))
    (adapter : FixAdapter build) :
    Passes adapter messages.flatten (messages.filterMap (effect adapter)).flatten := by
  intro reads hne hflat
  obtain ⟨s, bound, hs, hstatus, hbuf, hwritten⟩ :=
    exists_relay_inbound hmsg hne hflat (fun _ => true) adapter
  refine ⟨s, bound, hs, hstatus, hbuf, ?_⟩
  rw [hwritten, due_inbound]
  congr 1
  have hfst : (fun p : List UInt8 × ℕ => if true then effect adapter p.1 else some p.1) =
      effect adapter ∘ Prod.fst := rfl
  rw [hfst, ← List.filterMap_map, List.zipIdx_map_fst]

/-- What an armed proxy writes is again whole messages. -/
theorem found_effect {adapter : FixAdapter build}
    (hm : findCompleteMessage build m = .ok (some m.length))
    (hlen : ∀ price, adapter.price? = some price → ∀ out, setField m TAG_PRICE price = .ok out →
      out.length < 2 ^ 64)
    (h : effect adapter m = some out) : findCompleteMessage build out = .ok (some out.length) := by
  cases hprice : adapter.price? with
  | none =>
    rw [effect_eq hprice] at h
    split_ifs at h
    cases h
    exact hm
  | some price =>
    rcases effect_price hprice hm with ⟨-, out', hset, heffect⟩ | ⟨-, heffect⟩
    · obtain rfl : out' = out := Option.some.inj (heffect.symm.trans h)
      exact findCompleteMessage_setField build hset (hlen price hprice out' hset)
    · obtain rfl : m = out := Option.some.inj (heffect.symm.trans h)
      exact hm

/-- Two proxies in series. -/
theorem passes_passes {messages : List (List UInt8)}
    (hmsg : ∀ m ∈ messages, findCompleteMessage build m = .ok (some m.length))
    (a b : FixAdapter build)
    (hlen : ∀ m ∈ messages, ∀ price, a.price? = some price → ∀ out,
      setField m TAG_PRICE price = .ok out → out.length < 2 ^ 64) :
    Passes b (messages.filterMap (effect a)).flatten
      (messages.filterMap fun m => (effect a m).bind (effect b)).flatten := by
  have hframes : ∀ out ∈ messages.filterMap (effect a),
      findCompleteMessage build out = .ok (some out.length) := by
    intro out hout
    obtain ⟨m, hm, heffect⟩ := List.mem_filterMap.mp hout
    exact found_effect (hmsg m hm) (hlen m hm) heffect
  have hpass := passes_messages hframes b
  rwa [List.filterMap_filterMap] at hpass

/-- **The order of two proxies does not matter.** Put two armed FIX faults in series, which do not
write different prices, and a stream of whole messages through them: the client gets the same
bytes whichever comes first, however the streams are cut into reads. -/
theorem proxies_commute {messages : List (List UInt8)}
    (hmsg : ∀ m ∈ messages, findCompleteMessage build m = .ok (some m.length))
    (a b : FixAdapter build)
    (hprice : ∀ price, a.price? = some price ∨ b.price? = some price → SOH ∉ price ∧
      ∀ m ∈ messages, ∀ out, setField m TAG_PRICE price = .ok out → out.length < 2 ^ 64)
    (hsame : ∀ p q, a.price? = some p → b.price? = some q → p = q) :
    ∃ mid mid' out, Passes a messages.flatten mid ∧ Passes b mid out ∧
      Passes b messages.flatten mid' ∧ Passes a mid' out := by
  refine ⟨_, _, _, passes_messages hmsg a, passes_passes hmsg a b ?_, passes_messages hmsg b, ?_⟩
  · exact fun m hm price ha out hout => (hprice price (Or.inl ha)).2 m hm out hout
  · have hcomm : (messages.filterMap fun m => (effect a m).bind (effect b)) =
        messages.filterMap fun m => (effect b m).bind (effect a) := by
      apply List.filterMap_congr
      intro m hm
      exact effect_comm a b (fun price h => (hprice price h).1) hsame (hmsg m hm)
    rw [hcomm]
    exact passes_passes hmsg b a fun m hm price hb out hout =>
      (hprice price (Or.inr hb)).2 m hm out hout

theorem found_reportThenEmpty : ∀ m ∈ [pricedReport, emptyMessage],
    findCompleteMessage .release m = .ok (some m.length) := by decide

/-- The price `7` in the place of the old one leaves the messages short. -/
theorem length_reportThenEmpty : ∀ m ∈ [pricedReport, emptyMessage], ∀ out,
    setField m TAG_PRICE [55] = .ok out → out.length < 2 ^ 64 := by
  intro m hm out hout
  have hsmall : ∀ m ∈ [pricedReport, emptyMessage],
      (setField m TAG_PRICE [55]).map (fun out => decide (out.length < 100)) = .ok true := by
    decide
  have hm' := hsmall m hm
  rw [hout, Outcome.map_ok, Outcome.ok.injEq, decide_eq_true_eq] at hm'
  omega

/-- A dropping fault and a price mutation. -/
theorem proxies_commute_reportThenEmpty :
    ∃ mid mid' out,
      Passes (.ackWithoutExecution ⟨⟩ : FixAdapter .release) [pricedReport, emptyMessage].flatten
        mid ∧ Passes (.executionReportPriceMutation ⟨[55]⟩ : FixAdapter .release) mid out ∧
      Passes (.executionReportPriceMutation ⟨[55]⟩ : FixAdapter .release)
        [pricedReport, emptyMessage].flatten mid' ∧
      Passes (.ackWithoutExecution ⟨⟩ : FixAdapter .release) mid' out := by
  refine proxies_commute found_reportThenEmpty (.ackWithoutExecution ⟨⟩)
    (.executionReportPriceMutation ⟨[55]⟩) ?_ (fun p q hp => by cases hp)
  rintro price (hp | hp)
  · cases hp
  · cases hp
    exact ⟨by decide, length_reportThenEmpty⟩

/-- **A dropping fault only drops.** Of a stream of whole inbound messages, with the flag going on
and off in any way, the client finds exactly those messages, in order and byte for byte, that came
while the flag was off or that the adapter does not drop. -/
theorem dropping_session {messages : List (List UInt8)}
    (hmsg : ∀ m ∈ messages, findCompleteMessage build m = .ok (some m.length))
    (reads : List (List UInt8)) (hne : ∀ bytes ∈ reads, bytes ≠ [])
    (hflat : reads.flatten = messages.flatten) (enabled : ℕ → Bool)
    (adapter : FixAdapter build) (hdrop : adapter.price? = none) :
    ∃ s bound, (∀ fuel ≥ bound, relay build .inbound ⟨enabled, fun _ => .ok⟩ fuel
        (pollsOf reads) adapter = some s) ∧
      Extracts (framer build) s.delivery.written
        ((messages.zipIdx.filter fun p => !(enabled p.2 && dropped adapter p.1)).map Prod.fst)
        [] := by
  obtain ⟨s, bound, hs, -, -, hwritten⟩ := exists_relay_inbound hmsg hne hflat enabled adapter
  refine ⟨s, bound, hs, ?_⟩
  have hkept : (messages.zipIdx.filterMap fun p =>
      if enabled p.2 then effect adapter p.1 else some p.1) =
        (messages.zipIdx.filter fun p => !(enabled p.2 && dropped adapter p.1)).map Prod.fst := by
    rw [← List.filterMap_eq_filter, ← List.filterMap_eq_map, List.filterMap_filterMap]
    apply List.filterMap_congr
    intro p _
    rw [effect_eq hdrop]
    cases hon : enabled p.2 <;> cases hdropped : dropped adapter p.1 <;>
      simp [Option.guard, hon, hdropped]
  rw [hwritten, due_inbound, hkept]
  refine extracts_messages fun out hout => ?_
  obtain ⟨p, hp, rfl⟩ := List.mem_map.mp hout
  exact hmsg p.1 (List.fst_mem_of_mem_zipIdx (List.mem_of_mem_filter hp))

/-- `8=F|9=5|35=3|10=000|`, a Reject. -/
def rejectMessage : List UInt8 :=
  [56, 61, 70, SOH, 57, 61, 53, SOH, 51, 53, 61, 51, SOH, 49, 48, 61, 48, 48, 48, SOH]

/-- The flag is on for the second Reject only. -/
theorem dropping_session_rejects :
    ∃ (s : RelayState (FixAdapter .release)) (bound : ℕ),
      (∀ fuel ≥ bound, relay .release .inbound ⟨fun i => i == 1, fun _ => .ok⟩ fuel
        (pollsOf [rejectMessage ++ rejectMessage ++ emptyMessage]) (.silentReject ⟨⟩) = some s) ∧
      Extracts (framer .release) s.delivery.written [rejectMessage, emptyMessage] [] := by
  have hmsg : ∀ m ∈ [rejectMessage, rejectMessage, emptyMessage],
      findCompleteMessage .release m = .ok (some m.length) := by decide
  exact dropping_session hmsg [rejectMessage ++ rejectMessage ++ emptyMessage] (by decide)
    (by decide) (fun i => i == 1) (.silentReject ⟨⟩) rfl

end Blackswan.Fix
