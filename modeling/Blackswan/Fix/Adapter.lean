import Blackswan.Fix.Message

/-!
# The FIX adapters

The four `ProtocolAdapter`s of the crate. Three of them look at inbound messages only and start
by parsing; `interceptInbound` is that common start. The throttle counts outbound messages and
never parses.
-/

namespace Blackswan.Fix

open Lib (Outcome)

/-! ## Tags and values -/

def TAG_MSG_TYPE : ℕ := 35
def TAG_ORD_STATUS : ℕ := 39
def TAG_EXEC_TYPE : ℕ := 150
def TAG_PRICE : ℕ := 44

/-- `b"8"`. -/
def MSG_TYPE_EXECUTION_REPORT : List UInt8 := [56]
/-- `b"9"`. -/
def MSG_TYPE_ORDER_CANCEL_REJECT : List UInt8 := [57]
/-- `b"3"`. -/
def MSG_TYPE_REJECT : List UInt8 := [51]
/-- `b"1"`. -/
def ORD_STATUS_PARTIALLY_FILLED : List UInt8 := [49]
/-- `b"2"`. -/
def ORD_STATUS_FILLED : List UInt8 := [50]
/-- `b"8"`. -/
def ORD_STATUS_REJECTED : List UInt8 := [56]
/-- `b"F"`. -/
def EXEC_TYPE_TRADE : List UInt8 := [70]
/-- `b"8"`. -/
def EXEC_TYPE_REJECTED : List UInt8 := [56]

/-! ## Adapters of inbound messages -/

/-- `HarnessError::AdapterRejected` with the `Debug` text of the parse error. -/
def rejected (name : String) (e : ParseError) : HarnessError := .adapterRejected name e.debug

/-- Forwards outbound messages, parses inbound ones and decides on them. -/
def interceptInbound (name : String) (msg : RawMessage)
    (decideOn : FixMessage → Outcome HarnessError InterceptAction) :
    Outcome HarnessError InterceptAction :=
  if msg.direction ≠ .inbound then .ok .forward
  else
    match parse msg.bytes with
    | .error e => .err (rejected name e)
    | .ok parsed => decideOn parsed

structure FixSilentReject where
  deriving DecidableEq, Repr

def FixSilentReject.isRejection (parsed : FixMessage) : Bool :=
  parsed.is TAG_MSG_TYPE MSG_TYPE_REJECT
    || parsed.is TAG_MSG_TYPE MSG_TYPE_ORDER_CANCEL_REJECT
    || (parsed.is TAG_MSG_TYPE MSG_TYPE_EXECUTION_REPORT
      && (parsed.is TAG_ORD_STATUS ORD_STATUS_REJECTED
        || parsed.is TAG_EXEC_TYPE EXEC_TYPE_REJECTED))

def FixSilentReject.intercept (msg : RawMessage) : Outcome HarnessError InterceptAction :=
  interceptInbound "fix-silent-reject" msg fun parsed =>
    .ok (if isRejection parsed then .drop else .forward)

structure FixAckWithoutExecution where
  deriving DecidableEq, Repr

def FixAckWithoutExecution.isFill (parsed : FixMessage) : Bool :=
  parsed.is TAG_EXEC_TYPE EXEC_TYPE_TRADE
    || parsed.is TAG_ORD_STATUS ORD_STATUS_PARTIALLY_FILLED
    || parsed.is TAG_ORD_STATUS ORD_STATUS_FILLED

def FixAckWithoutExecution.intercept (msg : RawMessage) : Outcome HarnessError InterceptAction :=
  interceptInbound "fix-ack-without-execution" msg fun parsed =>
    if !parsed.is TAG_MSG_TYPE MSG_TYPE_EXECUTION_REPORT then .ok .forward
    else .ok (if isFill parsed then .drop else .forward)

structure FixExecutionReportPriceMutation where
  mutatedPrice : List UInt8
  deriving DecidableEq, Repr

def FixExecutionReportPriceMutation.intercept (self : FixExecutionReportPriceMutation)
    (msg : RawMessage) : Outcome HarnessError InterceptAction :=
  interceptInbound "fix-execution-report-price-mutation" msg fun parsed =>
    if !parsed.is TAG_MSG_TYPE MSG_TYPE_EXECUTION_REPORT || (parsed.get TAG_PRICE).isNone then
      .ok .forward
    else
      match setField msg.bytes TAG_PRICE self.mutatedPrice with
      | .ok mutated => .ok (.mutate mutated)
      | .err e => .err (rejected "fix-execution-report-price-mutation" e)
      | .panic => .panic

/-! ## The throttle -/

/-- `FixRateLimitThrottle`, with its atomic counter. -/
structure FixRateLimitThrottle (build : Build) where
  threshold : UInt64
  count : UInt64
  deriving DecidableEq, Repr

namespace FixRateLimitThrottle

variable {build : Build}

def new (threshold : UInt64) : FixRateLimitThrottle build := ⟨threshold, 0⟩

/-- `count.fetch_add(1)` wraps; the `+ 1` on what it returns is ordinary addition. -/
def intercept (self : FixRateLimitThrottle build) (msg : RawMessage) :
    Outcome HarnessError InterceptAction × FixRateLimitThrottle build :=
  if msg.direction ≠ .outbound then (.ok .forward, self)
  else
    let self' := { self with count := self.count + 1 }
    if build = .debug ∧ self.count.toNat + 1 = 2 ^ 64 then (.panic, self')
    else
      let seen := self.count + 1
      (.ok (if seen > self.threshold then .drop else .forward), self')

end FixRateLimitThrottle

instance : ProtocolAdapter FixSilentReject where
  intercept self msg := (FixSilentReject.intercept msg, self)

instance : ProtocolAdapter FixAckWithoutExecution where
  intercept self msg := (FixAckWithoutExecution.intercept msg, self)

instance : ProtocolAdapter FixExecutionReportPriceMutation where
  intercept self msg := (self.intercept msg, self)

instance {build : Build} : ProtocolAdapter (FixRateLimitThrottle build) where
  intercept := FixRateLimitThrottle.intercept

/-- `Arc<dyn ProtocolAdapter>`, as far as `build_injector` fills it. -/
inductive FixAdapter (build : Build) where
  | silentReject (adapter : FixSilentReject)
  | ackWithoutExecution (adapter : FixAckWithoutExecution)
  | rateLimitThrottle (adapter : FixRateLimitThrottle build)
  | executionReportPriceMutation (adapter : FixExecutionReportPriceMutation)
  deriving DecidableEq, Repr

instance {build : Build} : ProtocolAdapter (FixAdapter build) where
  intercept self msg :=
    match self with
    | .silentReject _ => (FixSilentReject.intercept msg, self)
    | .ackWithoutExecution _ => (FixAckWithoutExecution.intercept msg, self)
    | .rateLimitThrottle adapter =>
      let res := adapter.intercept msg
      (res.1, .rateLimitThrottle res.2)
    | .executionReportPriceMutation adapter => (adapter.intercept msg, self)

end Blackswan.Fix
