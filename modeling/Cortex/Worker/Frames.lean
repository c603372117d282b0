import Cortex.Library.PyDecode
import Cortex.Library.PyFields
import Cortex.Worker.Protocol

/-!
# The frames a worker writes

`WorkerResponse` and `WorkerEvent` with what their constructors check, the two
encoders, and `parse_frame`, which checks the same things again in its own order.
A frame is one line: a document in ASCII, and a line break.

JSON has a way to write a code point outside the basic plane that is also the way
to write two surrogates one after the other.  Frames are told apart by it: what
holds of a frame is said of texts in which no such pair was left apart.
-/

namespace Cortex.Worker

open Py
open PyJson hiding require
open Transaction
open OperationLedger (isOperationId)

/-! ## Frames -/

/-- `_ERROR_CATEGORIES`. -/
def errorCategories : List String :=
  ["protocol_violation", "identity_mismatch", "ledger_unavailable", "operation_conflict",
    "operation_unknown", "not_measured", "hermes_home_unsafe", "runtime_unavailable",
    "turn_unknown"]

def isErrorCategory (category : Str) : Bool := errorCategories.any fun known => category = lit known

structure WorkerError where
  category : Str
  message : Str
  known : isErrorCategory category = true
  nonempty : message ≠ []

/-- An absent result is `None`. -/
structure WorkerResponse where
  requestId : Str
  result : Value
  error : Option WorkerError
  operationId : Option Str
  nonempty : requestId ≠ []
  exclusive : error.isSome = true → result = .none
  valid : ∀ id ∈ operationId, isOperationId (toText id) = true

def eventFields : List String := ["kind", "payload"]

/-- What `_validate_event` asks of a `dict`. -/
def isEvent (event : Fields) : Bool :=
  hasFields event eventFields &&
    (match strOf (event.get? (lit "kind")) with
    | some kind => kind ≠ [] ∧ hasNul kind = false
    | none => false) &&
    ((event.get? (lit "payload")).bind dictOf).isSome

structure WorkerEvent where
  operationId : Str
  sequence : ℤ
  event : Fields
  valid : isOperationId (toText operationId) = true
  natural : 0 ≤ sequence
  isEvent : isEvent event = true

inductive Frame
  | reply (response : WorkerResponse)
  | event (event : WorkerEvent)

/-! The constructors; they raise a `ValueError`. -/

def WorkerError.build (category message : Str) : Except LineError WorkerError :=
  if h : isErrorCategory category = true ∧ message ≠ [] then .ok ⟨category, message, h.1, h.2⟩
  else .error .other

def WorkerResponse.build (requestId : Str) (result : Value) (error : Option WorkerError)
    (operationId : Option Str) (exclusive : error.isSome = true → result = .none) :
    Except LineError WorkerResponse :=
  if h : requestId ≠ [] ∧ ∀ id ∈ operationId, isOperationId (toText id) = true then
    .ok ⟨requestId, result, error, operationId, h.1, exclusive, h.2⟩
  else .error .other

def WorkerEvent.build (operationId : Str) (sequence : ℤ) (event : Fields) :
    Except LineError WorkerEvent :=
  if h : isOperationId (toText operationId) = true ∧ 0 ≤ sequence ∧ Worker.isEvent event = true then
    .ok ⟨operationId, sequence, event, h.1, h.2.1, h.2.2⟩
  else .error .other

/-! ## Encoding -/

def operationIdValue : Option Str → Value
  | some operationId => .str operationId
  | none => .none

def WorkerError.value (error : WorkerError) : Value :=
  .dict (fieldsOf [("category", .str error.category), ("message", .str error.message)])

/-- The fields that `encode_response` writes. -/
def WorkerResponse.fields (response : WorkerResponse) : Fields :=
  match response.error with
  | none => fieldsOf [("protocol", .str protocolV2), ("frame", .str (lit "reply")),
      ("request_id", .str response.requestId),
      ("operation_id", operationIdValue response.operationId), ("ok", .bool true),
      ("result", response.result)]
  | some error => fieldsOf [("protocol", .str protocolV2), ("frame", .str (lit "reply")),
      ("request_id", .str response.requestId),
      ("operation_id", operationIdValue response.operationId), ("ok", .bool false),
      ("error", error.value)]

/-- The fields that `encode_event` writes. -/
def WorkerEvent.fields (event : WorkerEvent) : Fields :=
  fieldsOf [("protocol", .str protocolV2), ("frame", .str (lit "event")),
    ("operation_id", .str event.operationId), ("sequence", .int event.sequence),
    ("event", .dict event.event)]

def Frame.fields : Frame → Fields
  | .reply response => response.fields
  | .event report => report.fields

/-- A process that writes and reads frames: its limits and its floats. -/
structure Codec where
  limits : JsonLimits
  floats : Floats

namespace Codec

variable (C : Codec)

/-- `_encode`; nothing where `json.dumps` raises. -/
def encode (fields : Fields) : Option Bytes :=
  (dumps C.limits C.floats (.dict fields)).map fun text => encodeAscii (text ++ [cp '\n'])

/-- `encode_response` and `encode_event`. -/
def encodeFrame (frame : Frame) : Option Bytes := C.encode frame.fields

/-- `json.loads` of a line, as the process reads it; no token is looked at. -/
def reader : Reader := ⟨C.limits, C.floats.read, PyJson.decode, []⟩

end Codec

/-! ## Parsing -/

def boolOf : Option Value → Option Bool
  | some (.bool value) => some value
  | _ => none

/-- `_REPLY_FIELDS`, and `result` or `error`. -/
def replyFields (ok : Bool) : List String :=
  ["protocol", "frame", "request_id", "operation_id", "ok", if ok then "result" else "error"]

/-- `_EVENT_FRAME_FIELDS`. -/
def eventFrameFields : List String := ["protocol", "frame", "operation_id", "sequence", "event"]

def errorFields : List String := ["category", "message"]

/-- The `operation_id` of a reply. -/
def replyOperationId : Option Value → Except LineError (Option Str)
  | some .none => pure none
  | some (.str operationId) => do
      require (isOperationId (toText operationId) = true) .violation
      pure (some operationId)
  | _ => throw .violation

/-- The `error` of a reply. -/
def parseError (value : Option Value) : Except LineError WorkerError := do
  let error ← orRaise (value.bind dictOf) .violation
  require (hasFields error errorFields = true) .violation
  let category ← orRaise (strOf (error.get? (lit "category"))) .violation
  require (isErrorCategory category = true) .violation
  let message ← orRaise (strOf (error.get? (lit "message"))) .violation
  require (message ≠ []) .violation
  WorkerError.build category message

/-- `_parse_reply`. -/
def parseReply (raw : Fields) : Except LineError WorkerResponse := do
  let ok ← orRaise (boolOf (raw.get? (lit "ok"))) .violation
  require (hasFields raw (replyFields ok) = true) .violation
  let requestId ← orRaise (strOf (raw.get? (lit "request_id"))) .violation
  require (requestId ≠ []) .violation
  let operationId ← replyOperationId (raw.get? (lit "operation_id"))
  if ok then do
    let result ← orRaise (raw.get? (lit "result")) .violation
    WorkerResponse.build requestId result none operationId (fun h => by cases h)
  else do
    let error ← parseError (raw.get? (lit "error"))
    WorkerResponse.build requestId .none (some error) operationId fun _ => rfl

/-- `_validate_event`. -/
def validateEvent (value : Option Value) : Except LineError Fields := do
  let event ← orRaise (value.bind dictOf) .violation
  require (isEvent event = true) .violation
  pure event

/-- `_parse_event_frame`. -/
def parseEventFrame (raw : Fields) : Except LineError WorkerEvent := do
  require (hasFields raw eventFrameFields = true) .violation
  let operationId ← orRaise (strOf (raw.get? (lit "operation_id"))) .violation
  require (isOperationId (toText operationId) = true) .violation
  let sequence ← orRaise (intOf (raw.get? (lit "sequence"))) .violation
  require (0 ≤ sequence) .violation
  let event ← validateEvent (raw.get? (lit "event"))
  WorkerEvent.build operationId sequence event

/-- What `parse_frame` does with the object of a line. -/
def parseFields (raw : Fields) : Except LineError Frame := do
  require (strOf (raw.get? (lit "protocol")) = some protocolV2) .violation
  if strOf (raw.get? (lit "frame")) = some (lit "reply") then do
    let response ← parseReply raw
    pure (.reply response)
  else if strOf (raw.get? (lit "frame")) = some (lit "event") then do
    let event ← parseEventFrame raw
    pure (.event event)
  else throw .violation

/-- `parse_frame`. -/
def Codec.parseFrame (C : Codec) (line : Bytes) : Except LineError Frame := do
  let raw ← C.reader.loadRequest line
  parseFields raw

/-! ## Equal frames -/

/-- JSON represents the result or the event of a frame, and all its texts have the property. -/
def Frame.IsJson (F : Floats) (P : Str → Prop) : Frame → Prop
  | .reply response => P response.requestId ∧ (∀ error ∈ response.error, P error.message) ∧
      PyJson.IsJson F P response.result
  | .event report => PyJson.IsJson F P (.dict report.event)

/-- Frames that compare equal. -/
def Frame.Same : Frame → Frame → Prop
  | .reply response, .reply other =>
      response.requestId = other.requestId ∧ PyJson.Same response.result other.result ∧
        response.error = other.error ∧ response.operationId = other.operationId
  | .event report, .event other =>
      report.operationId = other.operationId ∧ report.sequence = other.sequence ∧
        PyJson.Same (.dict report.event) (.dict other.event)
  | _, _ => False

end Cortex.Worker
