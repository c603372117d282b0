import Cortex.Library.PyJson
import Cortex.Worker.Serve

/-!
# The requests of the worker protocol

`parse_request` with its checks, in the order of the source.  It is meant to raise
nothing but a violation of the protocol; what else it can raise is kept apart: a
value that cannot be hashed is looked up in a set, and a surrogate is encoded.
-/

namespace Cortex.Worker

open Py

open Control (Text)
open Transaction
open OperationLedger (OperationId Kind Sha256 Checked checked isOperationId isKind isSha256)

/-- What `parse_request` raises. -/
inductive LineError
  | violation
  /-- A `RecursionError`, which is a `RuntimeError`. -/
  | recursion
  /-- A `ValueError` or a `TypeError`. -/
  | other
  deriving DecidableEq

inductive Method
  | identityMeasure | healthCheck | operationBegin | operationFinish | operationStatus | shutdown
  | turnBegin | turnEvent | turnResolve | turnCancel
  | telegramCapabilities | telegramSend | telegramPoll
  deriving DecidableEq

def Method.text : Method → String
  | identityMeasure => "identity.measure"
  | healthCheck => "health.check"
  | operationBegin => "operation.begin"
  | operationFinish => "operation.finish"
  | operationStatus => "operation.status"
  | shutdown => "shutdown"
  | turnBegin => "turn.begin"
  | turnEvent => "turn.event"
  | turnResolve => "turn.resolve"
  | turnCancel => "turn.cancel"
  | telegramCapabilities => "telegram.capabilities"
  | telegramSend => "telegram.send"
  | telegramPoll => "telegram.poll"

def methods : List Method :=
  [.identityMeasure, .healthCheck, .operationBegin, .operationFinish, .operationStatus, .shutdown,
    .turnBegin, .turnEvent, .turnResolve, .turnCancel, .telegramCapabilities, .telegramSend,
    .telegramPoll]

/-- `_METHOD_FIELDS`. -/
def Method.fields : Method → List String
  | identityMeasure | healthCheck | shutdown | telegramCapabilities => []
  | operationBegin => ["operation_id", "kind", "request_digest"]
  | operationFinish => ["operation_id", "outcome", "result_digest"]
  | operationStatus | turnCancel => ["operation_id"]
  | turnBegin => ["operation_id", "request_digest", "request"]
  | turnEvent => ["operation_id", "sequence", "event"]
  | turnResolve => ["operation_id", "decision"]
  | telegramSend => ["schema_version", "operation_id", "chat_id", "topic_id", "text", "parse_mode",
      "buttons"]
  | telegramPoll => ["offset", "timeout_seconds"]

def requestFields : List String := ["protocol", "request_id", "token", "method", "params"]

def decisionFields : List String := ["decision_id", "choice"]

def buttonFields : List String := ["label", "callback_data"]

def protocolV2 : Str := lit "cortex-worker/2"

/-! ## Reading values -/

/-- The keys of the fields are these. -/
def hasFields (fields : Fields) (names : List String) : Bool :=
  (names.all fun name => (fields.get? (lit name)).isSome) &&
    fields.all fun item =>
      match item.1 with
      | .str key => names.any fun name => key = lit name
      | _ => false

def strOf : Option Value → Option Str
  | some (.str text) => some text
  | _ => none

def intOf : Option Value → Option ℤ
  | some (.int value) => some value
  | _ => none

def dictOf : Value → Option Fields
  | .dict fields => some fields
  | _ => none

/-- A text whose characters are all characters; a surrogate becomes the replacement. -/
def toText (s : Str) : Text :=
  s.map fun c => if c.val.isValidChar then Char.ofNat c.val else Char.ofNat 0xFFFD

/-- A field that is a text and passes a check. -/
def checkedField (check : Text → Bool) (params : Fields) (name : String) :
    Except LineError (Checked check) := do
  let text ← orRaise (strOf (params.get? (lit name))) .violation
  orRaise (checked check (toText text)) .violation

/-- `value in names`, for a set of texts; a value that cannot be hashed raises. -/
def isOneOf (value : Option Value) (names : List String) : Except LineError Unit :=
  match value with
  | some (.str text) => require (names.any fun name => text = lit name) .violation
  | some value => if value.hashable then throw .violation else throw .other
  | none => throw .violation

/-- The length of a text in UTF-8; encoding a surrogate raises. -/
def utf8Length (text : Str) : Except LineError ℕ := do
  require text.IsUtf8 .other
  pure (text.map fun c =>
    if c.val < 0x80 then 1 else if c.val < 0x800 then 2 else if c.val < 0x10000 then 3 else 4).sum

/-- A nonempty text without NUL. -/
def requireText (fields : Fields) (name : String) : Except LineError Str := do
  let text ← orRaise (strOf (fields.get? (lit name))) .violation
  require (text ≠ [] ∧ hasNul text = false) .violation
  pure text

/-- A value that is nothing, or an integer that is not less than a bound. -/
def requireOptionalInt (value : Option Value) (least : ℤ) : Except LineError Unit :=
  match value with
  | some .none => pure ()
  | value => do
      let value ← orRaise (intOf value) .violation
      require (least ≤ value) .violation

/-! ## The parameters -/

/-- `_TELEGRAM_OPERATION_ID`. -/
def isTelegramOperationId (text : Text) : Bool :=
  match text with
  | [] => false
  | c :: rest =>
      c.isAlphanum ∧ rest.length ≤ 199 ∧
        rest.all fun c => c.isAlphanum ∨ c = '.' ∨ c = '_' ∨ c = ':' ∨ c = '-'

def validateButton (button : Value) : Except LineError Unit := do
  let fields ← orRaise (dictOf button) .violation
  require (hasFields fields buttonFields = true) .violation
  let label ← orRaise (strOf (fields.get? (lit "label"))) .violation
  require (1 ≤ label.length ∧ label.length ≤ 64) .violation
  let callbackData ← orRaise (strOf (fields.get? (lit "callback_data"))) .violation
  let length ← utf8Length callbackData
  require (1 ≤ length ∧ length ≤ 64) .violation

/-- The checks of `_validate_telegram_send` before the text. -/
def validateDestination (params : Fields) : Except LineError Unit := do
  require (intOf (params.get? (lit "schema_version")) = some 1) .violation
  let _ ← checkedField isTelegramOperationId params "operation_id"
  require ((intOf (params.get? (lit "chat_id"))).isSome = true) .violation
  requireOptionalInt (params.get? (lit "topic_id")) 1

def validateText (params : Fields) : Except LineError Unit := do
  let text ← orRaise (strOf (params.get? (lit "text"))) .violation
  let length ← utf8Length text
  require (1 ≤ length ∧ length ≤ 4096) .violation

def validateButtons : List Value → Except LineError Unit
  | [] => pure ()
  | button :: buttons => do
      validateButton button
      validateButtons buttons

/-- `_validate_telegram_send`. -/
def validateTelegramSend (params : Fields) : Except LineError Unit := do
  validateDestination params
  validateText params
  isOneOf (params.get? (lit "parse_mode")) ["MarkdownV2"]
  match params.get? (lit "buttons") with
  | some (.seq _ buttons) => do
      require (buttons.length ≤ 6) .violation
      validateButtons buttons
  | _ => throw .violation

/-- `_validate_telegram_poll`. -/
def validateTelegramPoll (params : Fields) : Except LineError Unit := do
  requireOptionalInt (params.get? (lit "offset")) 0
  let timeoutSeconds ← orRaise (intOf (params.get? (lit "timeout_seconds"))) .violation
  require (0 ≤ timeoutSeconds ∧ timeoutSeconds ≤ 30) .violation

/-- `_validate_decision`; the choice. -/
def validateDecision (params : Fields) : Except LineError Str := do
  let decision ← orRaise ((params.get? (lit "decision")).bind dictOf) .violation
  require (hasFields decision decisionFields = true) .violation
  let _ ← requireText decision "decision_id"
  requireText decision "choice"

/-- The rest of `_validate_params`, once the fields are those of the method: the request. -/
def validateMethod (params : Fields) : Method → Except LineError Request
  | .identityMeasure => pure .identityMeasure
  | .healthCheck => pure .healthCheck
  | .shutdown => pure .shutdown
  | .telegramCapabilities => pure .telegramCapabilities
  | .operationBegin => do
      let operationId ← checkedField isOperationId params "operation_id"
      let kind ← checkedField isKind params "kind"
      let digest ← checkedField isSha256 params "request_digest"
      pure (.operationBegin operationId kind digest)
  | .operationFinish => do
      let operationId ← checkedField isOperationId params "operation_id"
      isOneOf (params.get? (lit "outcome")) ["committed", "failed"]
      let outcome ← orRaise (strOf (params.get? (lit "outcome"))) .violation
      let digest ← checkedField isSha256 params "result_digest"
      pure (.operationFinish operationId (toText outcome) digest)
  | .operationStatus => do
      let operationId ← checkedField isOperationId params "operation_id"
      pure (.operationStatus operationId)
  | .turnBegin => do
      let operationId ← checkedField isOperationId params "operation_id"
      let digest ← checkedField isSha256 params "request_digest"
      let _ ← orRaise ((params.get? (lit "request")).bind dictOf) .violation
      pure (.turnBegin operationId digest)
  | .turnEvent => throw .violation
  | .turnResolve => do
      let operationId ← checkedField isOperationId params "operation_id"
      let _ ← validateDecision params
      pure (.turnResolve operationId)
  | .turnCancel => do
      let operationId ← checkedField isOperationId params "operation_id"
      pure (.turnCancel operationId)
  | .telegramSend => do
      validateTelegramSend params
      pure .telegramCall
  | .telegramPoll => do
      validateTelegramPoll params
      pure .telegramCall

/-! ## A line -/

/-- A `WorkerRequest`, with the request as the loop serves it. -/
structure Parsed where
  requestId : Str
  method : Method
  params : Fields
  request : Request

/-- How the process reads lines: its limits, what `float` makes of a text, how `json.loads` decodes
bytes, and the token. -/
structure Reader where
  limits : JsonLimits
  toFloat : Str → PyFloat
  decode : OperationLedger.Bytes → Option Str
  token : Str

namespace Reader

variable (R : Reader) (line : OperationLedger.Bytes)

/-- `json.loads(line)`, with `_closed_object` as its hook or without one. -/
def loads (closed : Bool) : Except PyJson.LoadError Value :=
  match R.decode line with
  | some text => PyJson.loads ⟨R.limits, R.toFloat, closed⟩ text
  | none => .error .notJson

/-- `_peek_request_id`; nothing where it raises. -/
def peekRequestId : Option Str :=
  match R.loads line false with
  | .error .tooDeep => none
  | .error _ => some (lit "invalid")
  | .ok raw =>
      match (dictOf raw).bind fun fields => strOf (fields.get? (lit "request_id")) with
      | some requestId => if requestId = [] then some (lit "invalid") else some requestId
      | none => some (lit "invalid")

/-- The object of a line, as `parse_request` reads it. -/
def loadRequest : Except LineError Fields :=
  match R.loads line true with
  | .error .tooDeep => .error .recursion
  | .error .tooManyDigits => .error .other
  | .error _ => .error .violation
  | .ok raw => orRaise (dictOf raw) .violation

def methodOf (text : Str) : Option Method := methods.find? fun method => text = lit method.text

/-- `parse_request`. -/
def parseRequest : Except LineError Parsed := do
  let raw ← R.loadRequest line
  require (hasFields raw requestFields = true) .violation
  require (strOf (raw.get? (lit "protocol")) = some protocolV2) .violation
  let requestId ← orRaise (strOf (raw.get? (lit "request_id"))) .violation
  require (requestId ≠ []) .violation
  require (strOf (raw.get? (lit "token")) = some R.token) .violation
  let method ← orRaise ((strOf (raw.get? (lit "method"))).bind methodOf) .violation
  require (method ≠ .turnEvent) .violation
  let params ← orRaise ((raw.get? (lit "params")).bind dictOf) .violation
  require (hasFields params method.fields = true) .violation
  let request ← validateMethod params method
  pure ⟨requestId, method, params, request⟩

end Reader

end Cortex.Worker
