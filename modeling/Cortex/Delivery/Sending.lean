import Cortex.Delivery.Steps

/-!
# Sending the chunks of a frozen projection

`sendFrozenChunks` is one pass of the adapter over the ledger.  A chunk is
claimed, its permit is committed, and only then does the client check its
binding, build the request, ask the gate, take the shared line and hand the
frame to the worker's supervisor.  Each layer maps the exceptions of the one
below to its own.

What the layers find on the way is in `SendReadings`; an absent value stands for
an exception.
-/

namespace Cortex.Delivery

open Control Time Transaction

/-! ## The request -/

structure Destination where
  chatId : ℤ
  topicId : Option ℤ

structure Button where
  label : Text
  callbackData : Text

/-- The parts of a frozen chunk that its frame carries. -/
structure WireChunk where
  operationId : Text
  text : Text
  buttons : List Button

def isOperationChar (c : Char) : Bool := c.isAlphanum ∨ c ∈ ['.', '_', '-']

/-- `_WIRE_OPERATION_ID_RE`, up to its length. -/
def isOperationName (value : Text) : Bool :=
  match value with
  | [] => false
  | c :: rest => c.isAlphanum ∧ rest.all isOperationChar = true

/-- `transport_delivery_chunk_wire_operation_id`. -/
def wireOperationId (operationId : Text) : Option Text :=
  match operationId.splitOn ':' with
  | [base, chunk, index] =>
      let wire := base ++ '.' :: chunk ++ '.' :: index
      if operationId.length ≤ 200 ∧ isOperationName base = true ∧ chunk = "chunk".toList ∧
          1 ≤ index.length ∧ index.length ≤ 2 ∧ index.all Char.isDigit = true ∧
          ¬".chunk.".toList <:+: base ∧ wire.length ≤ 128 then some wire
      else none
  | _ => none

def utf8Length (value : Text) : ℕ := (value.map Char.utf8Size).sum

/-- `_valid_button`. -/
def Button.isValid (b : Button) : Bool :=
  1 ≤ b.label.length ∧ b.label.length ≤ 64 ∧ '\x00' ∉ b.label ∧
    1 ≤ utf8Length b.callbackData ∧ utf8Length b.callbackData ≤ 64 ∧ '\x00' ∉ b.callbackData

/-- `_HermesFrozenSendRequest` can be built. -/
def buildsRequest (chunk : WireChunk) (destination : Destination) : Bool :=
  (wireOperationId chunk.operationId).isSome ∧ destination.chatId ≠ 0 ∧
    (∀ topicId ∈ destination.topicId, 1 ≤ topicId) ∧ chunk.text ≠ [] ∧
    chunk.text.length ≤ 4096 ∧ '\x00' ∉ chunk.text ∧ chunk.buttons.length ≤ 6 ∧
    chunk.buttons.all Button.isValid = true

/-! ## The worker and the client -/

/-- `_HermesSendResult`. -/
inductive SendResult
  | accepted (providerMessageRef : Text)
  | rateLimited (retryAfterMs : ℕ)
  | retryableBeforeSend
  | rejected (category : Text)
  deriving DecidableEq

def isRejectionCategory : Text → Bool
  | [] => false
  | c :: rest => c.isLower ∧ rest.length ≤ 63 ∧
      rest.all (fun c => c.isLower ∨ c.isDigit ∨ c = '_') = true

def SendResult.isValid : SendResult → Bool
  | .accepted ref => 1 ≤ utf8Length ref ∧ utf8Length ref ≤ 512 ∧ '\x00' ∉ ref
  | .rateLimited ms => 1 ≤ ms ∧ ms ≤ 3600000
  | .retryableBeforeSend => true
  | .rejected category => isRejectionCategory category

/-- How the worker's supervisor answers a frame. -/
inductive WorkerAnswer
  | result (result : SendResult)
  /-- `outcome_unknown`, or no reply of the protocol at all. -/
  | unreadable
  /-- `WorkerProtocolError`. -/
  | protocolError (category : Text)
  /-- Any other exception: a timeout, or a worker that is gone. -/
  | raises
  deriving DecidableEq

inductive SendError
  | refusedBeforeSend | outcomeUnknown | transportGateClosed | other
  deriving DecidableEq

/-- What one `send_chunk` finds. -/
structure SendReadings (Digest : Type) where
  destinationMatches : Option Bool
  capabilityDigest : Option Digest
  gateOpen : Option Bool
  lineFree : Bool
  answer : WorkerAnswer

/-- What became of a frame: the answer to it, if it was handed over, and what `send_chunk`
returns or raises. -/
structure Sent where
  answer : Option WorkerAnswer
  outcome : Except SendError SendResult

/-- `REFUSED_BEFORE_SEND_CATEGORIES`. -/
def refusedBeforeSendCategory : Text := "operation_conflict".toList

/-- The worker declines to start a second call. -/
def operationConflict : WorkerAnswer := .protocolError refusedBeforeSendCategory

/-- `GatedWorkerTransportRPC.request` for `telegram.send`: the frame that was handed over, and the
reply or the exception. -/
def request {Digest : Type} (readings : SendReadings Digest) :
    Option WorkerAnswer × Except SendError WorkerAnswer :=
  match readings.gateOpen with
  | none => (none, .error .other)
  | some false => (none, .error .transportGateClosed)
  | some true =>
      -- `hold`: the line is taken in time, or the send is refused.
      if readings.lineFree then
        match readings.answer with
        | .protocolError category =>
            (some (.protocolError category), .error
              (if category = refusedBeforeSendCategory then .refusedBeforeSend else .other))
        | .raises => (some .raises, .error .other)
        | reply => (some reply, .ok reply)
      else (none, .error .refusedBeforeSend)

/-- `_parse_send_result`. -/
def parseSendResult : WorkerAnswer → Except SendError SendResult
  | .result result => if result.isValid then .ok result else .error .outcomeUnknown
  | _ => .error .outcomeUnknown

/-- The part of `send_chunk` around `request`: a refusal keeps its type, and every other exception
is an unknown outcome. -/
def receive (reply : Option WorkerAnswer × Except SendError WorkerAnswer) : Sent :=
  match reply.2 with
  | .error error =>
      ⟨reply.1, .error (if error = .refusedBeforeSend then error else .outcomeUnknown)⟩
  | .ok raw => ⟨reply.1, parseSendResult raw⟩

variable {Digest : Type} [DecidableEq Digest]

/-- `send_chunk`; the permit is the one that was stored when it was issued, so it is there to be
consumed. -/
def sendChunk (frozen : Frozen Digest) (chunk : WireChunk) (destination : Destination)
    (readings : SendReadings Digest) : Sent :=
  match readings.destinationMatches with
  | none => ⟨none, .error .other⟩
  | some false => ⟨none, .error .outcomeUnknown⟩
  | some true =>
      match readings.capabilityDigest with
      | none => ⟨none, .error .other⟩
      | some digest =>
          if digest ≠ frozen.capabilityBindingDigest then ⟨none, .error .outcomeUnknown⟩
          else if buildsRequest chunk destination = false then ⟨none, .error .other⟩
          else receive (request readings)

/-! ## The pass over the chunks -/

/-- `DeliveryResult`, without its delays. -/
structure DeliveryResult where
  category : String
  delivered : Bool
  duplicate : Bool
  retryable : Bool
  chunks : ℕ

/-- A result that delivered nothing. -/
def undelivered (category : String) (retryable : Bool) (chunks : ℕ) : DeliveryResult :=
  { category, delivered := false, duplicate := false, retryable, chunks }

/-- The port to Control: its worker and its leases. -/
structure Port where
  workerId : Text
  leaseSeconds : ℕ

/-- What the pass finds at one chunk; a call of Control whose readings are absent raises. -/
structure ChunkReadings (Digest : Type) where
  claim : Option Readings
  observedDigest : Option Digest
  begin : Option Readings
  send : SendReadings Digest
  settle : Option Readings

/-- A call of Control. -/
def control {α : Type} (readings : Option Readings) (call : Readings → Except StoreError α) :
    Except StoreError α :=
  match readings with
  | none => .error (.runtimeError "database is locked")
  | some readings => call readings

section Settle

omit [DecidableEq Digest]

/-- A report to Control after a permit; when it raises, the outcome stays uncertain. -/
def report (l : Ledger Digest) (i : ℕ) (readings : Option Readings)
    (call : Readings → Except StoreError (Ledger Digest × ChunkClaim))
    (result : Option DeliveryResult) : Ledger Digest × Option DeliveryResult :=
  match control readings call with
  | .ok (l, _) => (l, result)
  | .error _ => (l, some (undelivered "manual_required" false i))

variable (port : Port) (receiptDigest : Text → Digest)

/-- The part of the loop after `send_chunk`; no result means that the next chunk follows. -/
def settle (l : Ledger Digest) (i revision claimEpoch : ℕ) (windowId : Option Text)
    (readings : Option Readings) (sent : Sent) : Ledger Digest × Option DeliveryResult :=
  match sent.outcome with
  | .error .refusedBeforeSend =>
      report l i readings
        (fun r => releaseChunk l r i port.workerId claimEpoch revision .providerProvedBeforeSend none)
        (some (undelivered "transport_refused_before_send" true i))
  | .error _ => (l, some (undelivered "manual_required" false i))
  | .ok (.accepted ref) =>
      report l i readings
        (fun r => completeChunk l r i port.workerId claimEpoch revision (receiptDigest ref) windowId)
        none
  | .ok (.rateLimited ms) =>
      report l i readings
        (fun r =>
          releaseChunk l r i port.workerId claimEpoch revision .providerProvedBeforeSend (some ms))
        (some (undelivered "rate_limited" true i))
  | .ok .retryableBeforeSend =>
      report l i readings
        (fun r => releaseChunk l r i port.workerId claimEpoch revision .providerProvedBeforeSend none)
        (some (undelivered "transport_unavailable" true i))
  | .ok (.rejected category) =>
      report l i readings (fun r => failChunk l r i port.workerId claimEpoch revision category)
        (some (undelivered "delivery_rejected" false i))

end Settle

/-- One turn of the loop: the ledger after it, the frame of a permitted send, and how the loop
goes on. -/
structure Turn (Digest : Type) where
  ledger : Ledger Digest
  attempt : Option Sent
  next : Except StoreError (Option DeliveryResult)

section Pass

variable (frozen : Frozen Digest) (destination : Destination) (port : Port)
  (receiptDigest : Text → Digest)

/-- The claim of a turn; the caller may have claimed the first chunk already. -/
def turnClaim (l : Ledger Digest) (i : ℕ) (firstClaim : Option ChunkClaim)
    (readings : ChunkReadings Digest) : Except StoreError (Ledger Digest × ChunkClaim) :=
  match if i = 0 then firstClaim else none with
  | some claim => .ok (l, claim)
  | none => control readings.claim fun r => claimChunk l r i port.workerId port.leaseSeconds

/-- A claimed chunk is given back before its permit. -/
def giveBack (l : Ledger Digest) (i : ℕ) (claim : ChunkClaim) (readings : ChunkReadings Digest)
    (result : DeliveryResult) : Turn Digest :=
  match control readings.settle fun r =>
      releaseChunk l r i port.workerId claim.claimEpoch claim.revision .rpcNotStarted none with
  | .ok (l, _) => ⟨l, none, .ok (some result)⟩
  | .error error => ⟨l, none, .error error⟩

/-- The part of the loop from `begin` on. -/
def permitTurn (l : Ledger Digest) (i : ℕ) (chunk : WireChunk) (claim : ChunkClaim)
    (observed : Digest) (readings : ChunkReadings Digest) : Turn Digest :=
  match control readings.begin fun r =>
      beginChunkSend frozen l r i port.workerId claim.claimEpoch claim.revision observed with
  | .error error => ⟨l, none, .error error⟩
  | .ok (l, .capabilityMismatch) =>
      ⟨l, none, .ok (some (undelivered "capability_mismatch" false i))⟩
  | .ok (l, .capabilityExpired) =>
      ⟨l, none, .ok (some (undelivered "capability_expired" false i))⟩
  | .ok (l, .sendPermitted revision claimEpoch windowId) =>
      let sent := sendChunk frozen chunk destination readings.send
      let settled := settle port receiptDigest l i revision claimEpoch windowId readings.settle sent
      ⟨settled.1, some sent, .ok settled.2⟩

/-- The part of the loop for a claim that is not settled otherwise. -/
def claimedTurn (l : Ledger Digest) (i : ℕ) (chunk : WireChunk) (claim : ChunkClaim)
    (readings : ChunkReadings Digest) : Turn Digest :=
  if claim.claimOwner ≠ some port.workerId then
    ⟨l, none, .ok (some { undelivered "delivery_in_flight" true i with duplicate := true })⟩
  else
    match readings.observedDigest with
    | none => giveBack port l i claim readings (undelivered "transport_unavailable" true i)
    | some observed =>
        if observed ≠ frozen.capabilityBindingDigest then
          giveBack port l i claim readings (undelivered "capability_mismatch" false i)
        else permitTurn frozen destination port receiptDigest l i chunk claim observed readings

def sendTurn (l : Ledger Digest) (i : ℕ) (chunk : WireChunk) (firstClaim : Option ChunkClaim)
    (readings : ChunkReadings Digest) : Turn Digest :=
  match turnClaim port l i firstClaim readings with
  | .error error => ⟨l, none, .error error⟩
  | .ok (l, claim) =>
      match claim.status with
      | .state .delivered => ⟨l, none, .ok none⟩
      | .state .sendingUnknown => ⟨l, none, .ok (some (undelivered "manual_required" false i))⟩
      | .state .failed => ⟨l, none, .ok (some (undelivered "delivery_rejected" false i))⟩
      | .deferred => ⟨l, none, .ok (some (undelivered "rate_limited" true i))⟩
      | .state .pending | .state .claimed =>
          claimedTurn frozen destination port receiptDigest l i chunk claim readings

/-- What a pass did: the ledger after it, the frames of its permitted sends, and its result. -/
structure Pass (Digest : Type) where
  ledger : Ledger Digest
  attempts : List (ℕ × WireChunk × Sent)
  result : Except StoreError DeliveryResult

/-- `_send_frozen_chunks` from the chunk `i` on. -/
def sendFrom (readings : ℕ → ChunkReadings Digest) (firstClaim : Option ChunkClaim)
    (l : Ledger Digest) (i delivered : ℕ) : List WireChunk → Pass Digest
  | [] =>
      { ledger := l
        attempts := []
        result := .ok
          { category := if delivered = 0 then "duplicate" else "delivered"
            delivered := delivered ≠ 0
            duplicate := delivered = 0
            retryable := false
            chunks := i } }
  | chunk :: rest =>
      let turn := sendTurn frozen destination port receiptDigest l i chunk firstClaim (readings i)
      let attempts := turn.attempt.toList.map fun sent => (i, chunk, sent)
      match turn.next with
      | .error error => ⟨turn.ledger, attempts, .error error⟩
      | .ok (some result) => ⟨turn.ledger, attempts, .ok result⟩
      | .ok none =>
          let pass := sendFrom readings firstClaim turn.ledger (i + 1)
            (delivered + turn.attempt.toList.length) rest
          { pass with attempts := attempts ++ pass.attempts }

/-- `_send_frozen_chunks`. -/
def sendFrozenChunks (chunks : List WireChunk) (readings : ℕ → ChunkReadings Digest)
    (firstClaim : Option ChunkClaim) (l : Ledger Digest) : Pass Digest :=
  sendFrom frozen destination port receiptDigest readings firstClaim l 0 0 chunks

end Pass

end Cortex.Delivery
