import Cortex.Control.Receipts
import Mathlib.Data.Char

/-!
# The delivery ledger of one frozen projection

The commands of `TransportDeliveryStore` over the chunks of one message.  A
worker claims a chunk under a lease, asks for a permit to send it, and reports
what the provider said; an operator decides about a chunk whose sending is
unknown.

Chunk indices are contiguous from zero, so the chunks are a list and an index is
a position in it.  Every row satisfies the `CHECK` of its table: a write that
would break it is refused, as SQLite refuses it.
-/

namespace Cortex.Delivery

open Control Time Transaction

inductive ChunkState
  | pending | claimed | sendingUnknown | delivered | failed
  deriving DecidableEq

/-- The spelling of a state in errors. -/
def ChunkState.text : ChunkState → String
  | pending => "pending"
  | claimed => "claimed"
  | sendingUnknown => "sending_unknown"
  | delivered => "delivered"
  | failed => "failed"

/-- The columns of `transport_delivery_chunks` that delivery writes. -/
structure Columns (Digest : Type) where
  state : ChunkState
  revision : ℕ
  claimOwner : Option Text
  claimEpoch : ℕ
  claimExpiresAt : Option Stamp
  retryNotBefore : Option Stamp
  providerReceiptDigest : Option Digest
  failureCategory : Option Text
  manualResolutionId : Option ℕ
  completedAt : Option Stamp
  transportWindowId : Option Text

namespace Columns

variable {Digest : Type}

/-- The `CHECK` of the table: which columns are set in which state. -/
def Check (c : Columns Digest) : Prop :=
  match c.state with
  | .pending => c.claimOwner = none ∧ c.claimExpiresAt = none ∧
      c.providerReceiptDigest.isNone ∧ c.failureCategory = none ∧
      c.manualResolutionId = none ∧ c.completedAt = none
  | .claimed => c.claimOwner ≠ none ∧ c.claimExpiresAt ≠ none ∧ c.retryNotBefore = none ∧
      c.providerReceiptDigest.isNone ∧ c.failureCategory = none ∧
      c.manualResolutionId = none ∧ c.completedAt = none
  | .sendingUnknown => c.claimOwner ≠ none ∧ c.claimExpiresAt = none ∧ c.retryNotBefore = none ∧
      c.providerReceiptDigest.isNone ∧ c.failureCategory = none ∧
      c.manualResolutionId = none ∧ c.completedAt = none
  | .delivered => c.claimOwner = none ∧ c.claimExpiresAt = none ∧ c.retryNotBefore = none ∧
      c.failureCategory = none ∧ c.completedAt ≠ none ∧
      (c.providerReceiptDigest.isSome ∨ c.manualResolutionId ≠ none)
  | .failed => c.claimOwner = none ∧ c.claimExpiresAt = none ∧ c.retryNotBefore = none ∧
      c.providerReceiptDigest.isNone ∧ c.failureCategory ≠ none ∧ c.completedAt ≠ none

instance (c : Columns Digest) : Decidable c.Check := by
  unfold Check
  cases c.state <;> infer_instance

end Columns

/-- A row of `transport_delivery_chunks`. -/
def Chunk (Digest : Type) := { c : Columns Digest // c.Check }

/-- The columns of the projection that no command changes. -/
structure Frozen (Digest : Type) where
  capabilityBindingDigest : Digest
  rpcTimeoutSeconds : ℕ
  /-- Chunk index and expiry of every capability. -/
  capabilities : List (ℕ × Stamp)

inductive ResolutionKind
  | assumeDelivered | retry
  deriving DecidableEq

/-- The spelling of a resolution in errors. -/
def ResolutionKind.text : ResolutionKind → String
  | assumeDelivered => "assume_delivered"
  | retry => "retry"

/-- A row of `transport_delivery_chunk_resolutions`. -/
structure Resolution (Digest : Type) where
  id : ℕ
  chunkIndex : ℕ
  actorId : Text
  idempotencyKey : Text
  requestHash : Digest
  resolution : ResolutionKind
  priorRevision : ℕ
  priorClaimEpoch : ℕ
  resultState : ChunkState
  resultRevision : ℕ
  createdAt : Stamp

instance {Digest : Type} : Keyed (Resolution Digest) ℕ := ⟨Resolution.id⟩

inductive ParentState
  | pending | manualRequired | delivered | failed
  deriving DecidableEq

/-- The rows of one frozen projection. -/
structure Ledger (Digest : Type) where
  chunks : List (Chunk Digest)
  parentState : ParentState
  parentRevision : ℕ
  parentCompletedAt : Option Stamp
  resolutions : Table (Resolution Digest)

/-- The request a resolution is filed under. -/
structure ResolutionRequest where
  chunkIndex : ℕ
  resolution : ResolutionKind
  expectedRevision : ℕ
  deriving DecidableEq

/-- What a command reads besides the ledger: the clock, whether the stored projection still
verifies, the transport window in force, and the next id. -/
structure Readings where
  now : Civil
  projectionVerified : Bool
  transportWindowId : Option Text
  newId : ℕ

inductive ClaimStatus
  | state (state : ChunkState)
  | deferred

/-- `TransportDeliveryChunkClaim`, without the frozen projection. -/
structure ChunkClaim where
  status : ClaimStatus
  revision : ℕ
  claimOwner : Option Text
  claimEpoch : ℕ
  retryNotBefore : Option Stamp

/-- `TransportDeliveryChunkSendDecision`, with the permit of a permitted send. -/
inductive SendDecision
  | sendPermitted (revision claimEpoch : ℕ) (transportWindowId : Option Text)
  | capabilityMismatch
  | capabilityExpired

variable {Digest : Type}

/-- `_transport_chunk_index`. -/
def transportChunkIndex (chunkIndex : ℕ) : Except StoreError Unit :=
  require (chunkIndex < 100) (.valueError "chunk_index must be between 0 and 99")

/-- `_transport_worker_id`, by `_TRANSPORT_WORKER_RE`. -/
def transportWorkerId (workerId : Text) : Except StoreError Unit :=
  require (1 ≤ workerId.length ∧ workerId.length ≤ 200 ∧
      workerId.all (fun c => c.isAlphanum ∨ c ∈ ['_', '.', ':', '-']) = true)
    (.valueError "worker_id is invalid")

/-- `_transport_claim_epoch`. -/
def transportClaimEpoch (claimEpoch : ℕ) : Except StoreError Unit :=
  require (1 ≤ claimEpoch) (.valueError "claim_epoch must be a positive integer")

/-- `_transport_delivery_chunk_row`. -/
def chunkRow (l : Ledger Digest) (chunkIndex : ℕ) : Except StoreError (Chunk Digest) :=
  orRaise l.chunks[chunkIndex]? (.notFound "transport_delivery_chunk")

/-- The answer about a row. -/
def chunkClaim (row : Chunk Digest) (status : ClaimStatus) : ChunkClaim :=
  { status
    revision := row.val.revision
    claimOwner := row.val.claimOwner
    claimEpoch := row.val.claimEpoch
    retryNotBefore := row.val.retryNotBefore }

/-- `_refresh_transport_delivery_parent`. -/
def refreshParent (l : Ledger Digest) (now : Stamp) : Except StoreError (Ledger Digest) := do
  let states := l.chunks.map fun c => c.val.state
  require (states ≠ []) (.runtimeError "transport delivery projection is incomplete")
  let state :=
    if ∀ s ∈ states, s = .delivered then .delivered
    else if .sendingUnknown ∈ states then .manualRequired
    else if .failed ∈ states then .failed
    else .pending
  pure { l with
    parentState := state
    parentRevision := l.parentRevision + 1
    parentCompletedAt := if state ∈ [.delivered, .failed] then some now else none }

/-- `UPDATE transport_delivery_chunks … WHERE chunk_index = ?`, and the parent after it. -/
def writeChunk (l : Ledger Digest) (chunkIndex : ℕ) (columns : Columns Digest) (now : Stamp) :
    Except StoreError (Ledger Digest × ChunkClaim) := do
  if h : columns.Check then
    let row : Chunk Digest := ⟨columns, h⟩
    let l ← refreshParent { l with chunks := l.chunks.set chunkIndex row } now
    pure (l, chunkClaim row (.state columns.state))
  else throw .integrityError

/-- `_require_transport_chunk_fence`. -/
def requireFence (row : Chunk Digest) (source : ChunkState) (target : String) (workerId : Text)
    (claimEpoch expectedRevision : ℕ) (liveAt : Option Stamp) : Except StoreError Unit :=
  require (row.val.state = source ∧ row.val.claimOwner = some workerId ∧
      row.val.claimEpoch = claimEpoch ∧ row.val.revision = expectedRevision ∧
      ∀ now ∈ liveAt, ∃ expires ∈ row.val.claimExpiresAt, now < expires)
    (.invalidTransition "stale_claim" target)

/-! ## The worker -/

/-- `claim_transport_delivery_chunk`: an expired claim is taken over under the next epoch. -/
def claimChunk (l : Ledger Digest) (readings : Readings) (chunkIndex : ℕ) (workerId : Text)
    (leaseSeconds : ℕ) : Except StoreError (Ledger Digest × ChunkClaim) := do
  transportChunkIndex chunkIndex
  transportWorkerId workerId
  require (1 ≤ leaseSeconds ∧ leaseSeconds ≤ 3600)
    (.valueError "lease_seconds must be between 1 and 3600")
  let now := formatRegistryTime readings.now
  let expires ← orRaise (readings.now.addSeconds leaseSeconds) .overflowError
  let row ← chunkRow l chunkIndex
  if row.val.state ∈ [.sendingUnknown, .delivered, .failed] then
    pure (l, chunkClaim row (.state row.val.state))
  else do
    require (∀ earlier ∈ l.chunks.take chunkIndex, earlier.val.state = .delivered)
      (.invalidTransition "chunk_order" "claimed")
    if row.val.state = .claimed ∧ ∃ expiresAt ∈ row.val.claimExpiresAt, now < expiresAt then
      pure (l, chunkClaim row (.state row.val.state))
    else if row.val.state = .pending ∧ ∃ notBefore ∈ row.val.retryNotBefore, now < notBefore then
      pure (l, chunkClaim row .deferred)
    else
      writeChunk l chunkIndex
        { row.val with
          state := .claimed, revision := row.val.revision + 1, claimOwner := some workerId
          claimEpoch := row.val.claimEpoch + 1
          claimExpiresAt := some (formatRegistryTime expires), retryNotBefore := none } now

/-- `_fail_transport_delivery_chunk_row`. -/
def failChunkRow (l : Ledger Digest) (chunkIndex : ℕ) (row : Chunk Digest) (category : Text)
    (now : Stamp) : Except StoreError (Ledger Digest × ChunkClaim) :=
  writeChunk l chunkIndex
    { row.val with
      state := .failed, revision := row.val.revision + 1, claimOwner := none
      claimExpiresAt := none, retryNotBefore := none, failureCategory := some category
      completedAt := some now } now

/-- `begin_transport_delivery_chunk_send`: the permit is issued in the transaction that leaves
the chunk `sending_unknown`. -/
def beginChunkSend [DecidableEq Digest] (frozen : Frozen Digest) (l : Ledger Digest)
    (readings : Readings) (chunkIndex : ℕ) (workerId : Text) (claimEpoch expectedRevision : ℕ)
    (observedDigest : Digest) : Except StoreError (Ledger Digest × SendDecision) := do
  transportChunkIndex chunkIndex
  transportWorkerId workerId
  transportClaimEpoch claimEpoch
  let now := formatRegistryTime readings.now
  let row ← chunkRow l chunkIndex
  requireFence row .claimed "sending_unknown" workerId claimEpoch expectedRevision (some now)
  require (readings.projectionVerified = true)
    (.invalidTransition "projection_integrity" "verified")
  if frozen.capabilityBindingDigest ≠ observedDigest then do
    let (l, _) ← failChunkRow l chunkIndex row "capability_mismatch".toList now
    pure (l, .capabilityMismatch)
  else do
    let deadline ← orRaise (readings.now.addSeconds frozen.rpcTimeoutSeconds) .overflowError
    if ∃ capability ∈ frozen.capabilities,
        capability.1 = chunkIndex ∧ capability.2 ≤ formatRegistryTime deadline then do
      let (l, _) ← failChunkRow l chunkIndex row "capability_expired".toList now
      pure (l, .capabilityExpired)
    else do
      let (l, claim) ← writeChunk l chunkIndex
        { row.val with
          state := .sendingUnknown, revision := row.val.revision + 1, claimExpiresAt := none } now
      pure (l, .sendPermitted claim.revision claim.claimEpoch readings.transportWindowId)

/-- The window a completion names, if any. -/
def transportWindow : Option Text → Except StoreError (Option Text)
  | none => pure none
  | some windowId => do
      let windowId ← requiredText windowId "transport_window_id" 200
      pure (some windowId)

/-- `complete_transport_delivery_chunk`; the window of a chunk is written once. -/
def completeChunk (l : Ledger Digest) (readings : Readings) (chunkIndex : ℕ) (workerId : Text)
    (claimEpoch expectedRevision : ℕ) (receiptDigest : Digest) (transportWindowId : Option Text) :
    Except StoreError (Ledger Digest × ChunkClaim) := do
  transportChunkIndex chunkIndex
  transportWorkerId workerId
  transportClaimEpoch claimEpoch
  let windowId ← transportWindow transportWindowId
  let now := formatRegistryTime readings.now
  let row ← chunkRow l chunkIndex
  requireFence row .sendingUnknown "delivered" workerId claimEpoch expectedRevision none
  -- The trigger on the window column refuses another authorization.
  require (∀ old ∈ row.val.transportWindowId, windowId.getD old = old) .integrityError
  writeChunk l chunkIndex
    { row.val with
      state := .delivered, revision := row.val.revision + 1, claimOwner := none
      providerReceiptDigest := some receiptDigest, completedAt := some now
      transportWindowId := windowId.or row.val.transportWindowId } now

inductive ReleaseProof
  | rpcNotStarted | providerProvedBeforeSend
  deriving DecidableEq

/-- The state a proof of release starts from. -/
def ReleaseProof.source : ReleaseProof → ChunkState
  | rpcNotStarted => .claimed
  | providerProvedBeforeSend => .sendingUnknown

/-- The earliest next claim of a released chunk. -/
def retryTime (now : Civil) : Option ℕ → Except StoreError (Option Stamp)
  | none => pure none
  | some ms => do
      let later ← orRaise (Civil.ofMicros (now.micros + ms * 1000)) .overflowError
      pure (some (formatRegistryTime later))

/-- `release_transport_delivery_chunk`. -/
def releaseChunk (l : Ledger Digest) (readings : Readings) (chunkIndex : ℕ) (workerId : Text)
    (claimEpoch expectedRevision : ℕ) (proof : ReleaseProof) (retryAfterMs : Option ℕ) :
    Except StoreError (Ledger Digest × ChunkClaim) := do
  transportChunkIndex chunkIndex
  transportWorkerId workerId
  transportClaimEpoch claimEpoch
  require (∀ ms ∈ retryAfterMs, 1 ≤ ms ∧ ms ≤ 3600000)
    (.valueError "retry_after_ms must be between 1 and 3600000")
  let now := formatRegistryTime readings.now
  let retryNotBefore ← retryTime readings.now retryAfterMs
  let row ← chunkRow l chunkIndex
  requireFence row proof.source "pending" workerId claimEpoch expectedRevision
    (if proof.source = .claimed then some now else none)
  writeChunk l chunkIndex
    { row.val with
      state := .pending, revision := row.val.revision + 1, claimOwner := none
      claimExpiresAt := none, retryNotBefore } now

/-- The category pattern of `fail_transport_delivery_chunk`. -/
def isFailureCategory : Text → Bool
  | [] => false
  | first :: rest => first.isLower ∧ rest.length ≤ 99 ∧
      rest.all fun c => c.isLower ∨ c.isDigit ∨ c ∈ ['_', '.', '-']

/-- `fail_transport_delivery_chunk`. -/
def failChunk (l : Ledger Digest) (readings : Readings) (chunkIndex : ℕ) (workerId : Text)
    (claimEpoch expectedRevision : ℕ) (category : Text) :
    Except StoreError (Ledger Digest × ChunkClaim) := do
  transportChunkIndex chunkIndex
  transportWorkerId workerId
  transportClaimEpoch claimEpoch
  let category ← requiredText category "category" 100
  require (isFailureCategory category = true) (.valueError "category is invalid")
  let row ← chunkRow l chunkIndex
  requireFence row .sendingUnknown "failed" workerId claimEpoch expectedRevision none
  failChunkRow l chunkIndex row category (formatRegistryTime readings.now)

/-! ## The operator -/

/-- The row that files a resolution. -/
def resolutionRow (readings : Readings) (row : Chunk Digest) (chunkIndex : ℕ)
    (resolution : ResolutionKind) (expectedRevision : ℕ) (caller : Caller) (requestHash : Digest) :
    Resolution Digest :=
  { id := readings.newId
    chunkIndex
    actorId := caller.actorId
    idempotencyKey := caller.idempotencyKey
    requestHash
    resolution
    priorRevision := expectedRevision
    priorClaimEpoch := row.val.claimEpoch
    resultState := if resolution = .assumeDelivered then .delivered else .pending
    resultRevision := expectedRevision + 1
    createdAt := formatRegistryTime readings.now }

/-- `_transport_delivery_resolution_claim`. -/
def resolutionClaim (row : Resolution Digest) : ChunkClaim :=
  { status := .state row.resultState
    revision := row.resultRevision
    claimOwner := none
    claimEpoch := row.priorClaimEpoch
    retryNotBefore := none }

/-- The resolution filed under an actor and an idempotency key. -/
def filedResolution (l : Ledger Digest) (caller : Caller) : Option (Resolution Digest) :=
  l.resolutions.rows.find? fun r =>
    r.actorId = caller.actorId ∧ r.idempotencyKey = caller.idempotencyKey

/-- The body of a resolution that is not a replay. -/
def resolveSendingUnknown (l : Ledger Digest) (readings : Readings) (chunkIndex : ℕ)
    (resolution : ResolutionKind) (expectedRevision : ℕ) (caller : Caller) (requestHash : Digest) :
    Except StoreError (Ledger Digest × ChunkClaim) := do
  let row ← chunkRow l chunkIndex
  require (row.val.state = .sendingUnknown)
    (.invalidTransition row.val.state.text resolution.text)
  require (row.val.revision = expectedRevision)
    (.invalidTransition "stale_revision" resolution.text)
  let now := formatRegistryTime readings.now
  let resolutions ← orRaise
    (l.resolutions.insert?
      (resolutionRow readings row chunkIndex resolution expectedRevision caller requestHash))
    (.invalidTransition "resolution_conflict" "recorded")
  match resolution with
  | .assumeDelivered =>
      writeChunk { l with resolutions } chunkIndex
        { row.val with
          state := .delivered, revision := row.val.revision + 1, claimOwner := none
          manualResolutionId := some readings.newId, completedAt := some now } now
  | .retry =>
      writeChunk { l with resolutions } chunkIndex
        { row.val with
          state := .pending, revision := row.val.revision + 1, claimOwner := none
          claimExpiresAt := none } now

/-- `resolve_transport_delivery_chunk_sending_unknown`; a replay answers with the filed
resolution, marked here by `true`. -/
def resolveChunk [DecidableEq Digest] (requestHash : ResolutionRequest → Digest)
    (l : Ledger Digest) (readings : Readings) (chunkIndex : ℕ) (resolution : ResolutionKind)
    (expectedRevision : ℕ) (caller : Caller) :
    Except StoreError (Ledger Digest × ChunkClaim × Bool) := do
  transportChunkIndex chunkIndex
  let actorId ← requiredText caller.actorId "actor_id" 200
  validateKey caller.idempotencyKey
  let caller := { caller with actorId }
  let hash := requestHash { chunkIndex, resolution, expectedRevision }
  match filedResolution l caller with
  | some filed => do
      require (filed.requestHash = hash) .idempotencyConflict
      pure (l, resolutionClaim filed, true)
  | none => do
      let (l, claim) ←
        resolveSendingUnknown l readings chunkIndex resolution expectedRevision caller hash
      pure (l, claim, false)

end Cortex.Delivery
