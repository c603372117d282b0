import Cortex.Delivery.Parent
import Mathlib.Data.Char
import Mathlib.Data.List.Lex
import Mathlib.Data.Prod.Lex

/-!
# The two delivery ledgers of the store

A delivery key names either a row of the legacy ledger, which knows one claim for
the whole message, or a frozen projection with a row for each chunk.  The worker
of the legacy ledger looks for a projection before it inserts its row, and a
projection is frozen only where there is no legacy row.

`pendingTransportDeliveries` lists what a worker re-enters.
-/

namespace Cortex.Delivery

open Control Time Transaction

/-! ## Keys and rows -/

structure DeliveryKey where
  transport : Text
  destinationDigest : Text
  eventId : Text
  projectionVersion : ℕ
  deriving DecidableEq

/-- `_TRANSPORT_NAME_RE`. -/
def isTransportName : Text → Bool
  | [] => false
  | first :: rest => first.isLower ∧ rest.length ≤ 49 ∧
      rest.all fun c => c.isLower ∨ c.isDigit ∨ c ∈ ['_', '-']

/-- `_BINDING_DIGEST_RE`. -/
def isBindingDigest (value : Text) : Bool :=
  value.take 12 = "hmac-sha256:".toList ∧ (value.drop 12).length = 64 ∧
    (value.drop 12).all fun c => c.isDigit ∨ ('a' ≤ c ∧ c ≤ 'f')

/-- `_transport_name`. -/
def transportName (transport : Text) : Except StoreError Unit :=
  require (isTransportName transport = true) (.valueError "transport is invalid")

/-- `_transport_delivery_key`. -/
def transportDeliveryKey (key : DeliveryKey) : Except StoreError DeliveryKey := do
  transportName key.transport
  require (isBindingDigest key.destinationDigest = true)
    (.valueError "destination_digest must be a Control binding digest")
  let eventId ← requiredText key.eventId "event_id" 500
  require (1 ≤ key.projectionVersion)
    (.valueError "projection_version must be a positive integer")
  pure { key with eventId }

/-- The states of a legacy row, each with the columns that are set in it. -/
inductive LegacyState
  | pending
  | claimed (claimOwner : Text) (claimExpiresAt : Stamp)
  | delivered (deliveredAt : Stamp)

/-- A row of `transport_deliveries`. -/
structure LegacyDelivery where
  key : DeliveryKey
  state : LegacyState
  claimEpoch : ℕ
  createdAt : Stamp

instance : Keyed LegacyDelivery DeliveryKey := ⟨LegacyDelivery.key⟩

variable {Digest : Type}

/-- A projection as its sender built it. -/
structure FrozenProjection (Digest : Type) where
  deliveryKey : DeliveryKey
  operationId : Text
  projectionHash : Digest
  frozen : Frozen Digest
  chunkCount : ℕ

/-- A row of `transport_delivery_projections`, with the rows of its chunks. -/
structure Projection (Digest : Type) where
  key : DeliveryKey
  operationId : Text
  requestHash : Digest
  projectionHash : Digest
  frozen : Frozen Digest
  createdAt : Stamp
  ledger : Ledger Digest

instance : Keyed (Projection Digest) DeliveryKey := ⟨Projection.key⟩

structure Store (Digest : Type) where
  legacy : Table LegacyDelivery
  projections : Table (Projection Digest)

def Store.empty : Store Digest := ⟨.empty, .empty⟩

/-- What a command of the store reads besides: the first error of the remaining checks of a
projection, and whether one of its tokens is registered already. -/
structure StoreReadings extends Readings where
  projectionError : Option StoreError
  tokenCollision : Bool

/-! ## The legacy ledger -/

inductive DeliveryStatus
  | claimed | inFlight | delivered
  deriving DecidableEq

/-- `TransportDeliveryClaim`, without the key. -/
structure DeliveryClaim where
  status : DeliveryStatus
  claimOwner : Option Text
  claimEpoch : ℕ
  claimExpiresAt : Option Stamp

/-- `_transport_delivery_claim`. -/
def deliveryClaim (row : LegacyDelivery) (status : DeliveryStatus) : DeliveryClaim :=
  match row.state with
  | .claimed owner expiresAt => ⟨status, some owner, row.claimEpoch, some expiresAt⟩
  | _ => ⟨status, none, row.claimEpoch, none⟩

/-- The row is claimed and its lease runs. -/
def LegacyDelivery.live (row : LegacyDelivery) (now : Stamp) : Bool :=
  match row.state with
  | .claimed _ expiresAt => now < expiresAt
  | _ => false

/-- `claim_transport_delivery`. -/
def claimDelivery (s : Store Digest) (readings : StoreReadings) (key : DeliveryKey)
    (workerId : Text) (leaseSeconds : ℕ) : Except StoreError (Store Digest × DeliveryClaim) := do
  let key ← transportDeliveryKey key
  transportWorkerId workerId
  require (1 ≤ leaseSeconds ∧ leaseSeconds ≤ 3600)
    (.valueError "lease_seconds must be between 1 and 3600")
  let now := formatTime readings.now
  let expires ← orRaise (readings.now.addSeconds leaseSeconds) .overflowError
  match s.projections.get? key with
  | some projection =>
      let status := if projection.ledger.parentState = .delivered then .delivered else .inFlight
      pure (s, ⟨status, none, 0, none⟩)
  | none =>
      match s.legacy.get? key with
      | none => do
          let row := ⟨key, .claimed workerId (formatTime expires), 1, now⟩
          let legacy ← orRaise (s.legacy.insert? row) .integrityError
          pure ({ s with legacy }, deliveryClaim row .claimed)
      | some row =>
          match row.state with
          | .delivered _ => pure (s, deliveryClaim row .delivered)
          | _ =>
              if row.live now then pure (s, deliveryClaim row .inFlight)
              else
                let state := LegacyState.claimed workerId (formatTime expires)
                let claimed := fun r : LegacyDelivery =>
                  { r with state, claimEpoch := r.claimEpoch + 1 }
                pure ({ s with legacy := s.legacy.update (fun r => r.key = key) claimed },
                  deliveryClaim (claimed row) .claimed)

/-- The row is claimed by this worker under this epoch. -/
def LegacyDelivery.heldBy (row : LegacyDelivery) (workerId : Text) (claimEpoch : ℕ) : Bool :=
  match row.state with
  | .claimed owner _ => owner = workerId ∧ row.claimEpoch = claimEpoch
  | _ => false

/-- `complete_transport_delivery`. -/
def completeDelivery (s : Store Digest) (readings : StoreReadings) (key : DeliveryKey)
    (workerId : Text) (claimEpoch : ℕ) : Except StoreError (Store Digest × DeliveryClaim) := do
  let key ← transportDeliveryKey key
  transportWorkerId workerId
  transportClaimEpoch claimEpoch
  let now := formatTime readings.now
  let legacy ← orRaise
    (s.legacy.updateRow? key (fun r => r.heldBy workerId claimEpoch ∧ r.live now)
      fun r => { r with state := .delivered now })
    (.invalidTransition "stale_claim" "delivered")
  pure ({ s with legacy }, ⟨.delivered, none, claimEpoch, none⟩)

/-- `release_transport_delivery`. -/
def releaseDelivery (s : Store Digest) (key : DeliveryKey) (workerId : Text) (claimEpoch : ℕ) :
    Except StoreError (Store Digest) := do
  let key ← transportDeliveryKey key
  transportWorkerId workerId
  transportClaimEpoch claimEpoch
  let legacy ← orRaise
    (s.legacy.updateRow? key (fun r => r.heldBy workerId claimEpoch = true)
      fun r => { r with state := .pending })
    (.invalidTransition "stale_claim" "pending")
  pure { s with legacy }

/-! ## Freezing -/

inductive Disposition
  | alreadyDelivered | legacyDeliveryUncertain | replayed | frozen
  deriving DecidableEq

/-- `validate_transport_delivery_projection`: its checks of the chunks, and the others. -/
def validateProjection (projection : FrozenProjection Digest) (readings : StoreReadings) :
    Except StoreError Unit := do
  require (1 ≤ projection.chunkCount ∧ projection.chunkCount ≤ 100)
    (.valueError "chunks must contain between 1 and 100 items")
  match readings.projectionError with
  | some error => throw error
  | none => pure ()

/-- `freeze_transport_delivery_projection`. -/
def freezeProjection [DecidableEq Digest] (s : Store Digest) (readings : StoreReadings)
    (projection : FrozenProjection Digest) (requestHash : Digest) :
    Except StoreError (Store Digest × Disposition) := do
  validateProjection projection readings
  let key ← transportDeliveryKey projection.deliveryKey
  match s.legacy.get? key with
  | some row =>
      match row.state with
      | .delivered _ => pure (s, .alreadyDelivered)
      | _ => pure (s, .legacyDeliveryUncertain)
  | none =>
      match s.projections.get? key with
      | some existing => do
          require (existing.requestHash = requestHash) .idempotencyConflict
          require (readings.projectionVerified = true)
            (.invalidTransition "projection_integrity" "verified")
          require (existing.projectionHash = projection.projectionHash)
            (.invalidTransition "projection_drift" "replayed")
          pure (s, .replayed)
      | none => do
          let conflict := StoreError.invalidTransition "projection_conflict" "frozen"
          require (∀ row ∈ s.projections.rows, row.operationId ≠ projection.operationId) conflict
          let projections ← orRaise
            (s.projections.insert?
              { key
                operationId := projection.operationId
                requestHash
                projectionHash := projection.projectionHash
                frozen := projection.frozen
                createdAt := formatRegistryTime readings.now
                ledger := frozenLedger projection.chunkCount }) conflict
          require (readings.tokenCollision = false)
            (.invalidTransition "token_collision" "frozen")
          pure ({ s with projections }, .frozen)

/-! ## Chunks -/

section Chunks

variable [DecidableEq Digest] (requestHash : DeliveryKey → ResolutionRequest → Digest)

/-- The resolution that another projection filed under the caller. -/
def filedElsewhere (s : Store Digest) (key : DeliveryKey) (caller : Caller) :
    Option (Resolution Digest) :=
  ((s.projections.rows.filter fun row => row.key ≠ key).flatMap
    fun row => row.ledger.resolutions.rows).find? fun r =>
      r.actorId = caller.actorId ∧ r.idempotencyKey = caller.idempotencyKey

/-- The answer to a resolution that another projection filed already. -/
def resolvedElsewhere (s : Store Digest) (key : DeliveryKey) :
    Call Digest → Except StoreError (Option Reply)
  | .resolve chunkIndex resolution expectedRevision caller => do
      transportChunkIndex chunkIndex
      let actorId ← requiredText caller.actorId "actor_id" 200
      validateKey caller.idempotencyKey
      match filedElsewhere s key { caller with actorId } with
      | some filed => do
          require (filed.requestHash = requestHash key { chunkIndex, resolution, expectedRevision })
            .idempotencyConflict
          pure (some (.resolution (resolutionClaim filed) true))
      | none => pure none
  | _ => pure none

/-- A command on the chunks of a key. -/
def onChunks (s : Store Digest) (readings : StoreReadings) (key : DeliveryKey)
    (call : Call Digest) : Except StoreError (Store Digest × Reply) := do
  let key ← transportDeliveryKey key
  match ← resolvedElsewhere requestHash s key call with
  | some reply => pure (s, reply)
  | none => do
      let row ← orRaise (s.projections.get? key) (.notFound "transport_delivery_chunk")
      let (ledger, reply) ←
        exec row.frozen (requestHash key) row.ledger (call, readings.toReadings)
      let projections := s.projections.update (fun r => r.key = key) fun r => { r with ledger }
      pure ({ s with projections }, reply)

/-! ## The store -/

inductive StoreCall (Digest : Type)
  | claim (key : DeliveryKey) (workerId : Text) (leaseSeconds : ℕ)
  | complete (key : DeliveryKey) (workerId : Text) (claimEpoch : ℕ)
  | release (key : DeliveryKey) (workerId : Text) (claimEpoch : ℕ)
  | freeze (projection : FrozenProjection Digest) (requestHash : Digest)
  | chunk (key : DeliveryKey) (call : Call Digest)

inductive StoreReply
  | claim (claim : DeliveryClaim)
  | released
  | disposition (disposition : Disposition)
  | chunk (reply : Reply)

/-- One command of the store, with its readings. -/
def execStore (s : Store Digest) (input : StoreCall Digest × StoreReadings) :
    Except StoreError (Store Digest × StoreReply) :=
  let readings := input.2
  match input.1 with
  | .claim key workerId leaseSeconds => do
      let (s, claim) ← claimDelivery s readings key workerId leaseSeconds
      pure (s, .claim claim)
  | .complete key workerId claimEpoch => do
      let (s, claim) ← completeDelivery s readings key workerId claimEpoch
      pure (s, .claim claim)
  | .release key workerId claimEpoch => do
      let s ← releaseDelivery s key workerId claimEpoch
      pure (s, .released)
  | .freeze projection hash => do
      let (s, disposition) ← freezeProjection s readings projection hash
      pure (s, .disposition disposition)
  | .chunk key call => do
      let (s, reply) ← onChunks requestHash s readings key call
      pure (s, .chunk reply)

end Chunks

/-! ## What is pending -/

structure PendingDelivery where
  key : DeliveryKey
  state : ParentState
  createdAt : Stamp

/-- The order of the listing: by age, and by operation among those of one age. -/
def Projection.order (row : Projection Digest) : Text ×ₗ Text :=
  toLex (row.createdAt, row.operationId)

/-- The rows that the listing goes through. -/
def pendingRows (s : Store Digest) (transport : Text) : List (Projection Digest) :=
  (s.projections.rows.filter fun row =>
    row.key.transport = transport ∧ row.ledger.parentState = .pending).mergeSort
      fun a b => a.order ≤ b.order

/-- `pending_transport_deliveries`. -/
def pendingTransportDeliveries (s : Store Digest) (transport : Text) (limit : ℕ) :
    Except StoreError (List PendingDelivery) := do
  transportName transport
  require (1 ≤ limit ∧ limit ≤ 1000) (.valueError "limit must be between 1 and 1000")
  pure (((pendingRows s transport).take limit).map fun row =>
    ⟨row.key, row.ledger.parentState, row.createdAt⟩)

end Cortex.Delivery
