import Cortex.Runs.Parts

/-!
# Requests, receipts and the event inbox

A command is answered by its receipt when it has one.  A command that is offered
for a runtime event is answered by the inbox as well: the row of an event keeps
the response it was committed with, under a hash of the request that leaves the
expected revision out.

`offer` is the frame of the five commands that take runtime events; every other
command is a `ledgerCommand`, which leaves the inbox alone.
-/

namespace Cortex.Runs

open Control Time Transaction

/-- The command a receipt is filed under. -/
inductive Operation
  | createThread (workspaceId : Text)
  | renameThread (threadId : ℕ)
  | archiveThread (threadId : ℕ)
  | unarchiveThread (threadId : ℕ)
  | appendMessage (threadId : ℕ)
  | createRun (threadId : ℕ)
  | createRuntimeBinding (threadId : ℕ)
  | reserveDispatch (runId : ℕ)
  | pinRuntime (runId : ℕ)
  | failUnbound (runId : ℕ)
  | resume (runId : ℕ)
  | retry (runId : ℕ)
  | transition (runId : ℕ) (targetState : RunState)
  | runtimeObservation (runId : ℕ)
  | assistantMessage (runId : ℕ)
  | checkpoint (runId : ℕ)
  | createDecision (runId : ℕ)
  | resolveDecision (decisionId : ℕ)
  | createSourceIntent (runId : ℕ)
  | resolveSourceIntent (intentId : ℕ)
  | claimAction (actionId : ℕ)
  | acknowledgeAction (actionId : ℕ)
  | failAction (actionId : ℕ)
  | rejectAction (actionId : ℕ)
  | markOutcomeUnknown (actionId : ℕ)
  | reconcileAction (actionId : ℕ)
  | deferReconciliation (actionId : ℕ)
  | retryDelivery (actionId : ℕ)
  | claimRelease (releaseId : ℕ)
  | settleRelease (releaseId : ℕ) (targetState : DeliveryState)
  | retryRelease (releaseId : ℕ)
  deriving DecidableEq

/-- The attempt a runtime result is for, and the runtime it came from. -/
structure RuntimeTarget where
  attemptId : ℕ
  runtimeBindingId : ℕ
  runtimeReleaseId : Text
  stateGenerationId : Option Text
  deriving DecidableEq

/-- The same of a transition, which need not name one. -/
structure TransitionTarget where
  attemptId : Option ℕ
  runtimeBindingId : Option ℕ
  runtimeReleaseId : Option Text
  stateGenerationId : Option Text
  deriving DecidableEq

inductive ObservationType
  | toolStarted | toolCompleted | sessionRebound | eventDiscarded
  deriving DecidableEq

def ObservationType.text : ObservationType → String
  | toolStarted => "runtime.tool.started"
  | toolCompleted => "runtime.tool.completed"
  | sessionRebound => "runtime.session_rebound"
  | eventDiscarded => "runtime.event.discarded"

/-- The fields an observation may carry. -/
structure ObservationPayload where
  toolCallId : Option Text
  toolName : Option Text
  isError : Option Bool
  durationMs : Option ℤ
  runtimeSessionRef : Option Text
  generation : Option ℤ
  parentRuntimeSessionRef : Option Text
  eventType : Option Text
  deriving DecidableEq

/-- The request of a command that takes runtime events, without the expected revision. -/
inductive OfferRequest
  | transition (targetState : RunState) (stage : Option Text) (payload : List (Text × Text))
      (target : TransitionTarget) (cause : RuntimeCause)
  | observation (target : RuntimeTarget) (eventType : ObservationType)
      (payload : ObservationPayload) (cause : RuntimeCause)
  | message (target : RuntimeTarget) (content : Text) (cause : RuntimeCause)
  | checkpoint (target : RuntimeTarget) (checkpointUri : Text) (cause : RuntimeCause)
  | decision (target : RuntimeTarget) (runtimeDecisionRef : Option Text)
      (runtimeDecisionRevision : Option ℤ) (kind prompt : Text) (options : List DecisionOption)
      (cause : RuntimeCause)
  deriving DecidableEq

namespace OfferRequest

def cause : OfferRequest → RuntimeCause
  | transition _ _ _ _ cause => cause
  | observation _ _ _ cause => cause
  | message _ _ cause => cause
  | checkpoint _ _ cause => cause
  | decision _ _ _ _ _ _ cause => cause

/-- The attempt a request is for. -/
def attemptId : OfferRequest → Option ℕ
  | transition _ _ _ target _ => target.attemptId
  | observation target _ _ _ => some target.attemptId
  | message target _ _ => some target.attemptId
  | checkpoint target _ _ => some target.attemptId
  | decision target _ _ _ _ _ _ => some target.attemptId

end OfferRequest

/-- The request whose hash a receipt keeps. -/
inductive Request
  | title (title : Text) (expectedRevision : ℤ)
  | revision (expectedRevision : ℤ)
  | message (role : MessageRole) (content : Text) (expectedRevision : ℤ)
  | createRun (expectedRevision : ℤ) (workflow : Option (Text × ℕ))
  | binding (threadId : ℕ) (adapterId runtimeSessionRef : Text) (generation : ℤ)
      (adapterVersion : Text) (parentRef : Option Text)
  | reserve (attemptId : ℕ) (dispatchOwner : Text) (identity : RuntimeIdentity)
      (expectedRevision leaseSeconds : ℤ)
  | pin (attemptId runtimeBindingId : ℕ) (runtimeReleaseId stateGenerationId : Text)
      (expectedRevision : ℤ) (dispatchOwner : Text)
  | failUnbound (attemptId : ℕ) (expectedRevision : ℤ) (category : Text)
      (dispatchOwner : Option Text) (retryable : Bool)
  | restart (expectedRevision : ℤ) (reason : Option Text)
  | offer (request : OfferRequest) (expectedRevision : ℤ)
  | choice (choice : Text) (expectedRevision : ℤ)
  | sourceIntent (attemptId : ℕ) (title locator locatorSha256 : Option Text)
  | claim (workerId : Text) (leaseSeconds : ℤ)
  | acknowledge (runId : ℕ) (target : RuntimeTarget) (claimOwner : Text)
      (claimEpoch expectedRevision : ℤ)
  | settle (claimOwner : Text) (claimEpoch expectedRevision : ℤ) (category : Option Text)
  | redeliver (claimOwner : Text) (claimEpoch expectedRevision : ℤ)
  deriving DecidableEq

/-- What `_request_hash` is taken of: a request, or the operation and the logical request
of an event. -/
inductive Hashed
  | request (request : Request)
  | event (operation : Operation) (request : OfferRequest)
  deriving DecidableEq

inductive Response
  | thread (value : Thread)
  | message (value : Message)
  | run (value : Run)
  | runAttempt (value : Run) (attempt : Attempt)
  | runMessage (value : Run) (message : Message)
  | binding (value : RuntimeBinding)
  | decision (value : Decision)
  | decisionAction (value : Decision) (runtimeActionId : ℕ)
  | intent (value : SourceIntent)
  | action (value : RuntimeAction)
  | release (value : PinRelease)
  deriving DecidableEq

/-- The code that the model does not contain: the hash of a request, and the root that
`parse_resource_uri` finds in a URI. -/
structure Platform (Digest : Type) where
  requestHash : Hashed → Digest
  resourceRoot : Text → Option Text

/-- A row of `runtime_event_inbox`. -/
structure InboxRow (Digest : Type) where
  attemptId : ℕ
  adapterEventId : Text
  payloadHash : Digest
  statusCode : ℕ
  response : Response
  receivedAt : Stamp
  adapterEventSequence : ℤ

instance {Digest : Type} : Keyed (InboxRow Digest) (ℕ × Text) :=
  ⟨fun r => (r.attemptId, r.adapterEventId)⟩

structure Tables (Digest : Type) where
  ledger : Ledger
  inbox : Table (InboxRow Digest)

abbrev Store (Digest : Type) := Receipted (Tables Digest) Operation Digest Response

def emptyStore {Digest : Type} : Store Digest where
  tables := { ledger := .empty, inbox := .empty }
  receipts := .empty

/-- `_ADAPTER_EVENT_RE`. -/
def isEventIdChar (c : Char) : Bool := c.isAlphanum ∨ c ∈ ['_', '.', ':', '-']

/-- `_validate_adapter_event_id`. -/
def validateAdapterEventId (adapterEventId : Text) : Except StoreError Unit :=
  require (1 ≤ adapterEventId.length ∧ adapterEventId.length ≤ 500 ∧
      adapterEventId.all isEventIdChar = true)
    (.valueError "adapter_event_id is invalid")

section Frames

variable {Digest : Type} [DecidableEq Digest] (platform : Platform Digest)

/-- `COALESCE(MAX(adapter_event_sequence), -1)` over the events of an attempt. -/
def latestSequence (inbox : Table (InboxRow Digest)) (attemptId : ℕ) : ℤ :=
  ((inbox.rows.filter fun r => r.attemptId = attemptId).map InboxRow.adapterEventSequence).foldr
    max (-1)

/-- `_runtime_event_replay`. -/
def runtimeEventReplay (inbox : Table (InboxRow Digest)) (operation : Operation)
    (request : OfferRequest) (adapterEventId : Option Text) :
    Except StoreError (Option (CommandResult Response)) :=
  match adapterEventId with
  | none => pure none
  | some adapterEventId => do
      let attemptId ← orRaise request.attemptId
        (.valueError "attempt_id is required for a runtime event")
      validateAdapterEventId adapterEventId
      let sequence ← orRaise request.cause.adapterEventSequence
        (.valueError "adapter_event_sequence is required for a runtime event")
      require (0 ≤ sequence) (.valueError "adapter_event_sequence must be non-negative")
      match inbox.get? (attemptId, adapterEventId) with
      | some row => do
          require (row.adapterEventSequence = sequence ∧
              row.payloadHash = platform.requestHash (.event operation request))
            .idempotencyConflict
          pure (some { value := row.response, statusCode := row.statusCode, replayed := true })
      | none => do
          require (∀ r ∈ inbox.rows, r.attemptId = attemptId → r.adapterEventSequence ≠ sequence)
            .idempotencyConflict
          let expected := latestSequence inbox attemptId + 1
          require (sequence = expected)
            (.invalidTransition
              (if expected < sequence then "runtime_event_sequence_gap"
                else "stale_runtime_event_sequence")
              "runtime_event_ingest")
          pure none

/-- `_save_runtime_event`; the sequences of an attempt are unique in the table. -/
def saveRuntimeEvent (inbox : Table (InboxRow Digest)) (operation : Operation)
    (request : OfferRequest) (attemptId : ℕ) (adapterEventId : Option Text)
    (result : CommandResult Response) (now : Stamp) :
    Except StoreError (Table (InboxRow Digest)) :=
  match adapterEventId with
  | none => pure inbox
  | some adapterEventId => do
      validateAdapterEventId adapterEventId
      let sequence ← orRaise request.cause.adapterEventSequence .integrityError
      require (∀ r ∈ inbox.rows, r.attemptId = attemptId → r.adapterEventSequence ≠ sequence)
        .integrityError
      let row :=
        { attemptId, adapterEventId
          payloadHash := platform.requestHash (.event operation request)
          statusCode := result.statusCode
          response := result.value
          receivedAt := now
          adapterEventSequence := sequence }
      orRaise (inbox.insert? row) .integrityError

/-- A command on the ledger, with its receipt. -/
def ledgerCommand (s : Store Digest) (caller : Caller) (operation : Operation)
    (request : Request) (statusCode : ℕ) (now : Civil)
    (body : Ledger → Except StoreError (Ledger × Response)) :
    Except StoreError (Store Digest × CommandResult Response) :=
  command platform.requestHash s caller operation (.request request) statusCode now do
    let (ledger, value) ← body s.tables.ledger
    pure ({ s.tables with ledger }, value)

/-- A command offered for a runtime event: the receipt, the inbox, the command itself, and
the two rows it files.  The body names the attempt the event is saved under. -/
def offer (s : Store Digest) (caller : Caller) (operation : Operation) (request : OfferRequest)
    (expectedRevision : ℤ) (adapterEventId : Option Text) (statusCode : ℕ) (now : Civil)
    (body : Ledger → Except StoreError (Ledger × Response × ℕ)) :
    Except StoreError (Store Digest × CommandResult Response) := do
  let filed := .request (.offer request expectedRevision)
  match ← receipt platform.requestHash s.receipts caller operation filed with
  | some replay => pure (s, replay)
  | none =>
      match ← runtimeEventReplay platform s.tables.inbox operation request adapterEventId with
      | some replay => pure (s, replay)
      | none =>
          let (ledger, value, attemptId) ← body s.tables.ledger
          let (receipts, result) ← saveReceipt platform.requestHash s.receipts caller operation
            filed value statusCode now
          let inbox ← saveRuntimeEvent platform s.tables.inbox operation request attemptId
            adapterEventId result (formatTime now)
          pure ({ tables := { ledger, inbox }, receipts }, result)

variable {platform}

/-- A committed command is a replay that changes nothing, or its body on the ledger. -/
theorem ledgerCommand_eq_ok {s s' : Store Digest} {caller : Caller} {operation : Operation}
    {request : Request} {statusCode : ℕ} {now : Civil}
    {body : Ledger → Except StoreError (Ledger × Response)} {result : CommandResult Response}
    (h : ledgerCommand platform s caller operation request statusCode now body = .ok (s', result)) :
    (result.replayed = true ∧ s' = s) ∨
      (result.replayed = false ∧ s'.tables.inbox = s.tables.inbox ∧
        (∀ row ∈ s.receipts, row ∈ s'.receipts) ∧
        body s.tables.ledger = .ok (s'.tables.ledger, result.value)) := by
  rcases command_eq_ok h with hreplay | ⟨hnew, hkept, hbody⟩
  · exact .inl hreplay
  · simp only [bind_eq_ok, pure_eq_ok, Prod.mk.injEq] at hbody
    obtain ⟨⟨ledger, value⟩, hbody, htables, rfl⟩ := hbody
    rw [← htables]
    exact .inr ⟨hnew, rfl, hkept, hbody⟩

private theorem runtimeEventReplay_eq_some {inbox : Table (InboxRow Digest)} {operation : Operation}
    {request : OfferRequest} {adapterEventId : Option Text} {replay : CommandResult Response}
    (h : runtimeEventReplay platform inbox operation request adapterEventId = .ok (some replay)) :
    replay.replayed = true := by
  unfold runtimeEventReplay at h
  split at h
  · simp at h
  · simp only [bind_eq_ok] at h
    obtain ⟨_, -, -, -, _, -, -, -, h⟩ := h
    split at h
    · simp only [bind_eq_ok, pure_eq_ok, Option.some.injEq] at h
      obtain ⟨-, -, rfl⟩ := h
      rfl
    · simp only [bind_eq_ok, pure_eq_ok] at h
      obtain ⟨-, -, -, -, hnone⟩ := h
      cases hnone

/-- What an offer that commits leaves in the two tables it writes. -/
structure Filed (platform : Platform Digest) (s s' : Store Digest) (caller : Caller)
    (operation : Operation) (request : OfferRequest) (expectedRevision : ℤ)
    (adapterEventId : Option Text) (attemptId : ℕ) (result : CommandResult Response)
    (now : Stamp) : Prop where
  key : ∃ u, validateKey caller.idempotencyKey = .ok u
  first : runtimeEventReplay platform s.tables.inbox operation request adapterEventId = .ok none
  event : saveRuntimeEvent platform s.tables.inbox operation request attemptId adapterEventId result
    now = .ok s'.tables.inbox
  kept : ∀ row ∈ s.receipts, row ∈ s'.receipts
  receipted : ∃ row ∈ s'.receipts, Keyed.key row = (caller.actorId, operation, caller.idempotencyKey) ∧
    row.requestHash = platform.requestHash (.request (.offer request expectedRevision)) ∧
    row.response = result.value ∧ row.statusCode = result.statusCode

/-- An offer that commits is a replay that changes nothing, or its body, after both checks, and
the rows of its receipt and its event. -/
theorem offer_eq_ok {s s' : Store Digest} {caller : Caller} {operation : Operation}
    {request : OfferRequest} {expectedRevision : ℤ} {adapterEventId : Option Text}
    {statusCode : ℕ} {now : Civil} {body : Ledger → Except StoreError (Ledger × Response × ℕ)}
    {result : CommandResult Response}
    (h : offer platform s caller operation request expectedRevision adapterEventId statusCode now
      body = .ok (s', result)) :
    (result.replayed = true ∧ s' = s) ∨
      (result.replayed = false ∧
        ∃ attemptId, body s.tables.ledger = .ok (s'.tables.ledger, result.value, attemptId) ∧
          Filed platform s s' caller operation request expectedRevision adapterEventId attemptId
            result (formatTime now)) := by
  simp only [offer, bind_eq_ok] at h
  obtain ⟨replay, hreceipt, h⟩ := h
  cases replay with
  | some replay =>
      simp only [pure_eq_ok, Prod.mk.injEq] at h
      obtain ⟨rfl, rfl⟩ := h
      exact .inl ⟨(receipt_eq_some hreceipt).1, rfl⟩
  | none =>
      simp only [bind_eq_ok] at h
      obtain ⟨replay, hreplay, h⟩ := h
      cases replay with
      | some replay =>
          simp only [pure_eq_ok, Prod.mk.injEq] at h
          obtain ⟨rfl, rfl⟩ := h
          exact .inl ⟨runtimeEventReplay_eq_some hreplay, rfl⟩
      | none =>
          simp only [bind_eq_ok, saveReceipt, orRaise_eq_ok, pure_eq_ok, Prod.mk.injEq] at h
          obtain ⟨⟨ledger, value, attemptId⟩, hbody, ⟨receipts, saved⟩, ⟨inserted, hinsert, rfl, rfl⟩,
            inbox, hsave, rfl, rfl⟩ := h
          simp only [receipt, bind_eq_ok] at hreceipt
          obtain ⟨u, hkey, -⟩ := hreceipt
          refine .inr ⟨rfl, attemptId, hbody, ⟨u, hkey⟩, hreplay, hsave, fun row hrow => ?_,
            _, (Table.mem_insert hinsert).2 (.inr rfl), rfl, rfl, rfl, rfl⟩
          exact (Table.mem_insert hinsert).2 (.inl hrow)

end Frames

end Cortex.Runs
