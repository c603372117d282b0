import Cortex.Control.Receipts
import Cortex.Library.Keyset
import Mathlib.Data.Char

/-!
# The capture inbox

The commands of `ControlStore` over the `captures` table.  An operator stages a
payload, approves or dismisses it, and re-opens it when its outcome is unknown;
a consumer polls the approved captures, claims one under a lease and reports the
outcome under the owner and epoch of its claim.

A lease that has run out is found by whichever consumer command sweeps next.
-/

namespace Cortex.Captures

open Control Time Transaction

inductive CaptureState
  | pending | approved | claimed | uncertain | consumed | dismissed | failed
  deriving DecidableEq

namespace CaptureState

/-- The spelling of a state in the table and in errors. -/
def text : CaptureState → String
  | pending => "pending"
  | approved => "approved"
  | claimed => "claimed"
  | uncertain => "uncertain"
  | consumed => "consumed"
  | dismissed => "dismissed"
  | failed => "failed"

/-- The states in which a capture blocks another one of its key. -/
def isOpen (state : CaptureState) : Prop :=
  state ∈ [pending, approved, claimed, uncertain]

instance (state : CaptureState) : Decidable state.isOpen := by
  unfold isOpen
  infer_instance

/-- `CAPTURE_TERMINAL_STATES`. -/
def isTerminal (state : CaptureState) : Prop := state ∈ [consumed, dismissed, failed]

/-- `_CAPTURE_DISMISSABLE`. -/
def isDismissable (state : CaptureState) : Prop := state ∈ [pending, approved, uncertain]

instance (state : CaptureState) : Decidable state.isDismissable := by
  unfold isDismissable
  infer_instance

end CaptureState

inductive CaptureKind
  | url | text
  deriving DecidableEq

/-- A row of `captures`. -/
structure Capture where
  id : ℕ
  captureKey : Text
  payload : Text
  kind : CaptureKind
  note : Text
  state : CaptureState
  claimOwner : Option Text
  claimEpoch : ℕ
  claimExpiresAt : Option Stamp
  knownSourceId : Option Text
  consumedSourceIds : Option (List Text)
  failureCategory : Option String
  revision : ℕ
  createdAt : Stamp
  updatedAt : Stamp
  deriving DecidableEq

instance : Keyed Capture ℕ := ⟨Capture.id⟩

abbrev CaptureTable := Table Capture

/-- The command a receipt is filed under. -/
inductive Operation
  | create
  | approve (captureId : ℕ)
  | dismiss (captureId : ℕ)
  | reopen (captureId : ℕ)
  | claim (captureId : ℕ)
  | complete (captureId : ℕ)
  deriving DecidableEq

/-- The request whose hash a receipt keeps. -/
inductive Request
  | create (payload note : Text)
  | revision (expectedRevision : ℤ)
  | reopen (expectedRevision : ℤ)
  | claim (workerId : Text) (leaseSeconds : ℤ)
  | complete (claimOwner : Text) (claimEpoch : ℤ) (outcome : String)
      (consumedSourceIds : Option (List Text)) (failureCategory : Option String)
      (detail : List (Text × Text))
  deriving DecidableEq

/-- What a command reads from outside its table: the clock, one reading after
the other, the next id, and the source tables of the same transaction. -/
structure Readings where
  clock : ℕ → Civil
  newId : ℕ
  sourceOfAlias : Text → Option Text
  isSource : Text → Bool

variable {Digest : Type} [DecidableEq Digest]

abbrev Store (Digest : Type) := Receipted CaptureTable Operation Digest Capture

/-- `_capture`. -/
def capture (captures : CaptureTable) (captureId : ℕ) : Except StoreError Capture :=
  orRaise (captures.get? captureId) (.notFound "capture")

/-! ## Staging -/

/-- `_capture_note`. -/
def captureNote (note : Text) : Except StoreError Text :=
  if 2000 < note.length then .error (.valueError "note is invalid") else .ok note

/-- `_open_capture`: the oldest open capture of a key. -/
def openCapture (captures : CaptureTable) (captureKey : Text) : Option Capture :=
  (Keyset.orderBy (fun c => toLex (c.createdAt, c.id))
    (captures.rows.filter fun c => c.captureKey = captureKey ∧ c.state.isOpen)).head?

/-- `_known_capture_source`: an alias of the corpus, else the newest consumed capture. -/
def knownCaptureSource (captures : CaptureTable) (readings : Readings) (captureKey : Text) :
    Option Text :=
  match readings.sourceOfAlias captureKey with
  | some sourceId => some sourceId
  | none =>
      match (Keyset.orderBy (fun c => toLex (c.updatedAt, c.id))
        (captures.rows.filter fun c =>
          c.captureKey = captureKey ∧ c.state = .consumed ∧ c.consumedSourceIds.isSome)).getLast? with
      | none => none
      | some consumed => (consumed.consumedSourceIds.getD []).head?

/-- `_insert_capture`. -/
def insertCapture (captures : CaptureTable) (readings : Readings) (payload note : Text)
    (kind : CaptureKind) (captureKey : Text) : Except StoreError (CaptureTable × Capture) := do
  let now := readings.clock 0
  let row :=
    { id := readings.newId
      captureKey, payload, kind, note
      state := .pending
      claimOwner := none
      claimEpoch := 0
      claimExpiresAt := none
      knownSourceId := knownCaptureSource captures readings captureKey
      consumedSourceIds := none
      failureCategory := none
      revision := 0
      createdAt := formatTime now
      updatedAt := formatTime now }
  let captures ← orRaise (captures.insert? row) .integrityError
  pure (captures, row)

section Commands

variable (requestHash : Request → Digest) (captureShape : Text → CaptureKind × Text)

/-- `create_capture`; `captureShape` is `_capture_shape`, which parses the payload as a URL. -/
def createCapture (s : Store Digest) (readings : Readings) (payload note : Text)
    (caller : Caller) : Except StoreError (Store Digest × CommandResult Capture) := do
  let _ ← requiredText payload "payload" 16384
  let note ← captureNote note
  let (kind, captureKey) := captureShape (strip payload)
  command requestHash s caller .create (.create payload note) 201 (readings.clock 1) do
    require ((openCapture s.tables captureKey).isNone) .captureConflict
    insertCapture s.tables readings payload note kind captureKey

/-- `_stage_capture`: the open capture of the key, or a new one; a part of another command. -/
def stageCapture (s : Store Digest) (readings : Readings) (payload note : Text) :
    Except StoreError (Store Digest × Capture × Bool) := do
  let _ ← requiredText payload "payload" 16384
  let note ← captureNote note
  let (kind, captureKey) := captureShape (strip payload)
  match openCapture s.tables captureKey with
  | some row => pure (s, row, true)
  | none =>
      let (captures, row) ← insertCapture s.tables readings payload note kind captureKey
      pure ({ s with tables := captures }, row, false)

/-! ## Decisions of the operator -/

/-- The body of an operator decision: an update fenced by revision and state. -/
def decideCapture (captures : CaptureTable) (captureId : ℕ) (expectedRevision : ℤ) (now : Civil)
    (target : CaptureState) (source : CaptureState → Prop) [DecidablePred source]
    (change : Capture → Capture) (hchange : ∀ c, (change c).id = c.id := by intro; rfl) :
    Except StoreError (CaptureTable × Capture) := do
  let row ← capture captures captureId
  expectRevision row.revision expectedRevision
  require (source row.state) (.invalidTransition row.state.text target.text)
  let captures ← orRaise
    (captures.updateRow? captureId
      (fun c => (c.revision : ℤ) = expectedRevision ∧ source c.state)
      (fun c => { change c with
        state := target, revision := c.revision + 1, updatedAt := formatTime now }) hchange)
    .revisionConflict
  let value ← capture captures captureId
  pure (captures, value)

/-- `approve_capture`. -/
def approveCapture (s : Store Digest) (readings : Readings) (captureId : ℕ)
    (expectedRevision : ℤ) (caller : Caller) :
    Except StoreError (Store Digest × CommandResult Capture) :=
  command requestHash s caller (.approve captureId) (.revision expectedRevision) 200
    (readings.clock 1)
    (decideCapture s.tables captureId expectedRevision (readings.clock 0) .approved (· = .pending) id)

/-- `dismiss_capture`. -/
def dismissCapture (s : Store Digest) (readings : Readings) (captureId : ℕ)
    (expectedRevision : ℤ) (caller : Caller) :
    Except StoreError (Store Digest × CommandResult Capture) :=
  command requestHash s caller (.dismiss captureId) (.revision expectedRevision) 200
    (readings.clock 1)
    (decideCapture s.tables captureId expectedRevision (readings.clock 0) .dismissed
      CaptureState.isDismissable id)

/-- `reopen_capture`; the claim epoch is retained. -/
def reopenCapture (s : Store Digest) (readings : Readings) (captureId : ℕ)
    (expectedRevision : ℤ) (acknowledged : Bool) (caller : Caller) :
    Except StoreError (Store Digest × CommandResult Capture) := do
  require (acknowledged = true) (.valueError "acknowledged must be true")
  command requestHash s caller (.reopen captureId) (.reopen expectedRevision) 200
    (readings.clock 1)
    (decideCapture s.tables captureId expectedRevision (readings.clock 0) .approved (· = .uncertain)
      fun c => { c with claimOwner := none, claimExpiresAt := none, failureCategory := none })

/-! ## The consumer -/

/-- The `WHERE` of the sweep: a claim whose lease has run out at `now`. -/
def leaseExpired (now : Stamp) (c : Capture) : Prop :=
  c.state = .claimed ∧ ∃ expires ∈ c.claimExpiresAt, expires ≤ now

instance (now : Stamp) : DecidablePred (leaseExpired now) := fun c => by
  unfold leaseExpired
  cases c.claimExpiresAt <;> simp only [Option.mem_def] <;> infer_instance

/-- `_sweep_expired_captures`; the epoch is retained. -/
def sweepExpiredCaptures (captures : CaptureTable) (now : Civil) : CaptureTable :=
  captures.update (leaseExpired (formatTime now)) fun c =>
    { c with
      state := .uncertain, claimOwner := none, claimExpiresAt := none
      failureCategory := some "outcome_unknown"
      revision := c.revision + 1, updatedAt := formatTime now }

/-- `list_pending_captures`. -/
def listPendingCaptures (s : Store Digest) (readings : Readings) (limit : ℤ) :
    Except StoreError (Store Digest × List Capture) := do
  require (1 ≤ limit ∧ limit ≤ 1000) (.valueError "limit must be between 1 and 1000")
  let captures := sweepExpiredCaptures s.tables (readings.clock 0)
  let found := Keyset.orderBy (fun c => toLex (c.createdAt, c.id))
    (captures.rows.filter fun c => c.state = .approved)
  pure ({ s with tables := captures }, found.take limit.toNat)

/-- The body of a claim; only an approved row is claimable. -/
def claimApproved (captures : CaptureTable) (readings : Readings) (captureId : ℕ)
    (workerId : Text) (leaseSeconds : ℤ) : Except StoreError (CaptureTable × Capture) := do
  let captures := sweepExpiredCaptures captures (readings.clock 0)
  let row ← capture captures captureId
  require (row.state = .approved) (.invalidTransition row.state.text "claimed")
  let now := readings.clock 1
  let expires ← orRaise (now.addSeconds leaseSeconds.toNat) .overflowError
  let captures ← orRaise
    (captures.updateRow? captureId (fun c => c.state = .approved) fun c =>
      { c with
        state := .claimed, claimOwner := some workerId
        claimExpiresAt := some (formatTime expires), claimEpoch := c.claimEpoch + 1
        revision := c.revision + 1, updatedAt := formatTime now })
    (.invalidTransition "claim_conflict" "claimed")
  let value ← capture captures captureId
  pure (captures, value)

/-- `claim_capture`; a receipt answers only while the claim it was filed for is still held. -/
def claimCapture (s : Store Digest) (readings : Readings) (captureId : ℕ) (workerId : Text)
    (leaseSeconds : ℤ) (caller : Caller) :
    Except StoreError (Store Digest × CommandResult Capture) := do
  let workerId ← requiredText workerId "worker_id" 200
  require (1 ≤ leaseSeconds ∧ leaseSeconds ≤ 3600)
    (.valueError "lease_seconds must be between 1 and 3600")
  let (s', result) ← command requestHash s caller (.claim captureId)
    (.claim workerId leaseSeconds) 200 (readings.clock 2)
    (claimApproved s.tables readings captureId workerId leaseSeconds)
  if result.replayed then do
    let current ← capture s.tables captureId
    require (current.state = .claimed ∧ current.claimOwner = some workerId ∧
      current.claimEpoch = result.value.claimEpoch)
      (.invalidTransition "stale_claim_receipt" "claimed")
    pure (s', result)
  else pure (s', result)

/-- The outcome a completion reports. -/
structure Outcome where
  outcome : String
  consumedSourceIds : Option (List Text)
  failureCategory : Option String
  detail : List (Text × Text)

/-- `_CAPTURE_FAILURES`. -/
def captureFailures : List String :=
  ["adapter_unavailable", "capability_unavailable", "invalid_source", "materialization_failed",
    "outcome_unknown"]

/-- `_CAPTURE_UNCERTAIN_CATEGORIES`. -/
def captureUncertainCategories : List String :=
  ["outcome_unknown", "carrier_thread_busy", "carrier_thread_foreign"]

/-- `_capture_source_ids`. -/
def captureSourceIds (value : Option (List Text)) : Except StoreError (List Text) := do
  let value ← orRaise value (.valueError "consumed_source_ids is invalid")
  let sourceIds ← value.mapM fun item => requiredText item "consumed_source_id" 200
  require (1 ≤ sourceIds.length ∧ sourceIds.length ≤ 100)
    (.valueError "consumed_source_ids must name 1 to 100 sources")
  require sourceIds.Nodup (.valueError "consumed_source_ids must be unique")
  pure sourceIds

/-- `_capture_outcome`: the state a completion moves to, with its sources and category. -/
def captureOutcome (o : Outcome) :
    Except StoreError (CaptureState × Option (List Text) × Option String) :=
  if o.outcome = "consumed" then do
    require (o.failureCategory = none) (.valueError "a consumed capture has no failure category")
    let sourceIds ← captureSourceIds o.consumedSourceIds
    pure (.consumed, some sourceIds, none)
  else do
    require (o.consumedSourceIds.getD [] = []) (.valueError "only a consumed capture names sources")
    if o.outcome = "failed" then
      match o.failureCategory with
      | some category =>
          require (category ∈ captureFailures) (.valueError "capture failure category is invalid")
          pure (.failed, none, some category)
      | none => throw (.valueError "capture failure category is invalid")
    else if o.outcome = "uncertain" then
      match o.failureCategory with
      | none => pure (.uncertain, none, some "outcome_unknown")
      | some category =>
          require (category ∈ captureUncertainCategories)
            (.valueError "capture failure category is invalid")
          pure (.uncertain, none, some category)
    else throw (.valueError "capture outcome is invalid")

/-- The body of a completion; the fence is owner and epoch, the lease is not part of it. -/
def completeClaimed (captures : CaptureTable) (readings : Readings) (captureId : ℕ)
    (claimOwner : Text) (claimEpoch : ℤ) (target : CaptureState) (sourceIds : Option (List Text))
    (category : Option String) : Except StoreError (CaptureTable × Capture) := do
  let _ ← capture captures captureId
  require ((sourceIds.getD []).all readings.isSource = true)
    (.valueError "consumed_source_ids names an unknown source")
  let captures ← orRaise
    (captures.updateRow? captureId
      (fun c => c.state = .claimed ∧ c.claimOwner = some claimOwner ∧
        (c.claimEpoch : ℤ) = claimEpoch) fun c =>
      { c with
        state := target, claimOwner := none, claimExpiresAt := none
        consumedSourceIds := sourceIds, failureCategory := category
        revision := c.revision + 1, updatedAt := formatTime (readings.clock 0) })
    (.invalidTransition "claim_fence_mismatch" target.text)
  let value ← capture captures captureId
  pure (captures, value)

/-- `complete_capture`. -/
def completeCapture (s : Store Digest) (readings : Readings) (captureId : ℕ) (claimOwner : Text)
    (claimEpoch : ℤ) (o : Outcome) (caller : Caller) :
    Except StoreError (Store Digest × CommandResult Capture) := do
  let claimOwner ← requiredText claimOwner "claim_owner" 200
  require (1 ≤ claimEpoch) (.valueError "claim_epoch must be a positive integer")
  let (target, sourceIds, category) ← captureOutcome o
  let detail ← o.detail.mapM fun (key, value) => do
    let key ← requiredText key "detail key" 100
    let value ← requiredText value "detail value" 200
    pure (key, value)
  command requestHash s caller (.complete captureId)
    (.complete claimOwner claimEpoch o.outcome sourceIds category detail) 200 (readings.clock 1)
    (completeClaimed s.tables readings captureId claimOwner claimEpoch target sourceIds category)

end Commands

end Cortex.Captures
