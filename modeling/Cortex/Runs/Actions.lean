import Cortex.Runs.Decisions

/-!
# Runtime actions and pin releases

A worker claims a pending action under a lease and settles it under the owner and
epoch of its claim.  An action whose outcome is not known is reconciled under a
further claim.  A pin release is claimed once no live attempt needs the pin.
-/

namespace Cortex.Runs

open Control Time Transaction

/-- The state of a run in which an action of a kind is delivered. -/
def ActionKind.deliveredIn : ActionKind → RunState
  | decisionResolve .. => .resuming
  | controlPause => .pauseRequested
  | controlCancel => .cancelRequested

/-- The epoch of the claim that a response was filed for. -/
def Response.claimEpoch : Response → Option ℕ
  | action value => some value.claim.epoch
  | release value => some value.claim.epoch
  | _ => none

/-- `_claim_replay_is_current`. -/
def claimReplayIsCurrent (state : DeliveryState) (claim : Claim) (workerId : Text)
    (replay : Response) (now : Stamp) : Prop :=
  state = .pending ∧ ∃ epoch ∈ replay.claimEpoch, claim.fenceIsCurrent workerId epoch now

instance (state : DeliveryState) (claim : Claim) (workerId : Text) (replay : Response)
    (now : Stamp) : Decidable (claimReplayIsCurrent state claim workerId replay now) := by
  unfold claimReplayIsCurrent
  infer_instance

/-- The fence of a settlement: who claimed, and under which epoch. -/
structure Fence where
  claimOwner : Text
  claimEpoch : ℤ

namespace Ledger

variable (s : Ledger) (readings : Readings)

/-! ## Claiming actions -/

/-- The body of `claim_runtime_action`. -/
def claimRuntimeAction (actionId : ℕ) (workerId : Text) (leaseSeconds : ℤ) :
    Except StoreError (Ledger × Response) := do
  let action ← s.action actionId
  require (action.state = .pending ∧ action.outcomeState = .ready)
    (.invalidTransition action.state.text "claimed")
  let run ← s.run action.runId
  require (run.activeAttemptId = action.attemptId ∧ run.state = action.kind.deliveredIn)
    (.invalidTransition run.state.text "claimed")
  let now := readings.stamp 0
  let expires ← orRaise ((readings.clock 0).addSeconds leaseSeconds.toNat) .overflowError
  let actions ← orRaise
    (s.actions.updateRow? actionId
      (fun a => a.state = .pending ∧ a.outcomeState = .ready ∧ a.claim.isFree now)
      fun a => { a with claim := a.claim.take workerId (formatTime expires) })
    (.invalidTransition "already_claimed" "claimed")
  let s := { s with actions }
  let value ← s.action actionId
  pure (s, .action value)

/-- An action that is to be reconciled: its outcome is unknown, or the last attempt at it ran out. -/
def isReconcilable (action : RuntimeAction) (now : Stamp) : Prop :=
  action.outcomeState = .outcomeUnknown ∨
    action.outcomeState = .reconcile ∧ hasExpired action.claim.expiresAt now

instance (now : Stamp) : DecidablePred fun a => isReconcilable a now := fun a => by
  unfold isReconcilable
  infer_instance

/-- The body of `claim_runtime_action_reconciliation`. -/
def claimRuntimeActionReconciliation (actionId : ℕ) (workerId : Text) (leaseSeconds : ℤ) :
    Except StoreError (Ledger × Response) := do
  let action ← s.action actionId
  let now := readings.stamp 0
  require (action.state = .pending ∧ isReconcilable action now)
    (.invalidTransition action.outcomeState.text "reconcile")
  let expires ← orRaise ((readings.clock 1).addSeconds leaseSeconds.toNat) .overflowError
  let actions ← orRaise
    (s.actions.updateRow? actionId (fun a => a.state = .pending ∧ isReconcilable a now)
      fun a =>
        { a with
          outcomeState := .reconcile, claim := a.claim.take workerId (formatTime expires) })
    (.invalidTransition "already_claimed" "reconcile")
  let s := { s with actions }
  let value ← s.action actionId
  pure (s, .action value)

/-! ## Settling actions -/

/-- A pending action whose claim is current, in one of the outcome states. -/
def fencedAction (actionId : ℕ) (fence : Fence) (outcomes : List OutcomeState) (target : String) :
    Except StoreError RuntimeAction := do
  let action ← s.action actionId
  require (action.state = .pending ∧ action.outcomeState ∈ outcomes ∧
      action.claim.fenceIsCurrent fence.claimOwner fence.claimEpoch (readings.stamp 0))
    (.invalidTransition "claim_fence_mismatch" target)
  pure action

/-- `UPDATE runtime_actions … WHERE id = ? AND state = 'pending' AND claim_owner = ?
AND claim_epoch = ? AND outcome_state IN (…)`; the claim is let go of. -/
def updateFencedAction (actionId : ℕ) (fence : Fence) (outcomes : List OutcomeState)
    (target : String) (change : RuntimeAction → RuntimeAction)
    (hchange : ∀ a, (change a).id = a.id := by intro; rfl) : Except StoreError Ledger := do
  let actions ← orRaise
    (s.actions.updateRow? actionId
      (fun a => a.state = .pending ∧ a.claim.owner = some fence.claimOwner ∧
        (a.claim.epoch : ℤ) = fence.claimEpoch ∧ a.outcomeState ∈ outcomes)
      (fun a => { change a with claim := a.claim.drop }) hchange)
    (.invalidTransition "claim_fence_mismatch" target)
  pure { s with actions }

/-- The body of `acknowledge_runtime_action`. -/
def acknowledgeRuntimeAction (actionId runId : ℕ) (target : RuntimeTarget) (fence : Fence)
    (expectedRevision : ℤ) : Except StoreError (Ledger × Response) := do
  let action ← s.action actionId
  require (action.state = .pending) (.invalidTransition action.state.text "acked")
  let action ← s.fencedAction readings actionId fence [.ready, .reconcile] "acked"
  require (action.runId = runId ∧ action.attemptId = target.attemptId ∧
      action.runtimeBindingId = target.runtimeBindingId ∧
      action.runtimeReleaseId = target.runtimeReleaseId)
    (.invalidTransition "runtime_binding_mismatch" "acked")
  let run ← s.run runId
  expectRevision run.revision expectedRevision
  let _ ← s.validateRuntimeIdentity run target.attemptId target.runtimeBindingId
    target.runtimeReleaseId target.stateGenerationId
  let now := readings.stamp 1
  let s ← s.updateFencedAction actionId fence [.ready, .reconcile] "acked" fun a =>
    { a with state := .acked, acknowledgedAt := some now, outcomeState := .ready }
  let s :=
    if action.kind.isDecisionResolve = true ∧ run.state = .resuming then
      (s.updateRun run now fun r => { r with state := .running }).updateAttempt target.attemptId
        (fun a => { a with state := .running }) (Attempt.id_state .running)
    else s.updateRun run now id run_id_same
  let value ← s.action actionId
  pure (s, .action value)

/-- A settlement that fails the action: its category, and when it was settled. -/
def failAction (category : Text) (now : Stamp) (a : RuntimeAction) : RuntimeAction :=
  { a with
    state := .failed, failureCategory := some category, acknowledgedAt := some now
    outcomeState := .ready }

/-- The body of `fail_runtime_action`: the run fails with the action. -/
def failRuntimeAction (actionId : ℕ) (fence : Fence) (expectedRevision : ℤ) (category : Text) :
    Except StoreError (Ledger × Response) := do
  let action ← s.fencedAction readings actionId fence [.ready, .reconcile] "failed"
  let run ← s.run action.runId
  expectRevision run.revision expectedRevision
  let now := readings.stamp 1
  let s ← s.updateFencedAction actionId fence [.ready, .reconcile] "failed"
    (failAction category now)
  let s := s.closeSourceWorkForRun run.id now
  let s := s.updateRun run now (fun r => { r with state := .failed }) (Run.id_state .failed)
  let s := s.updateAttempt action.attemptId fun a =>
    { a with state := .failed, finishedAt := some now }
  let s := s.detachRun run .failed now
  let attempt ← s.attempt action.attemptId
  let s ← s.releasePin (readings.newId 0) run.id attempt now
  let value ← s.action actionId
  pure (s, .action value)

/-- The body of `reject_runtime_action`: the run goes on, and out of a pause that was refused. -/
def rejectRuntimeAction (actionId : ℕ) (fence : Fence) (expectedRevision : ℤ) (category : Text) :
    Except StoreError (Ledger × Response) := do
  let action ← s.fencedAction readings actionId fence [.ready, .reconcile] "rejected"
  let run ← s.run action.runId
  expectRevision run.revision expectedRevision
  let now := readings.stamp 1
  let s ← s.updateFencedAction actionId fence [.ready, .reconcile] "rejected"
    (failAction category now)
  let s :=
    if action.kind = .controlPause ∧ run.state = .pauseRequested then
      (s.updateAttempt action.attemptId (fun a => { a with state := .running })
        (Attempt.id_state .running)).updateRun run now
        fun r => { r with state := .running }
    else s.updateRun run now id run_id_same
  let value ← s.action actionId
  pure (s, .action value)

/-- The three settlements that leave an action pending: they move its outcome state under the
fence, and raise the revision of the run. -/
def redirectRuntimeAction (actionId : ℕ) (fence : Fence) (expectedRevision : ℤ)
    (source target : OutcomeState) (category : Option Text) :
    Except StoreError (Ledger × Response) := do
  let action ← s.fencedAction readings actionId fence [source] target.text
  let run ← s.run action.runId
  expectRevision run.revision expectedRevision
  let now := readings.stamp 1
  let s ← s.updateFencedAction actionId fence [source] target.text fun a =>
    { a with outcomeState := target, failureCategory := category }
  let s := s.updateRun run now id run_id_same
  let value ← s.action actionId
  pure (s, .action value)

/-! ## Pin releases -/

/-- No live attempt needs the pin any more: its run is over, or another attempt is active. -/
def isReleasable (run : Run) (attempt : Attempt) (release : PinRelease) : Prop :=
  run.state.isTerminal ∨
    run.activeAttemptId ≠ release.attemptId ∧
      attempt.state ∈ [RunState.paused, .failed, .completed, .canceled]

instance (run : Run) (attempt : Attempt) (release : PinRelease) :
    Decidable (isReleasable run attempt release) := by
  unfold isReleasable
  infer_instance

/-- The body of `claim_pin_release`. -/
def claimPinRelease (releaseId : ℕ) (workerId : Text) (leaseSeconds : ℤ) :
    Except StoreError (Ledger × Response) := do
  let release ← s.pinRelease releaseId
  require (release.state = .pending) (.invalidTransition release.state.text "claimed")
  let run ← s.run release.runId
  let attempt ← s.attempt release.attemptId
  require (isReleasable run attempt release) (.invalidTransition run.state.text "pin_release")
  let now := readings.stamp 0
  let expires ← orRaise ((readings.clock 0).addSeconds leaseSeconds.toNat) .overflowError
  let releases ← orRaise
    (s.releases.updateRow? releaseId (fun r => r.state = .pending ∧ r.claim.isFree now) fun r =>
      { r with claim := r.claim.take workerId (formatTime expires) })
    (.invalidTransition "already_claimed" "claimed")
  let s := { s with releases }
  let value ← s.pinRelease releaseId
  pure (s, .release value)

/-- The body of `_settle_pin_release`. -/
def settlePinRelease (releaseId : ℕ) (fence : Fence) (expectedRevision : ℤ)
    (targetState : DeliveryState) (category : Option Text) :
    Except StoreError (Ledger × Response) := do
  let release ← s.pinRelease releaseId
  require (release.state = .pending ∧
      release.claim.fenceIsCurrent fence.claimOwner fence.claimEpoch (readings.stamp 0))
    (.invalidTransition "claim_fence_mismatch" targetState.text)
  let run ← s.run release.runId
  expectRevision run.revision expectedRevision
  let now := readings.stamp 1
  let releases ← orRaise
    (s.releases.updateRow? releaseId
      (fun r => r.state = .pending ∧ r.claim.owner = some fence.claimOwner ∧
        (r.claim.epoch : ℤ) = fence.claimEpoch)
      fun r =>
        { r with
          state := targetState, failureCategory := category, acknowledgedAt := some now
          claim := r.claim.drop })
    (.invalidTransition "claim_fence_mismatch" targetState.text)
  let s := { s with releases }.updateRun run now id run_id_same
  let value ← s.pinRelease releaseId
  pure (s, .release value)

/-- The body of `retry_pin_release`. -/
def retryPinRelease (releaseId : ℕ) (expectedRevision : ℤ) :
    Except StoreError (Ledger × Response) := do
  let release ← s.pinRelease releaseId
  require (release.state = .failed) (.invalidTransition release.state.text "pending")
  let run ← s.run release.runId
  expectRevision run.revision expectedRevision
  let s := { s with
    releases := s.releases.update (fun r => r.id = releaseId ∧ r.state = DeliveryState.failed)
      fun r =>
        { r with
          state := .pending, failureCategory := none, acknowledgedAt := none
          claim := r.claim.drop } }
  let s := s.updateRun run (readings.stamp 0) id run_id_same
  let value ← s.pinRelease releaseId
  pure (s, .release value)

/-- What a command over other tables does to a run: its revision is raised. -/
def reviseRun (runId : ℕ) : Except StoreError (Ledger × Response) := do
  let run ← s.run runId
  let s := s.updateRun run (readings.stamp 0) id run_id_same
  let value ← s.run runId
  pure (s, .run value)

end Ledger

section Commands

variable {Digest : Type} [DecidableEq Digest] (platform : Platform Digest)
  (s : Store Digest) (readings : Readings)

/-- `lease_seconds` of a claim. -/
def validateLease (leaseSeconds : ℤ) : Except StoreError Unit :=
  require (1 ≤ leaseSeconds ∧ leaseSeconds ≤ 300)
    (.valueError "lease_seconds must be between 1 and 300")

/-- The fence that a settlement is given. -/
def requiredFence (fence : Fence) : Except StoreError Fence := do
  let claimOwner ← requiredText fence.claimOwner "claim_owner" 200
  require (1 ≤ fence.claimEpoch) (.valueError "claim_epoch must be a positive integer")
  pure { fence with claimOwner }

/-- `claim_runtime_action`; a receipt answers only while its claim is held. -/
def claimRuntimeAction (actionId : ℕ) (workerId : Text) (leaseSeconds : ℤ) (caller : Caller) :
    Except StoreError (Store Digest × CommandResult Response) := do
  let workerId ← requiredText workerId "worker_id" 200
  validateLease leaseSeconds
  let (s', result) ← ledgerCommand platform s caller (.claimAction actionId)
    (.claim workerId leaseSeconds) 200 (readings.clock 1) fun ledger =>
      ledger.claimRuntimeAction readings actionId workerId leaseSeconds
  if result.replayed then do
    let current ← s.tables.ledger.action actionId
    require (claimReplayIsCurrent current.state current.claim workerId result.value
        (readings.stamp 0))
      (.invalidTransition "stale_claim_receipt" "claimed")
    pure (s', result)
  else pure (s', result)

/-- `claim_runtime_action_reconciliation`. -/
def claimRuntimeActionReconciliation (actionId : ℕ) (workerId : Text) (leaseSeconds : ℤ)
    (caller : Caller) : Except StoreError (Store Digest × CommandResult Response) := do
  let workerId ← requiredText workerId "worker_id" 200
  validateLease leaseSeconds
  let (s', result) ← ledgerCommand platform s caller (.reconcileAction actionId)
    (.claim workerId leaseSeconds) 200 (readings.clock 2) fun ledger =>
      ledger.claimRuntimeActionReconciliation readings actionId workerId leaseSeconds
  if result.replayed then do
    let current ← s.tables.ledger.action actionId
    require (current.outcomeState = .reconcile ∧
        claimReplayIsCurrent current.state current.claim workerId result.value (readings.stamp 0))
      (.invalidTransition "stale_claim_receipt" "reconcile")
    pure (s', result)
  else pure (s', result)

/-- `acknowledge_runtime_action`. -/
def acknowledgeRuntimeAction (actionId runId : ℕ) (target : RuntimeTarget) (fence : Fence)
    (expectedRevision : ℤ) (caller : Caller) :
    Except StoreError (Store Digest × CommandResult Response) := do
  let fence ← requiredFence fence
  ledgerCommand platform s caller (.acknowledgeAction actionId)
    (.acknowledge runId target fence.claimOwner fence.claimEpoch expectedRevision) 200
    (readings.clock 2) fun ledger =>
      ledger.acknowledgeRuntimeAction readings actionId runId target fence expectedRevision

/-- `fail_runtime_action`. -/
def failRuntimeAction (actionId : ℕ) (fence : Fence) (expectedRevision : ℤ) (category : Text)
    (caller : Caller) : Except StoreError (Store Digest × CommandResult Response) := do
  let category ← requiredText category "category" 100
  let fence ← requiredFence fence
  ledgerCommand platform s caller (.failAction actionId)
    (.settle fence.claimOwner fence.claimEpoch expectedRevision (some category)) 200
    (readings.clock 2) fun ledger =>
      ledger.failRuntimeAction readings actionId fence expectedRevision category

/-- `reject_runtime_action`. -/
def rejectRuntimeAction (actionId : ℕ) (fence : Fence) (expectedRevision : ℤ) (category : Text)
    (caller : Caller) : Except StoreError (Store Digest × CommandResult Response) := do
  let category ← requiredText category "category" 100
  let fence ← requiredFence fence
  ledgerCommand platform s caller (.rejectAction actionId)
    (.settle fence.claimOwner fence.claimEpoch expectedRevision (some category)) 200
    (readings.clock 2) fun ledger =>
      ledger.rejectRuntimeAction readings actionId fence expectedRevision category

/-- `mark_runtime_action_outcome_unknown`. -/
def markRuntimeActionOutcomeUnknown (actionId : ℕ) (fence : Fence) (expectedRevision : ℤ)
    (category : Text) (caller : Caller) :
    Except StoreError (Store Digest × CommandResult Response) := do
  let category ← requiredText category "category" 100
  let fence ← requiredFence fence
  ledgerCommand platform s caller (.markOutcomeUnknown actionId)
    (.settle fence.claimOwner fence.claimEpoch expectedRevision (some category)) 200
    (readings.clock 2) fun ledger =>
      ledger.redirectRuntimeAction readings actionId fence expectedRevision .ready .outcomeUnknown
        (some category)

/-- `defer_runtime_action_reconciliation`. -/
def deferRuntimeActionReconciliation (actionId : ℕ) (fence : Fence) (expectedRevision : ℤ)
    (category : Text) (caller : Caller) :
    Except StoreError (Store Digest × CommandResult Response) := do
  let category ← requiredText category "category" 100
  let fence ← requiredFence fence
  ledgerCommand platform s caller (.deferReconciliation actionId)
    (.settle fence.claimOwner fence.claimEpoch expectedRevision (some category)) 200
    (readings.clock 2) fun ledger =>
      ledger.redirectRuntimeAction readings actionId fence expectedRevision .reconcile
        .outcomeUnknown (some category)

/-- `retry_runtime_action_delivery`. -/
def retryRuntimeActionDelivery (actionId : ℕ) (fence : Fence) (expectedRevision : ℤ)
    (caller : Caller) : Except StoreError (Store Digest × CommandResult Response) := do
  let fence ← requiredFence fence
  ledgerCommand platform s caller (.retryDelivery actionId)
    (.redeliver fence.claimOwner fence.claimEpoch expectedRevision) 200 (readings.clock 2)
    fun ledger =>
      ledger.redirectRuntimeAction readings actionId fence expectedRevision .reconcile .ready none

/-- `claim_pin_release`; a receipt answers only while its claim is held. -/
def claimPinRelease (releaseId : ℕ) (workerId : Text) (leaseSeconds : ℤ) (caller : Caller) :
    Except StoreError (Store Digest × CommandResult Response) := do
  let workerId ← requiredText workerId "worker_id" 200
  validateLease leaseSeconds
  let (s', result) ← ledgerCommand platform s caller (.claimRelease releaseId)
    (.claim workerId leaseSeconds) 200 (readings.clock 1) fun ledger =>
      ledger.claimPinRelease readings releaseId workerId leaseSeconds
  if result.replayed then do
    let current ← s.tables.ledger.pinRelease releaseId
    require (claimReplayIsCurrent current.state current.claim workerId result.value
        (readings.stamp 0))
      (.invalidTransition "stale_claim_receipt" "claimed")
    pure (s', result)
  else pure (s', result)

/-- `_settle_pin_release`. -/
def settlePinRelease (releaseId : ℕ) (fence : Fence) (expectedRevision : ℤ)
    (targetState : DeliveryState) (category : Option Text) (caller : Caller) :
    Except StoreError (Store Digest × CommandResult Response) := do
  let fence ← requiredFence fence
  ledgerCommand platform s caller (.settleRelease releaseId targetState)
    (.settle fence.claimOwner fence.claimEpoch expectedRevision category) 200 (readings.clock 2)
    fun ledger =>
      ledger.settlePinRelease readings releaseId fence expectedRevision targetState category

/-- `acknowledge_pin_release`. -/
def acknowledgePinRelease (releaseId : ℕ) (fence : Fence) (expectedRevision : ℤ)
    (caller : Caller) : Except StoreError (Store Digest × CommandResult Response) :=
  settlePinRelease platform s readings releaseId fence expectedRevision .acked none caller

/-- `fail_pin_release`. -/
def failPinRelease (releaseId : ℕ) (fence : Fence) (expectedRevision : ℤ) (category : Text)
    (caller : Caller) : Except StoreError (Store Digest × CommandResult Response) := do
  let category ← requiredText category "category" 100
  settlePinRelease platform s readings releaseId fence expectedRevision .failed (some category)
    caller

/-- `retry_pin_release`. -/
def retryPinRelease (releaseId : ℕ) (expectedRevision : ℤ) (caller : Caller) :
    Except StoreError (Store Digest × CommandResult Response) :=
  ledgerCommand platform s caller (.retryRelease releaseId) (.revision expectedRevision) 200
    (readings.clock 1) fun ledger =>
      ledger.retryPinRelease readings releaseId expectedRevision

/-- The commands over recovery commands and research contexts, as far as runs are concerned. -/
def reviseRun (runId : ℕ) : Except StoreError (Store Digest × CommandResult Response) :=
  unreceipted s fun ledger => ledger.reviseRun readings runId

end Commands

end Cortex.Runs
