import Cortex.Runs.Schema

/-!
# What the commands share

The statements that several commands of the store have in common: moving a run
to another state, failing the actions of an attempt that is over, closing source
work, letting a thread go of its run, queueing the release of a pin, and the two
checks of a runtime result.
-/

namespace Cortex.Runs

open Control Time Transaction

/-- What a command reads from outside its tables: the clock, one reading after
the other, new ids, and tables of the same transaction that only it reads. -/
structure Readings where
  clock : ℕ → Civil
  newId : ℕ → ℕ
  /-- The revision of a workspace. -/
  workspaceRevision : Text → Option ℕ
  /-- `_engine_owned_run`. -/
  isEngineOwnedRun : ℕ → Bool
  /-- The row of `workflow_decision_refs` of a decision: whether it is pending,
  and whether its stage is waiting. -/
  workflowDecisionRef : ℕ → Option (Bool × Bool)
  /-- Whether the workflow of a run is at an active decision stage. -/
  isAtDecisionStage : ℕ → Bool
  /-- Whether the workflow of a run has an effect failure to settle. -/
  hasFailedEffect : ℕ → Bool
  /-- The number of candidates of a source intent that carry its title claim. -/
  titleCandidates : ℕ → ℕ
  /-- Whether the imports of the selected sources are consistent. -/
  importsAreConsistent : ℕ → Bool

/-- The `n`-th reading of the clock, as it is stored. -/
def Readings.stamp (readings : Readings) (n : ℕ) : Stamp := formatTime (readings.clock n)

/-- `_required_text` of a value that may be `None`. -/
def requiredOption (value : Option Text) (name : String) (maximum : ℕ) : Except StoreError Text :=
  requiredText (value.getD []) name maximum

/-- The five texts that name a managed runtime. -/
def requiredRuntimeIdentity (identity : RuntimeIdentity) : Except StoreError RuntimeIdentity := do
  let runtimeReleaseId ← requiredText identity.runtimeReleaseId "runtime_release_id" 200
  let stateGenerationId ← requiredText identity.stateGenerationId "state_generation_id" 200
  let runtimeSlotId ← requiredText identity.runtimeSlotId "runtime_slot_id" 200
  let runtimeArtifactDigest ←
    requiredText identity.runtimeArtifactDigest "runtime_artifact_digest" 200
  let runtimeWorkerProtocol ←
    requiredText identity.runtimeWorkerProtocol "runtime_worker_protocol" 100
  pure
    { runtimeReleaseId, stateGenerationId, runtimeSlotId, runtimeArtifactDigest,
      runtimeWorkerProtocol }

theorem run_id_same (r : Run) : (id r).id = r.id :=
  rfl

theorem Run.id_state (state : RunState) (r : Run) : ({ r with state } : Run).id = r.id :=
  rfl

theorem Attempt.id_state (state : RunState) (a : Attempt) : ({ a with state } : Attempt).id = a.id :=
  rfl

namespace Ledger

variable (s : Ledger)

/-! ## Rows of one run -/

/-- `UPDATE runs SET …, revision = revision + 1, updated_at = ? WHERE id = ? AND revision = ?`,
for the run that was read and whose revision was checked. -/
def updateRun (run : Run) (now : Stamp) (change : Run → Run)
    (hchange : ∀ r, (change r).id = r.id := by intro; rfl) : Ledger :=
  { s with
    runs := s.runs.update (fun r => r.id = run.id ∧ r.revision = run.revision)
      (fun r => { change r with revision := r.revision + 1, updatedAt := now }) hchange }

/-- `UPDATE attempts SET … WHERE id = ?`. -/
def updateAttempt (attemptId : ℕ) (change : Attempt → Attempt)
    (hchange : ∀ a, (change a).id = a.id := by intro; rfl) : Ledger :=
  { s with attempts := s.attempts.update (fun a => a.id = attemptId) change hchange }

/-- `UPDATE threads SET …, revision = revision + 1, updated_at = ?
WHERE id = ? AND active_run_id = ?`. -/
def updateThreadOf (run : Run) (now : Stamp) (change : Thread → Thread)
    (hchange : ∀ t, (change t).id = t.id := by intro; rfl) : Ledger :=
  { s with
    threads := s.threads.update (fun t => t.id = run.threadId ∧ t.activeRunId = some run.id)
      (fun t => { change t with revision := t.revision + 1, updatedAt := now }) hchange }

/-- The thread lets go of a run that has ended. -/
def detachRun (run : Run) (state : RunState) (now : Stamp) : Ledger :=
  s.updateThreadOf run now fun t => { t with status := .run state, activeRunId := none }

/-! ## Closing what is pending -/

/-- `_fail_pending_runtime_actions`. -/
def failPendingRuntimeActions (runId attemptId : ℕ) (settledAt : Stamp) : Ledger :=
  { s with
    actions := s.actions.update
      (fun a => a.runId = runId ∧ a.attemptId = attemptId ∧ a.state = .pending) fun a =>
        { a with
          state := .failed, acknowledgedAt := some settledAt, claim := a.claim.drop
          failureCategory := some "attempt_terminated".toList } }

/-- `UPDATE decisions SET state = 'expired', … WHERE … AND state = 'pending'`. -/
def expireDecisionsWhere (p : Decision → Prop) [DecidablePred p] (now : Stamp) : Ledger :=
  { s with
    decisions := s.decisions.update (fun d => p d ∧ d.state = .pending) fun d =>
      { d with state := .expired, revision := d.revision + 1, resolvedAt := some now } }

/-- Every pending decision of a run expires. -/
def expireDecisions (runId : ℕ) (now : Stamp) : Ledger :=
  s.expireDecisionsWhere (fun d => d.runId = runId) now

/-- The pending source intents of a run. -/
def pendingIntents (runId : ℕ) : List SourceIntent :=
  s.intents.rows.filter fun i => i.runId = runId ∧ i.state = .pending

/-- `_close_source_work_for_run`, without the imports and materializations it fences. -/
def closeSourceWorkForRun (runId : ℕ) (settledAt : Stamp) : Ledger :=
  let decisionIds := (s.pendingIntents runId).map SourceIntent.decisionId
  let canceled : Ledger :=
    { s with
      intents := s.intents.update (fun i => i.runId = runId ∧ i.state = .pending) fun i =>
        { i with state := .canceled, revision := i.revision + 1, updatedAt := settledAt } }
  canceled.expireDecisionsWhere (fun d => d.id ∈ decisionIds) settledAt

/-! ## Control actions -/

/-- `_insert_control_runtime_action`: none for an attempt that is not bound to a runtime. -/
def insertControlRuntimeAction (newId runId attemptId : ℕ) (kind : ActionKind) (now : Stamp) :
    Except StoreError Ledger := do
  let attempt ← s.attempt attemptId
  match attempt.runtimeBindingId, attempt.identity with
  | some runtimeBindingId, some identity =>
      let row :=
        { id := newId
          runId, attemptId, runtimeBindingId
          runtimeReleaseId := identity.runtimeReleaseId
          kind
          state := .pending
          outcomeState := .ready
          claim := .unclaimed
          failureCategory := none
          createdAt := now
          acknowledgedAt := none }
      let actions ← orRaise (s.actions.insert? row) .integrityError
      pure { s with actions }
  | _, _ => pure s

/-- `_prepare_run_cancellation`. -/
def prepareRunCancellation (newId runId attemptId : ℕ) (now : Stamp) :
    Except StoreError Ledger := do
  let s := s.failPendingRuntimeActions runId attemptId now
  let s ← s.insertControlRuntimeAction newId runId attemptId .controlCancel now
  pure (s.closeSourceWorkForRun runId now)

/-! ## Pins -/

/-- The loop of `_paused_source_attempt`, over the attempts a retry or a resume started from. -/
def pausedSourceWalk (attempts : Table Attempt) :
    ℕ → List ℕ → Option ℕ → Except StoreError (Option Attempt)
  | _, _, none => pure none
  | 0, _, some _ => throw (.invalidTransition "attempt_lineage_cycle" "source_attempt")
  | fuel + 1, visited, some sourceAttemptId => do
      require (sourceAttemptId ∉ visited)
        (.invalidTransition "attempt_lineage_cycle" "source_attempt")
      let source ← orRaise (attempts.get? sourceAttemptId) (.notFound "attempt")
      if source.state = .paused ∧ isSet source.checkpointUri then pure (some source)
      else pausedSourceWalk attempts fuel (sourceAttemptId :: visited) source.sourceAttemptId

/-- `_paused_source_attempt`.  The walk visits no attempt twice, so it never runs out of
steps (`pausedSourceWalk_succ`). -/
def pausedSourceAttempt (attempt : Attempt) : Except StoreError (Option Attempt) :=
  pausedSourceWalk s.attempts (s.attempts.rows.length + 1) [] attempt.sourceAttemptId

/-- `_insert_pin_release`: the queued release of the same pin, or a new one. -/
def insertPinRelease (newId runId : ℕ) (attempt : Attempt) (now : Stamp) :
    Except StoreError Ledger := do
  let identity ← orRaise attempt.identity (.valueError "runtime_release_id is invalid")
  let identity ← requiredRuntimeIdentity identity
  match s.releases.rows.find? fun r => r.attemptId = attempt.id ∧
      r.identity.runtimeReleaseId = identity.runtimeReleaseId ∧
      r.identity.stateGenerationId = identity.stateGenerationId with
  | some release =>
      require (release.identity = identity)
        (.invalidTransition "runtime_identity_mismatch" "pin_release")
      pure s
  | none =>
      let row :=
        { id := newId
          runId
          attemptId := attempt.id
          identity
          state := .pending
          claim := .unclaimed
          failureCategory := none
          createdAt := now
          acknowledgedAt := none }
      let releases ← orRaise (s.releases.insert? row) .integrityError
      pure { s with releases }

/-- The release queued for an attempt that is over, if it ever had an identity. -/
def releasePin (newId runId : ℕ) (attempt : Attempt) (now : Stamp) : Except StoreError Ledger :=
  match attempt.identity with
  | some _ => s.insertPinRelease newId runId attempt now
  | none => pure s

/-- `_insert_paused_source_releases`. -/
def insertPausedSourceReleases (newId runId : ℕ) (attempt : Attempt) (now : Stamp) :
    Except StoreError Ledger := do
  match ← s.pausedSourceAttempt attempt with
  | some source => s.insertPinRelease newId runId source now
  | none => pure s

/-! ## Runtime results -/

/-- `_validate_runtime_identity`. -/
def validateRuntimeIdentity (run : Run) (attemptId runtimeBindingId : ℕ)
    (runtimeReleaseId : Text) (stateGenerationId : Option Text) : Except StoreError Attempt := do
  let stateGenerationId ← requiredOption stateGenerationId "state_generation_id" 200
  require (run.activeAttemptId = attemptId)
    (.invalidTransition "attempt_mismatch" "runtime_result")
  let attempt ← s.attempt attemptId
  let identity ← orRaise (attempt.identity.filter (·.isComplete))
    (.invalidTransition "legacy_runtime_identity" "manual_recovery")
  require (attempt.runId = run.id ∧ attempt.runtimeBindingId = some runtimeBindingId ∧
      identity.runtimeReleaseId = runtimeReleaseId ∧
      identity.stateGenerationId = stateGenerationId)
    (.invalidTransition "runtime_binding_mismatch" "runtime_result")
  pure attempt

end Ledger

/-- The operation by which a worker delivers an action. -/
def runtimeActionOperation (actionId : ℕ) : Text :=
  "runtime-action:".toList ++ (toString actionId).toList

/-- What an event says of its place in the stream of its attempt, and of its cause. -/
structure RuntimeCause where
  adapterEventSequence : Option ℤ
  causedByAdapterOperationId : Option Text
  causedByDeliveryEpoch : Option ℤ
  deriving DecidableEq

namespace Ledger

variable (s : Ledger)

/-- `_confirm_runtime_resume_from_event`: an event caused by the delivery of a decision
proves that the worker took it.  The run is answered with its state after the check. -/
def confirmRuntimeResumeFromEvent (run : Run) (attemptId : ℕ) (adapterEventId : Option Text)
    (cause : RuntimeCause) (now : Stamp) : Except StoreError (Ledger × Run) := do
  if run.state ≠ .resuming ∨ adapterEventId = none then pure (s, run)
  else
    match s.actions.rows.filter fun a => a.runId = run.id ∧ a.attemptId = attemptId ∧
        a.kind.isDecisionResolve = true ∧ a.state = .pending with
    | [action] => do
        require (1 ≤ action.claim.epoch ∧
            cause.causedByAdapterOperationId = some (runtimeActionOperation action.id) ∧
            cause.causedByDeliveryEpoch = some (action.claim.epoch : ℤ))
          (.invalidTransition "runtime_resume_causation_unverified" "runtime_event_ingest")
        let actions ← orRaise
          (s.actions.updateRow? action.id (fun a => a.state = .pending) fun a =>
            { a with
              state := .acked, acknowledgedAt := some now, outcomeState := .ready
              claim := a.claim.drop, failureCategory := none })
          (.invalidTransition "runtime_resume_action_race" "runtime_event_ingest")
        let s := { s with
          actions
          runs := s.runs.update (fun r => r.id = run.id) fun r =>
            { r with state := .running, updatedAt := now } }
        let s := s.updateAttempt attemptId (fun a => { a with state := .running })
          (Attempt.id_state .running)
        pure (s, { run with state := .running })
    | _ => throw (.invalidTransition "runtime_resume_action_missing" "runtime_event_ingest")

end Ledger

end Cortex.Runs
