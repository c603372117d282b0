import Cortex.Runs.Threads

/-!
# Attempts before they are bound

An attempt reserves its dispatch under a lease, with the exact identity of the
managed runtime, and is then bound to a runtime session.  An attempt that fails
before it is bound ends its run, or puts the paused attempt it was resumed from
back in its place.  `resume_run` and `retry_run` start another attempt.
-/

namespace Cortex.Runs

open Control Time Transaction

namespace Ledger

variable (s : Ledger) (readings : Readings)

/-- The body of `reserve_attempt_dispatch`. -/
def reserveAttemptDispatch (runId attemptId : ℕ) (dispatchOwner : Text)
    (identity : RuntimeIdentity) (expectedRevision leaseSeconds : ℤ) :
    Except StoreError (Ledger × Response) := do
  let run ← s.run runId
  expectRevision run.revision expectedRevision
  require (run.activeAttemptId = attemptId)
    (.invalidTransition "attempt_mismatch" "dispatch_reserved")
  require (run.state ∈ [RunState.queued, .retrying, .resuming])
    (.invalidTransition run.state.text "dispatch_reserved")
  let attempt ← s.attempt attemptId
  require (attempt.runtimeBindingId = none)
    (.invalidTransition "already_bound" "dispatch_reserved")
  let now := readings.stamp 0
  let expires ← orRaise ((readings.clock 0).addSeconds leaseSeconds.toNat) .overflowError
  let attempts ← orRaise
    (s.attempts.updateRow? attemptId
      (fun a => a.runtimeBindingId = none ∧
        (a.dispatchOwner = none ∨ a.dispatchOwner = some dispatchOwner ∨
          hasExpired a.dispatchExpiresAt now) ∧
        (a.identity = none ∨ a.identity = some identity))
      fun a =>
        { a with
          dispatchOwner := some dispatchOwner, dispatchExpiresAt := some (formatTime expires)
          identity := some identity })
    (.invalidTransition "already_reserved" "dispatch_reserved")
  let s := { s with attempts }.updateRun run now id run_id_same
  let value ← s.run runId
  let attempt ← s.attempt attemptId
  pure (s, .runAttempt value attempt)

/-- The body of `pin_attempt_runtime`; binding a resumed attempt queues the release of the
pin of the attempt it was resumed from. -/
def pinAttemptRuntime (runId attemptId runtimeBindingId : ℕ)
    (runtimeReleaseId stateGenerationId : Text) (expectedRevision : ℤ) (dispatchOwner : Text) :
    Except StoreError (Ledger × Response) := do
  let run ← s.run runId
  expectRevision run.revision expectedRevision
  require (run.activeAttemptId = attemptId) (.invalidTransition "attempt_mismatch" "runtime_bound")
  let attempt ← s.attempt attemptId
  let binding ← s.binding runtimeBindingId
  require (binding.threadId = run.threadId) (.invalidTransition "binding_mismatch" "runtime_bound")
  require (attempt.runtimeBindingId = none) (.invalidTransition "already_bound" "runtime_bound")
  require (attempt.dispatchOwner = some dispatchOwner ∧
      (∃ identity ∈ attempt.identity, identity.runtimeReleaseId = runtimeReleaseId ∧
        identity.stateGenerationId = stateGenerationId ∧ identity.isComplete) ∧
      isLive attempt.dispatchExpiresAt (readings.stamp 0))
    (.invalidTransition "dispatch_reservation_mismatch" "runtime_bound")
  let now := readings.stamp 1
  let attempts ← orRaise
    (s.attempts.updateRow? attemptId
      (fun a => a.runtimeBindingId = none ∧ a.dispatchOwner = some dispatchOwner ∧
        (∃ identity ∈ a.identity, identity.runtimeReleaseId = runtimeReleaseId ∧
          identity.stateGenerationId = stateGenerationId) ∧
        isLive a.dispatchExpiresAt now)
      fun a =>
        { a with
          runtimeBindingId := some runtimeBindingId
          dispatchOwner := none, dispatchExpiresAt := none })
    (.invalidTransition "dispatch_reservation_mismatch" "runtime_bound")
  let s := { s with attempts }
  let s ← s.insertPausedSourceReleases (readings.newId 0) runId attempt now
  let s := s.updateRun run now id run_id_same
  let value ← s.run runId
  let attempt ← s.attempt attemptId
  pure (s, .runAttempt value attempt)

/-- The state an attempt that fails unbound leaves its run in. -/
def unboundTarget (run : Run) (pausedSource : Option Attempt) : RunState :=
  if run.state = .cancelRequested then .canceled
  else if pausedSource.isSome then .paused
  else .failed

/-- The dispatch owner that `fail_unbound_run` was given, if any, owns the attempt. -/
def expectDispatchOwner (attempt : Attempt) (dispatchOwner : Option Text) :
    Except StoreError Unit :=
  match dispatchOwner with
  | none => pure ()
  | some dispatchOwner => do
      let dispatchOwner ← requiredText dispatchOwner "dispatch_owner" 200
      require (attempt.dispatchOwner = some dispatchOwner)
        (.invalidTransition "dispatch_owner_mismatch" "failed")

/-- The end of `fail_unbound_run` for a run that ends with its attempt. -/
def endUnboundRun (run : Run) (attempt : Attempt) (target : RunState) (now : Stamp) :
    Except StoreError Ledger := do
  let s := s.failPendingRuntimeActions run.id attempt.id now
  let s := s.closeSourceWorkForRun run.id now
  let s := s.updateRun run now fun r => { r with state := target, activeAttemptId := attempt.id }
  let s := s.updateAttempt attempt.id fun a =>
    { a with
      state := .failed, finishedAt := some now, dispatchOwner := none, dispatchExpiresAt := none }
  let s := s.detachRun run target now
  let s ← s.releasePin (readings.newId 0) run.id attempt now
  if target = .canceled then s.insertPausedSourceReleases (readings.newId 1) run.id attempt now
  else pure s

/-- The end of `fail_unbound_run` for a run that goes back to the attempt it was paused at. -/
def putBackPausedSource (run : Run) (attempt source : Attempt) (now : Stamp) :
    Except StoreError Ledger := do
  let s := s.updateRun run now fun r => { r with state := .paused, activeAttemptId := source.id }
  let s := s.updateAttempt attempt.id fun a =>
    { a with
      state := .failed, finishedAt := some now, dispatchOwner := none, dispatchExpiresAt := none }
  let s := s.updateThreadOf run now fun t => { t with status := .run .paused }
  s.releasePin (readings.newId 0) run.id attempt now

/-- The body of `fail_unbound_run`. -/
def failUnboundRun (runId attemptId : ℕ) (expectedRevision : ℤ) (dispatchOwner : Option Text) :
    Except StoreError (Ledger × Response) := do
  let run ← s.run runId
  expectRevision run.revision expectedRevision
  require (run.activeAttemptId = attemptId) (.invalidTransition "attempt_mismatch" "failed")
  let attempt ← s.attempt attemptId
  require (attempt.runtimeBindingId = none) (.invalidTransition "runtime_already_bound" "failed")
  expectDispatchOwner attempt dispatchOwner
  require (run.state ∈ [RunState.queued, .retrying, .resuming, .cancelRequested])
    (.invalidTransition run.state.text "failed")
  let now := readings.stamp 0
  let pausedSource ← s.pausedSourceAttempt attempt
  let s ← match unboundTarget run pausedSource, pausedSource with
    | .paused, some source => s.putBackPausedSource readings run attempt source now
    | target, _ => s.endUnboundRun readings run attempt target now
  let value ← s.run runId
  pure (s, .run value)

/-- The body of `_restart_attempt`. -/
def restartAttempt (runId : ℕ) (expectedRevision : ℤ) (sourceState targetState : RunState) :
    Except StoreError (Ledger × Response) := do
  let run ← s.run runId
  expectRevision run.revision expectedRevision
  require (run.state = sourceState) (.invalidTransition run.state.text targetState.text)
  let thread ← s.thread run.threadId
  require (thread.activeRunId = none ∨ thread.activeRunId = some runId)
    (.invalidTransition "another_run_active" targetState.text)
  let previous ← s.attempt run.activeAttemptId
  require (¬(sourceState = .paused ∧ ¬isSet previous.checkpointUri))
    (.invalidTransition "checkpoint_missing" targetState.text)
  let now := readings.stamp 0
  let attempt :=
    { id := readings.newId 0
      runId
      number := ((s.attempts.rows.filter fun a => a.runId = runId).map Attempt.number).foldr max 0
        + 1
      state := targetState
      runtimeBindingId := none
      identity := none
      dispatchOwner := none
      dispatchExpiresAt := none
      checkpointUri := none
      sourceAttemptId := some previous.id
      sourceCheckpointUri :=
        if isSet previous.checkpointUri then previous.checkpointUri else previous.sourceCheckpointUri
      startedAt := none
      finishedAt := none }
  let s := s.failPendingRuntimeActions runId previous.id now
  let attempts ← orRaise (s.attempts.insert? attempt) .integrityError
  let s := { s with attempts }.updateRun run now fun r =>
    { r with state := targetState, activeAttemptId := attempt.id }
  let s := { s with
    threads := s.threads.update (fun t => t.id = thread.id) fun t =>
      { t with
        activeRunId := some runId, status := .run .running
        revision := t.revision + 1, updatedAt := now } }
  let value ← s.run runId
  pure (s, .runAttempt value attempt)

end Ledger

section Commands

variable {Digest : Type} [DecidableEq Digest] (platform : Platform Digest)
  (s : Store Digest) (readings : Readings)

/-- `reserve_attempt_dispatch`; a receipt answers only while its reservation is held. -/
def reserveAttemptDispatch (runId attemptId : ℕ) (dispatchOwner : Text)
    (identity : RuntimeIdentity) (expectedRevision leaseSeconds : ℤ) (caller : Caller) :
    Except StoreError (Store Digest × CommandResult Response) := do
  let dispatchOwner ← requiredText dispatchOwner "dispatch_owner" 200
  let identity ← requiredRuntimeIdentity identity
  require (1 ≤ leaseSeconds ∧ leaseSeconds ≤ 300)
    (.valueError "lease_seconds must be between 1 and 300")
  let (s', result) ← ledgerCommand platform s caller (.reserveDispatch runId)
    (.reserve attemptId dispatchOwner identity expectedRevision leaseSeconds) 200
    (readings.clock 1) fun ledger =>
      ledger.reserveAttemptDispatch readings runId attemptId dispatchOwner identity
        expectedRevision leaseSeconds
  if result.replayed then do
    let attempt ← s.tables.ledger.attempt attemptId
    require (attempt.runtimeBindingId = none ∧ attempt.dispatchOwner = some dispatchOwner ∧
        attempt.identity = some identity ∧
        isLive attempt.dispatchExpiresAt (readings.stamp 0))
      (.invalidTransition "stale_dispatch_receipt" "dispatch_reserved")
    pure (s', result)
  else pure (s', result)

/-- `pin_attempt_runtime`. -/
def pinAttemptRuntime (runId attemptId runtimeBindingId : ℕ) (runtimeReleaseId : Text)
    (stateGenerationId dispatchOwner : Option Text) (expectedRevision : ℤ) (caller : Caller) :
    Except StoreError (Store Digest × CommandResult Response) := do
  let runtimeReleaseId ← requiredText runtimeReleaseId "runtime_release_id" 200
  let stateGenerationId ← requiredOption stateGenerationId "state_generation_id" 200
  let dispatchOwner ← requiredOption dispatchOwner "dispatch_owner" 200
  ledgerCommand platform s caller (.pinRuntime runId)
    (.pin attemptId runtimeBindingId runtimeReleaseId stateGenerationId expectedRevision
      dispatchOwner) 200 (readings.clock 2) fun ledger =>
      ledger.pinAttemptRuntime readings runId attemptId runtimeBindingId runtimeReleaseId
        stateGenerationId expectedRevision dispatchOwner

/-- `fail_unbound_run`. -/
def failUnboundRun (runId attemptId : ℕ) (expectedRevision : ℤ) (category : Text)
    (dispatchOwner : Option Text) (retryable : Bool) (caller : Caller) :
    Except StoreError (Store Digest × CommandResult Response) := do
  let category ← requiredText category "category" 100
  ledgerCommand platform s caller (.failUnbound runId)
    (.failUnbound attemptId expectedRevision category dispatchOwner retryable) 200
    (readings.clock 1) fun ledger =>
      ledger.failUnboundRun readings runId attemptId expectedRevision dispatchOwner

/-- `resume_run`. -/
def resumeRun (runId : ℕ) (expectedRevision : ℤ) (caller : Caller) :
    Except StoreError (Store Digest × CommandResult Response) :=
  ledgerCommand platform s caller (.resume runId) (.restart expectedRevision none) 200
    (readings.clock 1) fun ledger =>
      ledger.restartAttempt readings runId expectedRevision .paused .resuming

/-- `retry_run`. -/
def retryRun (runId : ℕ) (expectedRevision : ℤ) (reason : Text) (caller : Caller) :
    Except StoreError (Store Digest × CommandResult Response) := do
  let reason ← requiredText reason "reason" 2000
  ledgerCommand platform s caller (.retry runId) (.restart expectedRevision (some reason)) 200
    (readings.clock 1) fun ledger =>
      ledger.restartAttempt readings runId expectedRevision .failed .retrying

end Commands

end Cortex.Runs
