import Cortex.Runs.Events

/-!
# Decisions

A run that waits for a decision goes on when the decision is resolved: the worker
is then told through a runtime action, or the workflow of the run goes on by
itself.  A source intent is a decision about the sources of a run; it has its own
resolver, and cancelling it stops the run.  A workflow may also end its run.
-/

namespace Cortex.Runs

open Control Time Transaction

/-- The choices that resolve a source intent. -/
inductive SourceChoice
  | useSource | keepBoth | replaceUrlWithEcho | cancel
  deriving DecidableEq

def SourceChoice.text : SourceChoice → Text
  | useSource => "use_source".toList
  | keepBoth => "keep_both".toList
  | replaceUrlWithEcho => "replace_url_with_echo".toList
  | cancel => "cancel".toList

namespace Ledger

variable (s : Ledger) (readings : Readings)

/-! ## Decisions of a worker or a workflow -/

/-- The decision is resolved, at the revision that was checked. -/
def settleDecision (decision : Decision) (resolution : Resolution) (now : Stamp) : Ledger :=
  { s with
    decisions := s.decisions.update
      (fun d => d.id = decision.id ∧ d.revision = decision.revision ∧ d.state = .pending) fun d =>
        { d with
          state := .resolved, resolution := some resolution
          revision := d.revision + 1, resolvedAt := some now } }

/-- The run and the attempt of a decision go on. -/
def resumeFromDecision (run : Run) (decision : Decision) (now : Stamp) : Ledger :=
  let s := s.updateRun run now fun r => { r with state := .resuming }
  s.updateAttempt decision.attemptId fun a => { a with state := .resuming }

/-- The branch of `resolve_decision` for a decision of a workflow, which its reference and its
stage still wait for.  The decision itself may have been resolved before, by the same choice. -/
def resolveWorkflowDecision (decision : Decision) (isPending stageIsWaiting : Bool)
    (resolution : Resolution) : Except StoreError Ledger := do
  require (isPending = true) .revisionConflict
  require (decision.state = .pending ∨
      decision.state = .resolved ∧ decision.resolution.map Resolution.choice = some resolution.choice)
    .revisionConflict
  let run ← s.run decision.runId
  require (run.state = .waitingForDecision) (.invalidTransition run.state.text "resuming")
  require (stageIsWaiting = true) (.invalidTransition "stage" "active")
  let now := readings.stamp 0
  pure ((s.settleDecision decision resolution now).resumeFromDecision run decision now)

/-- The branch of `resolve_decision` that tells the worker. -/
def resolveRuntimeDecision (decision : Decision) (resolution : Resolution) :
    Except StoreError Ledger := do
  let run ← s.run decision.runId
  require (run.state = .waitingForDecision) (.invalidTransition run.state.text "resuming")
  let now := readings.stamp 0
  let attempt ← s.attempt decision.attemptId
  let notBound := StoreError.invalidTransition "runtime_not_bound" "decision_resolved"
  let runtimeBindingId ← orRaise attempt.runtimeBindingId notBound
  let identity ← orRaise attempt.identity notBound
  let row :=
    { id := readings.newId 0
      runId := run.id
      attemptId := decision.attemptId
      runtimeBindingId
      runtimeReleaseId := identity.runtimeReleaseId
      kind := .decisionResolve decision.id decision.runtimeDecisionRef
        decision.runtimeDecisionRevision resolution.choice
      state := .pending
      outcomeState := .ready
      claim := .unclaimed
      failureCategory := none
      createdAt := now
      acknowledgedAt := none }
  let s := (s.settleDecision decision resolution now).resumeFromDecision run decision now
  let actions ← orRaise (s.actions.insert? row) .integrityError
  pure { s with actions }

/-- The body of `resolve_decision`. -/
def resolveDecision (actorId : Text) (decisionId : ℕ) (choice : Text) (expectedRevision : ℤ) :
    Except StoreError (Ledger × Response) := do
  let decision ← s.decision decisionId
  expectRevision decision.revision expectedRevision
  require ((readings.workflowDecisionRef decisionId).isSome = true ∨ decision.state = .pending)
    .revisionConflict
  require (∀ i ∈ s.intents.rows, i.decisionId ≠ decisionId)
    (.invalidTransition "source_decision_requires_source_resolver" "resolved")
  require (choice ∈ decision.options.map DecisionOption.id)
    (.valueError "choice is not one of the decision options")
  let resolution := { choice, actorId }
  match readings.workflowDecisionRef decisionId with
  | some (isPending, stageIsWaiting) => do
      let s ← s.resolveWorkflowDecision readings decision isPending stageIsWaiting resolution
      let value ← s.decision decisionId
      pure (s, .decision value)
  | none => do
      require (decision.state = .pending) .revisionConflict
      let s ← s.resolveRuntimeDecision readings decision resolution
      let value ← s.decision decisionId
      pure (s, .decisionAction value (readings.newId 0))

/-- `create_workflow_decision`, for a run whose workflow is at a decision stage. -/
def createWorkflowDecision (runId : ℕ) (kind prompt : Text) (options : List DecisionOption) :
    Except StoreError (Ledger × Response) := do
  let run ← s.run runId
  require (¬run.state.isWorkflowFenced) (.invalidTransition run.state.text "workflow_active")
  require (readings.isAtDecisionStage runId = true) (.invalidTransition "stage" "waiting")
  let attempt ← s.attempt run.activeAttemptId
  let (s, decision) ← s.insertDecision run attempt.id (readings.newId 0) kind prompt options none
    none (readings.stamp 0)
  pure (s, .decision decision)

/-- `_settle_workflow_failure`: the run of a failed workflow fails, where it may. -/
def settleWorkflowFailure (runId : ℕ) : Except StoreError (Ledger × Response) := do
  let run ← s.run runId
  require (readings.hasFailedEffect runId = true) (.invalidTransition "effect" "failed")
  if RunState.failed ∈ run.state.transitions ∧ ¬run.state.isWorkflowFenced then do
    let now := readings.stamp 0
    let s := s.failPendingRuntimeActions run.id run.activeAttemptId now
    let s := s.closeSourceWorkForRun run.id now
    let s := s.expireDecisions run.id now
    let s := s.updateRun run now (fun r => { r with state := .failed }) (Run.id_state .failed)
    let s := s.updateAttempt run.activeAttemptId fun a =>
      { a with
        state := .failed, finishedAt := some now, dispatchOwner := none, dispatchExpiresAt := none }
    let s := s.detachRun run .failed now
    let attempt ← s.attempt run.activeAttemptId
    let s ← s.releasePin (readings.newId 0) run.id attempt now
    let value ← s.run runId
    pure (s, .run value)
  else pure (s, .run run)

/-! ## Source intents -/

/-- The decision about sources that resolve to one work, or to several. -/
def sourceDecision (canonicalIds : List Text) : Text × Text × List DecisionOption :=
  let entry (choice : SourceChoice) (label : String) : DecisionOption :=
    { id := choice.text, label := some label.toList, description := none }
  if 1 < canonicalIds.dedup.length then
    ("source_conflict".toList,
      "The supplied source claims resolve to different canonical works.".toList,
      [entry .keepBoth "Keep both sources",
        entry .replaceUrlWithEcho "Replace URL with the title source", entry .cancel "Cancel"])
  else
    ("source_confirmation".toList, "Confirm the authority-backed source identity.".toList,
      [entry .useSource "Use this source", entry .cancel "Cancel"])

/-- The body of `create_source_intent`, for candidates that were resolved. -/
def createSourceIntent (runId attemptId : ℕ) (title locator locatorSha256 : Option Text)
    (canonicalIds : List Text) : Except StoreError (Ledger × Response) := do
  require (canonicalIds ≠ []) (.valueError "resolver returned no source candidates")
  let run ← s.run runId
  let attempt ← s.attempt attemptId
  require (run.activeAttemptId = attemptId ∧ attempt.runId = runId)
    (.invalidTransition "attempt_not_active" "source_resolution")
  let resumeRunState ← orRaise (ResumableState.ofState run.state)
    (.invalidTransition run.state.text "waiting_for_decision")
  let resumeAttemptState ← orRaise (ResumableState.ofState attempt.state)
    (.invalidTransition attempt.state.text "waiting_for_decision")
  let now := readings.stamp 0
  let (kind, prompt, options) := sourceDecision canonicalIds
  let row :=
    { id := readings.newId 0
      runId, attemptId
      titleClaim := title
      locatorClaim := locator
      locatorSha256, resumeRunState, resumeAttemptState
      state := .pending
      decisionId := readings.newId 1
      revision := 0
      createdAt := now
      updatedAt := now }
  let intents ← orRaise (s.intents.insert? row) .integrityError
  let (s, _) ← { s with intents }.insertDecision run attemptId (readings.newId 1) kind prompt
    options none none now
  let s := s.updateThreadOf run now fun t => { t with status := .run .waitingForDecision }
  pure (s, .intent row)

/-- The intent, its decision, its run, attempt and thread still belong together. -/
def expectIntentOwner (intent : SourceIntent) (decision : Decision) (run : Run)
    (attempt : Attempt) (thread : Thread) : Except StoreError Unit :=
  require (run.activeAttemptId = intent.attemptId ∧ attempt.runId = intent.runId ∧
      attempt.state = .waitingForDecision ∧ thread.activeRunId = some intent.runId ∧
      thread.status = .run .waitingForDecision ∧ decision.runId = intent.runId ∧
      decision.attemptId = intent.attemptId ∧
      decision.kind ∈ ["source_conflict".toList, "source_confirmation".toList])
    (.invalidTransition "source_intent_owner_mismatch" "source_resolution")

/-- The run of a resolved intent goes back to where it was interrupted, or stops. -/
def resumeFromIntent (intent : SourceIntent) (run : Run) (choice : SourceChoice) (now : Stamp) :
    Except StoreError Ledger :=
  if choice = .cancel then do
    let s ← s.prepareRunCancellation (readings.newId 0) intent.runId intent.attemptId now
    let s := s.updateRun run now fun r => { r with state := .cancelRequested }
    let s := s.updateAttempt intent.attemptId fun a =>
      { a with state := .cancelRequested, finishedAt := none }
    pure (s.updateThreadOf run now fun t => { t with status := .run .cancelRequested })
  else do
    let s := s.updateRun run now fun r => { r with state := intent.resumeRunState.state }
    let s := s.updateAttempt intent.attemptId fun a =>
      { a with state := intent.resumeAttemptState.state, finishedAt := none }
    pure (s.updateThreadOf run now fun t => { t with status := .run intent.resumeRunState.state })

/-- The body of `resolve_source_intent`; the imports it asks for have tables of their own. -/
def resolveSourceIntent (actorId : Text) (intentId : ℕ) (choice : SourceChoice)
    (expectedRevision : ℤ) : Except StoreError (Ledger × Response) := do
  let intent ← s.intent intentId
  expectRevision intent.revision expectedRevision
  require (intent.state = .pending) .revisionConflict
  let decision ← orRaise
    ((s.decisions.get? intent.decisionId).filter fun d => d.state = .pending)
    (.invalidTransition "decision_not_pending" "source_resolution")
  let run ← s.run intent.runId
  let attempt ← s.attempt intent.attemptId
  let thread ← s.thread run.threadId
  require (run.state = .waitingForDecision)
    (.invalidTransition run.state.text "source_resolution")
  expectIntentOwner intent decision run attempt thread
  require (choice.text ∈ decision.options.map DecisionOption.id)
    (.valueError "choice is not one of the decision options")
  require (choice = .replaceUrlWithEcho → readings.titleCandidates intentId = 1)
    (.invalidTransition "title_identity_ambiguous" "resolved")
  require (readings.importsAreConsistent intentId = true)
    (.invalidTransition "source_import_inconsistent" "bound")
  let now := readings.stamp 0
  let s := s.settleDecision decision { choice := choice.text, actorId } now
  let s := { s with
    intents := s.intents.update
      (fun i => i.id = intentId ∧ (i.revision : ℤ) = expectedRevision) fun i =>
        { i with
          state := if choice = SourceChoice.cancel then .canceled else .resolved
          revision := i.revision + 1, updatedAt := now } }
  let s ← s.resumeFromIntent readings intent run choice now
  let value ← s.intent intentId
  pure (s, .intent value)

end Ledger

section Commands

variable {Digest : Type} [DecidableEq Digest] (platform : Platform Digest)
  (s : Store Digest) (readings : Readings)

/-- `resolve_decision`. -/
def resolveDecision (decisionId : ℕ) (choice : Text) (expectedRevision : ℤ) (caller : Caller) :
    Except StoreError (Store Digest × CommandResult Response) := do
  let choice ← requiredText choice "choice" 500
  ledgerCommand platform s caller (.resolveDecision decisionId) (.choice choice expectedRevision)
    200 (readings.clock 1) fun ledger =>
      ledger.resolveDecision readings caller.actorId decisionId choice expectedRevision

/-- `create_source_intent`, with its claims normalized. -/
def createSourceIntent (runId attemptId : ℕ) (title locator locatorSha256 : Option Text)
    (canonicalIds : List Text) (caller : Caller) :
    Except StoreError (Store Digest × CommandResult Response) := do
  require (title.isSome = true ∨ locator.isSome = true)
    (.valueError "title or locator is required")
  ledgerCommand platform s caller (.createSourceIntent runId)
    (.sourceIntent attemptId title locator locatorSha256) 201 (readings.clock 1) fun ledger =>
      ledger.createSourceIntent readings runId attemptId title locator locatorSha256 canonicalIds

/-- `resolve_source_intent`. -/
def resolveSourceIntent (intentId : ℕ) (choice : SourceChoice) (expectedRevision : ℤ)
    (caller : Caller) : Except StoreError (Store Digest × CommandResult Response) :=
  ledgerCommand platform s caller (.resolveSourceIntent intentId)
    (.choice choice.text expectedRevision) 200 (readings.clock 1) fun ledger =>
      ledger.resolveSourceIntent readings caller.actorId intentId choice expectedRevision

/-- A change of the ledger by a command that files no receipt. -/
def unreceipted (body : Ledger → Except StoreError (Ledger × Response)) :
    Except StoreError (Store Digest × CommandResult Response) := do
  let (ledger, value) ← body s.tables.ledger
  pure ({ s with tables := { s.tables with ledger } },
    { value, statusCode := 200, replayed := false })

/-- `create_workflow_decision`. -/
def createWorkflowDecision (runId : ℕ) (kind prompt : Text) (options : List DecisionOption) :
    Except StoreError (Store Digest × CommandResult Response) := do
  let kind ← requiredText kind "kind" 100
  let prompt ← publicDecisionText prompt "prompt" 20000
  let options ← validateDecisionOptions options
  unreceipted s fun ledger => ledger.createWorkflowDecision readings runId kind prompt options

/-- `settle_workflow_effect_failure`, and the failure of an effect that is settled at once. -/
def settleWorkflowFailure (runId : ℕ) : Except StoreError (Store Digest × CommandResult Response) :=
  unreceipted s fun ledger => ledger.settleWorkflowFailure readings runId

end Commands

end Cortex.Runs
