import Cortex.Runs.Dispatch

/-!
# Runtime events

The five commands that the orchestrator offers the events of a worker through: a
transition of the run, an observation, a message, a checkpoint and a decision.
Each is for one attempt, and each raises the revision of its run by one.

`transition_run` is also the command by which an operator asks a run to pause or
to stop.  Those two targets carry no runtime identity, and so none is checked.
-/

namespace Cortex.Runs

open Control Time Transaction

/-- `CAPTURE_CONSUMER_ACTOR`. -/
def captureConsumerActor : Text := "machine:p4-capture-consumer".toList

/-- The requests of an operator: `target_state in {"pause_requested", "cancel_requested"}`. -/
def RunState.isControlRequest (state : RunState) : Prop :=
  state ∈ [RunState.pauseRequested, RunState.cancelRequested]

instance (state : RunState) : Decidable state.isControlRequest := by
  unfold RunState.isControlRequest
  infer_instance

namespace Ledger

variable (s : Ledger) (readings : Readings)

/-- The two checks of a runtime result; the attempt is answered as it was before them. -/
def checkRuntimeResult (run : Run) (target : RuntimeTarget) (adapterEventId : Option Text)
    (cause : RuntimeCause) : Except StoreError (Ledger × Run × Attempt) := do
  let attempt ← s.validateRuntimeIdentity run target.attemptId target.runtimeBindingId
    target.runtimeReleaseId target.stateGenerationId
  let (s, run) ← s.confirmRuntimeResumeFromEvent run target.attemptId adapterEventId cause
    (readings.stamp 0)
  pure (s, run, attempt)

/-! ## Transitions -/

/-- The runtime identity that a transition other than a control request must carry. -/
def transitionTarget (target : TransitionTarget) : Except StoreError RuntimeTarget := do
  let missing := StoreError.valueError "runtime identity is required for this transition"
  let attemptId ← orRaise target.attemptId missing
  let runtimeBindingId ← orRaise target.runtimeBindingId missing
  let runtimeReleaseId ← orRaise target.runtimeReleaseId missing
  require (runtimeReleaseId ≠ []) missing
  pure { attemptId, runtimeBindingId, runtimeReleaseId
         stateGenerationId := target.stateGenerationId }

/-- The checks of a transition that a worker reports: its runtime identity, the delivery that
caused it, and the checkpoint a paused attempt leaves. -/
def checkRuntimeTransition (run : Run) (targetState : RunState) (target : TransitionTarget)
    (adapterEventId : Option Text) (cause : RuntimeCause) : Except StoreError (Ledger × Run) := do
  let target ← transitionTarget target
  let (s, run, attempt) ← s.checkRuntimeResult readings run target adapterEventId cause
  require (targetState = .paused → isSet attempt.checkpointUri)
    (.invalidTransition "checkpoint_missing" "paused")
  pure (s, run)

/-- A transition of the run and of its active attempt; `finished` where the attempt is over. -/
def moveRunAndAttempt (run : Run) (targetState : RunState) (stage : Option Text)
    (finished : Option Stamp) (now : Stamp) : Ledger :=
  let s := s.updateRun run now fun r => { r with state := targetState, stage := stage <|> r.stage }
  s.updateAttempt run.activeAttemptId fun a =>
    { a with
      state := targetState
      startedAt := if targetState = .running then a.startedAt <|> some now else a.startedAt
      finishedAt := finished <|> a.finishedAt }

/-- The clean-up of a transition that ends its run. -/
def endRun (run : Run) (targetState : RunState) (stage : Option Text) (now : Stamp) :
    Except StoreError Ledger := do
  let s := s.failPendingRuntimeActions run.id run.activeAttemptId now
  let s := s.closeSourceWorkForRun run.id now
  let s := s.moveRunAndAttempt run targetState stage (some now) now
  let s := s.detachRun run targetState now
  let s := s.expireDecisions run.id now
  let attempt ← s.attempt run.activeAttemptId
  s.releasePin (readings.newId 0) run.id attempt now

/-- The effects of a transition, by its target. -/
def applyTransition (run : Run) (targetState : RunState) (stage : Option Text) (now : Stamp) :
    Except StoreError Ledger :=
  if targetState.isTerminal then s.endRun readings run targetState stage now
  else
    match targetState with
    | .cancelRequested => do
        let s ← s.prepareRunCancellation (readings.newId 0) run.id run.activeAttemptId now
        pure (s.moveRunAndAttempt run targetState stage none now)
    | .pauseRequested => do
        let s ← s.insertControlRuntimeAction (readings.newId 0) run.id run.activeAttemptId
          .controlPause now
        pure (s.moveRunAndAttempt run targetState stage none now)
    | .paused => do
        let s := s.failPendingRuntimeActions run.id run.activeAttemptId now
        pure (s.moveRunAndAttempt run targetState stage (some now) now)
    | _ => pure (s.moveRunAndAttempt run targetState stage none now)

/-- The body of `transition_run`.  The event is saved under the active attempt of the run,
which the code reads back into the variable that held the attempt it was offered for. -/
def transitionRun (actorId : Text) (runId : ℕ) (targetState : RunState) (expectedRevision : ℤ)
    (stage : Option Text) (target : TransitionTarget) (adapterEventId : Option Text)
    (cause : RuntimeCause) : Except StoreError (Ledger × Response × ℕ) := do
  let run ← s.run runId
  require (¬(targetState.isControlRequest ∧ actorId ≠ captureConsumerActor ∧
      readings.isEngineOwnedRun runId = true)) .machineRunRefused
  expectRevision run.revision expectedRevision
  let (s, run) ← if targetState.isControlRequest then pure (s, run)
    else s.checkRuntimeTransition readings run targetState target adapterEventId cause
  require (targetState ∈ run.state.transitions)
    (.invalidTransition run.state.text targetState.text)
  let s ← s.applyTransition readings run targetState stage (readings.stamp 1)
  let value ← s.run runId
  pure (s, .run value, run.activeAttemptId)

/-! ## Results of a running attempt -/

/-- The binding of a session that was rebound takes the reference and the larger generation. -/
def rebindSession (runtimeBindingId : ℕ) (payload : ObservationPayload) (now : Stamp) :
    Except StoreError Ledger := do
  let sessionRef ← requiredOption payload.runtimeSessionRef "runtime_session_ref" 1000
  let generation ← orRaise payload.generation (.valueError "runtime binding generation is invalid")
  require (1 ≤ generation) (.valueError "runtime binding generation is invalid")
  let binding ← s.binding runtimeBindingId
  require ((binding.generation : ℤ) < generation)
    (.invalidTransition "stale_binding_generation" "rebound")
  require (∀ b ∈ s.bindings.rows,
      b.id = runtimeBindingId ∨ ¬(b.adapterId = binding.adapterId ∧
        b.runtimeSessionRef = sessionRef ∧ (b.generation : ℤ) = generation))
    .integrityError
  pure { s with
    bindings := s.bindings.update (fun b => b.id = runtimeBindingId) fun b =>
      { b with
        runtimeSessionRef := sessionRef, generation := generation.toNat
        parentRef := payload.parentRuntimeSessionRef, updatedAt := now } }

/-- The effect of an observation besides the revision of the run. -/
def applyObservation (target : RuntimeTarget) (eventType : ObservationType)
    (payload : ObservationPayload) (now : Stamp) : Except StoreError Ledger :=
  match eventType with
  | .sessionRebound => s.rebindSession target.runtimeBindingId payload now
  | _ => pure s

/-- The body of `record_runtime_observation`. -/
def recordRuntimeObservation (runId : ℕ) (target : RuntimeTarget) (eventType : ObservationType)
    (payload : ObservationPayload) (expectedRevision : ℤ) (adapterEventId : Option Text)
    (cause : RuntimeCause) : Except StoreError (Ledger × Response × ℕ) := do
  let run ← s.run runId
  expectRevision run.revision expectedRevision
  let (s, run, _) ← s.checkRuntimeResult readings run target adapterEventId cause
  require (run.state = .running ∨
      eventType = .eventDiscarded ∧ run.state ∈ [RunState.cancelRequested, .pauseRequested])
    (.invalidTransition run.state.text eventType.text)
  let s ← s.applyObservation target eventType payload (readings.stamp 1)
  let s := s.updateRun run (readings.stamp 2) id run_id_same
  let value ← s.run runId
  pure (s, .run value, target.attemptId)

/-- The body of `append_runtime_message`. -/
def appendRuntimeMessage (runId : ℕ) (target : RuntimeTarget) (content : Text)
    (expectedRevision : ℤ) (adapterEventId : Option Text) (cause : RuntimeCause) :
    Except StoreError (Ledger × Response × ℕ) := do
  let run ← s.run runId
  expectRevision run.revision expectedRevision
  let (s, run, _) ← s.checkRuntimeResult readings run target adapterEventId cause
  require (run.state = .running) (.invalidTransition run.state.text "message_completed")
  let thread ← s.thread run.threadId
  let now := readings.stamp 1
  let (s, message) ← s.insertMessage thread.id .assistant content (readings.newId 0) now
  let s := { s with
    threads := s.threads.update (fun t => t.id = thread.id) fun t =>
      { t with revision := t.revision + 1, updatedAt := now } }
  let s := s.updateRun run now id run_id_same
  let value ← s.run runId
  pure (s, .runMessage value message, target.attemptId)

/-- The body of `commit_checkpoint`. -/
def commitCheckpoint (runId : ℕ) (target : RuntimeTarget) (checkpointUri : Text)
    (expectedRevision : ℤ) (adapterEventId : Option Text) (cause : RuntimeCause) :
    Except StoreError (Ledger × Response × ℕ) := do
  let run ← s.run runId
  expectRevision run.revision expectedRevision
  let (s, run, attempt) ← s.checkRuntimeResult readings run target adapterEventId cause
  require (run.state ∈ [RunState.running, .pauseRequested])
    (.invalidTransition run.state.text "checkpointed")
  let s := s.updateAttempt target.attemptId fun a =>
    { a with checkpointUri := some checkpointUri }
  let s := s.updateRun run (readings.stamp 1) id run_id_same
  let value ← s.run runId
  let attempt := { attempt with checkpointUri := some checkpointUri }
  pure (s, .runAttempt value attempt, target.attemptId)

/-- A pending decision that a run and its attempt wait for. -/
def insertDecision (run : Run) (attemptId newId : ℕ) (kind prompt : Text)
    (options : List DecisionOption) (runtimeDecisionRef : Option Text)
    (runtimeDecisionRevision : Option ℕ) (now : Stamp) :
    Except StoreError (Ledger × Decision) := do
  let row :=
    { id := newId
      runId := run.id
      attemptId, kind, prompt, options
      state := .pending
      resolution := none
      revision := 0
      createdAt := now
      resolvedAt := none
      runtimeDecisionRef, runtimeDecisionRevision }
  let decisions ← orRaise (s.decisions.insert? row) .integrityError
  let s := { s with decisions }.updateRun run now fun r => { r with state := .waitingForDecision }
  pure (s.updateAttempt attemptId fun a => { a with state := .waitingForDecision }, row)

/-- The body of `create_decision`. -/
def createDecision (runId : ℕ) (target : RuntimeTarget) (kind prompt : Text)
    (options : List DecisionOption) (runtimeDecisionRef : Option Text)
    (runtimeDecisionRevision : Option ℕ) (expectedRevision : ℤ) (adapterEventId : Option Text)
    (cause : RuntimeCause) : Except StoreError (Ledger × Response × ℕ) := do
  let run ← s.run runId
  expectRevision run.revision expectedRevision
  let (s, run, _) ← s.checkRuntimeResult readings run target adapterEventId cause
  require (run.state = .running) (.invalidTransition run.state.text "waiting_for_decision")
  let (s, decision) ← s.insertDecision run target.attemptId (readings.newId 0) kind prompt options
    runtimeDecisionRef runtimeDecisionRevision (readings.stamp 1)
  pure (s, .decision decision, target.attemptId)

end Ledger

/-- The fields of a payload that an observation may carry, trimmed. -/
def sanitizeObservation (eventType : ObservationType) (payload : ObservationPayload) :
    Except StoreError ObservationPayload := do
  let isTool : Bool := eventType = .toolStarted ∨ eventType = .toolCompleted
  let trim (value : Option Text) (name : String) : Except StoreError (Option Text) :=
    match value.filter fun _ => isTool with
    | none => pure none
    | some value => some <$> requiredText value name 500
  let toolCallId ← trim payload.toolCallId "tool_call_id"
  let toolName ← trim payload.toolName "tool_name"
  pure
    { toolCallId, toolName
      isError := payload.isError.filter fun _ => eventType = .toolCompleted
      durationMs := payload.durationMs.filter fun _ => eventType = .toolCompleted
      runtimeSessionRef := payload.runtimeSessionRef.filter fun _ => eventType = .sessionRebound
      generation := payload.generation.filter fun _ => eventType = .sessionRebound
      parentRuntimeSessionRef :=
        payload.parentRuntimeSessionRef.filter fun _ => eventType = .sessionRebound
      eventType := payload.eventType.filter fun _ => eventType = .eventDiscarded }

/-- `_public_decision_text`. -/
def publicDecisionText (value : Text) (name : String) (maximum : ℕ) : Except StoreError Text := do
  let text ← requiredText value name maximum
  require (text.all fun c => ¬(c.toNat < 32 ∧ c ∉ ['\n', '\t']))
    (.valueError (name ++ " contains invalid control characters"))
  pure text

/-- `_public_decision_text` of an option field that may be absent. -/
def publicOptionText (value : Option Text) (name : String) (maximum : ℕ) :
    Except StoreError (Option Text) :=
  match value with
  | none => pure none
  | some value => some <$> publicDecisionText value name maximum

/-- `_validate_decision_options`. -/
def validateDecisionOptions (options : List DecisionOption) :
    Except StoreError (List DecisionOption) := do
  require (1 ≤ options.length ∧ options.length ≤ 20)
    (.valueError "options must contain between 1 and 20 entries")
  let normalized ← options.mapM fun option => do
    let id ← publicDecisionText option.id "option.id" 200
    let label ← publicOptionText option.label "option.label" 500
    let description ← publicOptionText option.description "option.description" 2000
    pure ({ id, label, description } : DecisionOption)
  require (normalized.map DecisionOption.id).Nodup
    (.valueError "decision option ids must be unique")
  pure normalized

/-- A revision that may be absent, and is not negative. -/
def validateDecisionRevision (revision : Option ℤ) : Except StoreError (Option ℕ) :=
  match revision with
  | none => pure none
  | some revision => do
      require (0 ≤ revision) (.valueError "runtime_decision_revision is invalid")
      pure (some revision.toNat)

/-- A text that is trimmed when it is present. -/
def optionalText (value : Option Text) (name : String) (maximum : ℕ) :
    Except StoreError (Option Text) :=
  match value with
  | none => pure none
  | some value => some <$> requiredText value name maximum

section Commands

variable {Digest : Type} [DecidableEq Digest] (platform : Platform Digest)
  (s : Store Digest) (readings : Readings)

/-- `transition_run`, which `apply_runtime_transition` calls. -/
def transitionRun (runId : ℕ) (targetState : RunState) (expectedRevision : ℤ)
    (stage : Option Text) (payload : List (Text × Text)) (target : TransitionTarget)
    (adapterEventId : Option Text) (cause : RuntimeCause) (caller : Caller) :
    Except StoreError (Store Digest × CommandResult Response) :=
  offer platform s caller (.transition runId targetState)
    (.transition targetState stage payload target cause) expectedRevision adapterEventId 200
    (readings.clock 2) fun ledger =>
      ledger.transitionRun readings caller.actorId runId targetState expectedRevision stage target
        adapterEventId cause

/-- `record_runtime_observation`. -/
def recordRuntimeObservation (runId : ℕ) (target : RuntimeTarget) (eventType : ObservationType)
    (payload : ObservationPayload) (expectedRevision : ℤ) (adapterEventId : Option Text)
    (cause : RuntimeCause) (caller : Caller) :
    Except StoreError (Store Digest × CommandResult Response) := do
  let payload ← sanitizeObservation eventType payload
  offer platform s caller (.runtimeObservation runId)
    (.observation target eventType payload cause) expectedRevision adapterEventId 200
    (readings.clock 3) fun ledger =>
      ledger.recordRuntimeObservation readings runId target eventType payload expectedRevision
        adapterEventId cause

/-- `append_runtime_message`. -/
def appendRuntimeMessage (runId : ℕ) (target : RuntimeTarget) (content : Text)
    (expectedRevision : ℤ) (adapterEventId : Option Text) (cause : RuntimeCause)
    (caller : Caller) : Except StoreError (Store Digest × CommandResult Response) := do
  let content ← requiredText content "content" 1000000
  offer platform s caller (.assistantMessage runId) (.message target content cause)
    expectedRevision adapterEventId 200 (readings.clock 2) fun ledger =>
      ledger.appendRuntimeMessage readings runId target content expectedRevision adapterEventId
        cause

/-- `commit_checkpoint`; a checkpoint is a resource of the artifacts root. -/
def commitCheckpoint (runId : ℕ) (target : RuntimeTarget) (checkpointUri : Text)
    (expectedRevision : ℤ) (adapterEventId : Option Text) (cause : RuntimeCause)
    (caller : Caller) : Except StoreError (Store Digest × CommandResult Response) := do
  let checkpointUri ← requiredText checkpointUri "checkpoint_uri" 4000
  let root ← orRaise (platform.resourceRoot checkpointUri) (.valueError "resource URI is invalid")
  require (root = "artifacts".toList)
    (.valueError "checkpoint_uri must use the artifacts resource root")
  offer platform s caller (.checkpoint runId) (.checkpoint target checkpointUri cause)
    expectedRevision adapterEventId 200 (readings.clock 2) fun ledger =>
      ledger.commitCheckpoint readings runId target checkpointUri expectedRevision adapterEventId
        cause

/-- `create_decision`. -/
def createDecision (runId : ℕ) (target : RuntimeTarget) (kind prompt : Text)
    (options : List DecisionOption) (runtimeDecisionRef : Option Text)
    (runtimeDecisionRevision : Option ℤ) (expectedRevision : ℤ) (adapterEventId : Option Text)
    (cause : RuntimeCause) (caller : Caller) :
    Except StoreError (Store Digest × CommandResult Response) := do
  let kind ← requiredText kind "kind" 100
  let prompt ← publicDecisionText prompt "prompt" 20000
  let options ← validateDecisionOptions options
  let runtimeDecisionRef ← optionalText runtimeDecisionRef "runtime_decision_ref" 500
  let revision ← validateDecisionRevision runtimeDecisionRevision
  offer platform s caller (.createDecision runId)
    (.decision target runtimeDecisionRef runtimeDecisionRevision kind prompt options cause)
    expectedRevision adapterEventId 201 (readings.clock 2) fun ledger =>
      ledger.createDecision readings runId target kind prompt options runtimeDecisionRef revision
        expectedRevision adapterEventId cause

end Commands

end Cortex.Runs
