import Cortex.Runs.Schema
import Cortex.Workflow.Moves
import Cortex.Workflow.Readiness

/-!
# The carrier of a capture

An effect belongs to a stage of a workflow, and a workflow to a run.  The capture consumer
opens a thread for each capture, a run on it with the sealed `research.capture` workflow, and
one effect on the only stage of the workflow.

`CarrierThread` is that thread with its runs, `CarrierRun` a run with its workflow and its
effect.  The commands are those of the store, as far as they write these rows; what they read
elsewhere are arguments.  Nobody but the consumer writes them, so a command that names a row
by the revision it has just read is modelled with the revision of the row.
-/

namespace Cortex.Consumer

open Control Time Transaction Workflow

/-! ## The workflow -/

/-- `STAGE_KEY`. -/
def stageKey : Text := "import_capture".toList

/-- The only stage of `RESEARCH_CAPTURE_WORKFLOW`. -/
def importCapture : StageDefinition where
  key := stageKey
  effect := .engineMutation
  dependencies := []
  requiredReceipts := ["source_import".toList]
  requiredResults := []
  checkpoint := false

/-- `RESEARCH_CAPTURE_WORKFLOW`. -/
def researchCaptureWorkflow : WorkflowDefinition where
  definitionId := "research.capture".toList
  version := 1
  stages := [importCapture]
  nonempty := List.cons_ne_nil _ _
  unique := List.nodup_singleton _
  preceding := ⟨List.nil_subset _, trivial⟩

/-! ## Rows -/

variable {ρ : Type}

/-- A run of a carrier thread, with its workflow and the effect of the capture. -/
structure CarrierRun (ρ : Type) where
  id : ℕ
  state : Runs.RunState
  activeAttemptId : ℕ
  revision : ℕ
  workflow : Instance
  effect : Option (EffectStore ρ)

instance : Keyed (CarrierRun ρ) ℕ := ⟨CarrierRun.id⟩

/-- The thread that carries a capture, with its runs in the order of their creation. -/
structure CarrierThread (ρ : Type) where
  activeRunId : Option ℕ
  revision : ℕ
  runs : Table (CarrierRun ρ)

/-- What the commands about an effect read besides the carrier. -/
structure CarrierReadings where
  clock : ℕ → Civil
  /-- The result of the engine matches the request, and the other tables. -/
  resultIsValid : Bool
  /-- The reference that completes the stage is the one of the result. -/
  references : Except StoreError Unit

def isCompleted : EffectState ρ → Bool
  | .completed _ => true
  | _ => false

/-- `create_run` gives the run its workflow in the same transaction. -/
def CarrierRun.new (id attemptId : ℕ) : CarrierRun ρ where
  id := id
  state := .queued
  activeAttemptId := attemptId
  revision := 0
  workflow := installWorkflow researchCaptureWorkflow
  effect := none

namespace CarrierRun

variable (run : CarrierRun ρ) (readings : CarrierReadings)

/-- `_expect_workflow_run_open`. -/
def isOpen : Bool := ¬run.state.isWorkflowFenced

/-- The stage of the capture can be settled as failed. -/
def stageCanFail : Bool :=
  (run.workflow.stages.get? stageKey).any fun stage =>
    stage.state = .active ∨ stage.state = .waiting

/-- What the commands about the effect read. -/
def effectReadings : Workflow.Readings where
  clock := readings.clock
  runIsOpen := run.isOpen
  resultIsValid := readings.resultIsValid
  failureIsSettled := ¬run.isOpen ∨ run.stageCanFail
  attemptIsReplaced := false

/-- The effect is completed, and no other effect of the stage is there. -/
def effectIsCompleted : Bool := run.effect.any fun s => isCompleted s.effect.state

/-- What the commands about the stage read. -/
def stageReadings : StageReadings where
  runIsOpen := run.isOpen
  existingDecision := none
  hasAttempt := true
  resolution := .error (.notFound "decision")
  failure := .ok ()
  completion := do
    require (run.effectIsCompleted = true)
      (.invalidTransition "effect_requirements_missing" "completed")
    readings.references

/-- `activate_workflow_stage`. -/
def activateStage (inputHash : Text) : Except StoreError (CarrierRun ρ) := do
  let stage ← run.workflow.stageRow stageKey
  let workflow ← run.workflow.activateWorkflowStage (run.stageReadings readings) stageKey inputHash
    run.workflow.revision stage.revision
  pure { run with workflow }

/-- `create_workflow_effect`; an effect that is there is returned. -/
def createEffect : Except StoreError (CarrierRun ρ) := do
  let stage ← run.workflow.stageRow stageKey
  match run.effect with
  | some _ => pure run
  | none => do
      require (run.isOpen = true) (.invalidTransition run.state.text "workflow_active")
      require (stage.state = .active) (.invalidTransition stage.state.text "effect_pending")
      pure { run with
        effect := some
          { effect :=
              { effectClass := .mutation, state := .pending, claimEpoch := 0, deliveryEpoch := 0 }
            audit := [] } }

/-- `_carrier` activates a stage that is ready, and `_create_effect` creates the effect on it. -/
def prepare (inputHash : Text) : Except StoreError (CarrierRun ρ) := do
  let stage ← run.workflow.stageRow stageKey
  if stage.state = .ready then run.activateStage readings inputHash else run.createEffect

/-- A command about the effect. -/
def onEffect (command : EffectStore ρ → Except StoreError (EffectStore ρ × Loaded ρ)) :
    Except StoreError (CarrierRun ρ × Loaded ρ) := do
  let s ← orRaise run.effect (.notFound "workflow effect")
  let (s, value) ← command s
  pure ({ run with effect := some s }, value)

/-- `complete_workflow_stage`. -/
def completeStage : Except StoreError (CarrierRun ρ) := do
  let stage ← run.workflow.stageRow stageKey
  let workflow ← run.workflow.completeWorkflowStage (run.stageReadings readings) stageKey
    run.workflow.revision stage.revision
  pure { run with workflow }

/-- The run takes another state. -/
def moveTo (state : Runs.RunState) : CarrierRun ρ :=
  { run with state, revision := run.revision + 1 }

/-- `_settle_workflow_failure`: the stage fails, and with it a run that can. -/
def settleFailure : Except StoreError (CarrierRun ρ) := do
  let workflow ← run.workflow.settleWorkflowFailure (run.stageReadings readings) stageKey
  let run := { run with workflow }
  if .failed ∈ run.state.transitions ∧ ¬run.state.isWorkflowFenced then pure (run.moveTo .failed)
  else pure run

/-- `reject_workflow_effect`; the failure of an effect whose run is fenced or paused is not
settled with it. -/
def rejectEffect (fence : Fence) (category : Text) : Except StoreError (CarrierRun ρ) := do
  let (rejected, _) ← run.onEffect fun s =>
    s.rejectWorkflowEffect (run.effectReadings readings) fence category none
  if run.state.isWorkflowFenced ∨ run.state = .paused then pure rejected
  else rejected.settleFailure readings

/-- `transition_run` to `cancel_requested`. -/
def requestCancel : Except StoreError (CarrierRun ρ) := do
  require (.cancelRequested ∈ run.state.transitions)
    (.invalidTransition run.state.text "cancel_requested")
  pure (run.moveTo .cancelRequested)

/-- `fail_unbound_run`, of a run whose attempt was never bound and has no paused source. -/
def failUnbound (attemptId expectedRevision : ℕ) : Except StoreError (CarrierRun ρ) := do
  require (run.revision = expectedRevision) .revisionConflict
  require (run.activeAttemptId = attemptId) (.invalidTransition "attempt_mismatch" "failed")
  require (run.state ∈ [Runs.RunState.queued, .retrying, .resuming, .cancelRequested])
    (.invalidTransition run.state.text "failed")
  pure (run.moveTo (if run.state = .cancelRequested then .canceled else .failed))

end CarrierRun

namespace CarrierThread

/-- `create_thread`. -/
def new : CarrierThread ρ where
  activeRunId := none
  revision := 0
  runs := .empty

variable (thread : CarrierThread ρ)

/-- `get_run`. -/
def run (runId : ℕ) : Except StoreError (CarrierRun ρ) :=
  orRaise (thread.runs.get? runId) (.notFound "run")

/-- The active run of the thread. -/
def activeRun : Except StoreError (Option (CarrierRun ρ)) :=
  match thread.activeRunId with
  | none => pure none
  | some runId => some <$> thread.run runId

/-- `create_run`. -/
def createRun (runId attemptId : ℕ) : Except StoreError (CarrierThread ρ) := do
  let active ← thread.activeRun
  require (∀ run ∈ active, run.state.isTerminal) (.invalidTransition "active" "queued")
  let runs ← orRaise (thread.runs.insert? (.new runId attemptId)) .integrityError
  pure { activeRunId := some runId, revision := thread.revision + 1, runs }

/-- A run of the thread changes; the thread lets go of one that ends. -/
def putRun (run : CarrierRun ρ) : CarrierThread ρ :=
  let runs := thread.runs.update (fun row => row.id = run.id)
    (fun row => { run with id := row.id }) fun _ => rfl
  if run.state.isTerminal ∧ thread.activeRunId = some run.id then
    { activeRunId := none, revision := thread.revision + 1, runs }
  else { thread with runs }

/-- `list_thread_runs`: the hundred newest, newest first. -/
def listThreadRuns : List (CarrierRun ρ) := thread.runs.rows.reverse.take 100

/-- `_existing_effect`: the effect of the newest run that has one. -/
def existingEffect : Option (CarrierRun ρ × EffectStore ρ) :=
  thread.listThreadRuns.findSome? fun run => run.effect.map fun s => (run, s)

end CarrierThread

end Cortex.Consumer
