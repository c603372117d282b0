import Cortex.Control.Errors
import Cortex.Library.Table
import Mathlib.Data.Char
import Mathlib.Data.List.Lex

/-!
# The stages of a workflow

A workflow definition lists its stages with their dependencies, which come before them.
`_install_workflow` writes one row for each stage; stages without dependencies are ready, the
others pending.  `activate_workflow_stage`, the decisions, the failures of effects and
`complete_workflow_stage` move one stage at a time, and each of them writes the workflow's own
row, whose `current_stage_key` the coordinator goes by.

What the commands read of runs, attempts, decisions, effects and references is
`StageReadings`.
-/

namespace Cortex.Workflow

open Control Transaction

/-! ## Definitions -/

inductive StageEffect
  | control
  | decision
  | engineQuery
  | engineMutation
  | runtime
  | artifact
  deriving DecidableEq

/-- The characters of `_IDENTIFIER_RE`, the first of which is a letter or a digit. -/
def isIdentifierStart (c : Char) : Bool := c.isLower ∨ c.isDigit

def isIdentifier : Text → Bool
  | [] => false
  | c :: rest =>
      isIdentifierStart c ∧ rest.length ≤ 127 ∧
        rest.all (fun c => isIdentifierStart c ∨ c ∈ ['.', '_', ':', '-']) = true

/-- `_identifier`. -/
def identifier (value : Text) (name : String) : Except StoreError Unit :=
  require (isIdentifier value = true) (.valueError (name ++ " must be a canonical identifier"))

/-- `_identifiers`, where the sequence may be empty. -/
def identifiers (values : List Text) (name : String) (canonicalOrder : Bool) :
    Except StoreError Unit := do
  require (values.all isIdentifier = true)
    (.valueError (name ++ " must be a canonical identifier"))
  require values.Nodup (.valueError (name ++ " must not contain duplicates"))
  require (canonicalOrder = true → values.Pairwise (· ≤ ·))
    (.valueError (name ++ " must use canonical order"))

structure StageDefinition where
  key : Text
  effect : StageEffect
  dependencies : List Text
  requiredReceipts : List Text
  requiredResults : List Text
  checkpoint : Bool
  deriving DecidableEq

/-- `StageDefinition.__post_init__`. -/
def StageDefinition.check (stage : StageDefinition) : Except StoreError Unit := do
  identifier stage.key "stage key"
  identifiers stage.dependencies "stage dependencies" false
  identifiers stage.requiredReceipts "required receipts" true
  identifiers stage.requiredResults "required results" true
  match stage.effect with
  | .engineMutation | .runtime | .artifact =>
      require (stage.requiredReceipts ≠ [] ∧ stage.requiredResults = [])
        (.valueError "mutating stages require receipts only")
  | .engineQuery =>
      require (stage.requiredResults ≠ [] ∧ stage.requiredReceipts = [])
        (.valueError "engine query stages require durable results only")
  | .control | .decision =>
      require (stage.requiredReceipts = [] ∧ stage.requiredResults = [])
        (.valueError "control and decision stages cannot require effects")

/-- The dependencies of each stage are among the known keys and the stages before it. -/
def Preceding : List Text → List StageDefinition → Prop
  | _, [] => True
  | known, stage :: rest => stage.dependencies ⊆ known ∧ Preceding (stage.key :: known) rest

instance : ∀ known stages, Decidable (Preceding known stages)
  | _, [] => .isTrue trivial
  | known, stage :: rest =>
      have := instDecidablePreceding (stage.key :: known) rest
      inferInstanceAs (Decidable ((∀ key ∈ stage.dependencies, key ∈ known) ∧ _))

/-- A versioned workflow whose stages form an acyclic graph. -/
structure WorkflowDefinition where
  definitionId : Text
  version : ℤ
  stages : List StageDefinition
  nonempty : stages ≠ []
  unique : (stages.map StageDefinition.key).Nodup
  preceding : Preceding [] stages

/-- The constructor of `WorkflowDefinition`, after those of its stages. -/
def WorkflowDefinition.new (definitionId : Text) (version : ℤ) (stages : List StageDefinition) :
    Except StoreError WorkflowDefinition := do
  identifier definitionId "workflow definition_id"
  require (1 ≤ version) (.valueError "workflow version must be a positive integer")
  if nonempty : stages ≠ [] then
    if unique : (stages.map StageDefinition.key).Nodup then
      if preceding : Preceding [] stages then
        pure ⟨definitionId, version, stages, nonempty, unique, preceding⟩
      else throw (.valueError "stage has non-preceding dependencies")
    else throw (.valueError "workflow stage keys must be unique")
  else throw (.valueError "workflow stages must be a non-empty typed sequence")

/-! ## Rows -/

inductive StageState
  | pending
  | ready
  | active
  | waiting
  | completed
  | failed
  | manualRecovery
  deriving DecidableEq

def StageState.text : StageState → String
  | pending => "pending"
  | ready => "ready"
  | active => "active"
  | waiting => "waiting"
  | completed => "completed"
  | failed => "failed"
  | manualRecovery => "manual_recovery"

/-- A row of `workflow_stage_instances`, with its dependencies and requirements. -/
structure Stage where
  stageKey : Text
  effect : StageEffect
  checkpointEnabled : Bool
  dependencies : List Text
  requiredKinds : List Text
  state : StageState
  inputHash : Option Text
  attempt : ℕ
  revision : ℕ
  deriving DecidableEq

instance : Keyed Stage Text := ⟨Stage.stageKey⟩

inductive WorkflowState
  | running
  | waiting
  | completed
  | failed
  | manualRecovery
  deriving DecidableEq

/-- A row of `workflow_instances`, with its stages in the order of their positions. -/
structure Instance where
  definitionId : Text
  definitionVersion : ℤ
  state : WorkflowState
  currentStageKey : Option Text
  revision : ℕ
  stages : Table Stage

/-- The row that a stage starts with. -/
def StageDefinition.row (stage : StageDefinition) : Stage where
  stageKey := stage.key
  effect := stage.effect
  checkpointEnabled := stage.checkpoint
  dependencies := stage.dependencies
  requiredKinds := stage.requiredReceipts ++ stage.requiredResults
  state := if stage.dependencies = [] then .ready else .pending
  inputHash := none
  attempt := 0
  revision := 0

/-- `_install_workflow`, where no workflow is there. -/
def installWorkflow (definition : WorkflowDefinition) : Instance where
  definitionId := definition.definitionId
  definitionVersion := definition.version
  state := .running
  currentStageKey :=
    (definition.stages.find? fun stage => stage.dependencies = []).map StageDefinition.key
  revision := 0
  stages :=
    { rows := definition.stages.map StageDefinition.row
      nodup := by
        rw [List.map_map]
        exact definition.unique }

/-! ## Commands -/

/-- What the commands read of other tables. -/
structure StageReadings where
  /-- The run of the workflow is not fenced. -/
  runIsOpen : Bool
  /-- The decision of the stage: there is none yet, or it is the same, or another one. -/
  existingDecision : Option (Except StoreError Unit)
  /-- The run has an active attempt. -/
  hasAttempt : Bool
  /-- The decision of the stage is pending, its run waits for it and the choice is an option. -/
  resolution : Except StoreError Unit
  /-- The effect of the stage has failed for good, and its run is neither paused nor fenced. -/
  failure : Except StoreError Unit
  /-- The effects are completed, the references are the required ones and the checkpoint is
  there if it is enabled. -/
  completion : Except StoreError Unit

/-- No row of a dependency is in another state than `completed`. -/
def DependenciesCompleted (stages : Table Stage) (stage : Stage) : Prop :=
  ∀ row ∈ stages.rows, row.stageKey ∈ stage.dependencies → row.state = .completed

instance (stages : Table Stage) (stage : Stage) : Decidable (DependenciesCompleted stages stage) :=
  inferInstanceAs (Decidable (∀ row ∈ stages.rows, _))

/-- One stage takes another state. -/
def Stage.moved (state : StageState) (stage : Stage) : Stage :=
  { stage with state, revision := stage.revision + 1 }

namespace Instance

variable (w : Instance) (readings : StageReadings)

/-- `_expect_revision` of the workflow. -/
def expectRevision (expected : ℕ) : Except StoreError Unit :=
  require (w.revision = expected) .revisionConflict

/-- `_workflow_stage_row`. -/
def stageRow (stageKey : Text) : Except StoreError Stage :=
  orRaise (w.stages.get? stageKey) (.notFound "workflow stage")

/-- `UPDATE workflow_stage_instances` of the one stage. -/
def setStage (stageKey : Text) (state : StageState) : Table Stage :=
  w.stages.update (fun row => row.stageKey = stageKey) (Stage.moved state) fun _ => rfl

/-- `activate_workflow_stage`. -/
def activateWorkflowStage (stageKey inputHash : Text) (expectedWorkflowRevision : ℕ)
    (expectedStageRevision : ℕ) : Except StoreError Instance := do
  w.expectRevision expectedWorkflowRevision
  require (readings.runIsOpen = true) (.invalidTransition "run" "workflow_active")
  let stage ← w.stageRow stageKey
  require (stage.revision = expectedStageRevision) .revisionConflict
  require (DependenciesCompleted w.stages stage ∧ stage.state ≠ .pending)
    (.invalidTransition "dependencies_incomplete" "active")
  require (stage.state = .ready) (.invalidTransition stage.state.text "active")
  pure
    { w with
      stages := w.stages.update (fun row => row.stageKey = stageKey)
        (fun row =>
          { row.moved .active with inputHash := some inputHash, attempt := row.attempt + 1 })
        fun _ => rfl
      state := .running
      currentStageKey := some stageKey
      revision := w.revision + 1 }

/-- `create_workflow_decision`: a decision that is there is returned, or differs. -/
def createWorkflowDecision (stageKey : Text) (expectedWorkflowRevision : ℕ)
    (expectedStageRevision : ℕ) : Except StoreError Instance := do
  let stage ← w.stageRow stageKey
  match readings.existingDecision with
  | some replay => do
      replay
      pure w
  | none => do
      w.expectRevision expectedWorkflowRevision
      require (readings.runIsOpen = true) (.invalidTransition "run" "workflow_active")
      require (stage.revision = expectedStageRevision) .revisionConflict
      require (stage.effect = .decision ∧ stage.state = .active)
        (.invalidTransition stage.state.text "waiting")
      require (readings.hasAttempt = true) (.notFound "attempt")
      pure
        { w with
          stages := w.setStage stageKey .waiting
          state := .waiting
          revision := w.revision + 1 }

/-- `resolve_decision`, of the decision of a stage. -/
def resolveDecision (stageKey : Text) : Except StoreError Instance := do
  let stage ← w.stageRow stageKey
  readings.resolution
  require (stage.state = .waiting) (.invalidTransition stage.state.text "active")
  pure
    { w with
      stages := w.setStage stageKey .active
      state := .running
      revision := w.revision + 1 }

/-- `_settle_workflow_failure`, from `reject_workflow_effect` or
`settle_workflow_effect_failure`. -/
def settleWorkflowFailure (stageKey : Text) : Except StoreError Instance := do
  let stage ← w.stageRow stageKey
  readings.failure
  require (stage.state = .active ∨ stage.state = .waiting)
    (.invalidTransition stage.state.text "failed")
  let stages := w.setStage stageKey .failed
  if w.state = .running ∨ w.state = .waiting ∨ w.state = .manualRecovery then
    pure { w with stages, state := .failed, revision := w.revision + 1 }
  else
    pure { w with stages }

/-- The stages after a completion: those whose dependencies are all completed are ready. -/
def promoted (stages : Table Stage) : Table Stage :=
  stages.update (fun row => row.state = .pending ∧ DependenciesCompleted stages row)
    (fun row => { row with state := .ready }) fun _ => rfl

/-- `complete_workflow_stage`. -/
def completeWorkflowStage (stageKey : Text) (expectedWorkflowRevision : ℕ)
    (expectedStageRevision : ℕ) : Except StoreError Instance := do
  w.expectRevision expectedWorkflowRevision
  require (readings.runIsOpen = true) (.invalidTransition "run" "workflow_active")
  let stage ← w.stageRow stageKey
  require (stage.revision = expectedStageRevision) .revisionConflict
  require (stage.state = .active) (.invalidTransition stage.state.text "completed")
  readings.completion
  let stages := promoted (w.setStage stageKey .completed)
  let unfinished := stages.rowcount fun row => row.state ≠ .completed
  pure
    { w with
      stages
      state := if unfinished = 0 then .completed else .running
      currentStageKey :=
        (stages.rows.find? fun row => row.state = .ready).map Stage.stageKey
      revision := w.revision + 1 }

end Instance

/-! ## Runs -/

/-- The commands that write the rows of a workflow and its stages. -/
inductive StageCommand
  | activate (stageKey inputHash : Text) (expectedWorkflowRevision expectedStageRevision : ℕ)
  | createDecision (stageKey : Text) (expectedWorkflowRevision expectedStageRevision : ℕ)
  | resolveDecision (stageKey : Text)
  | settleFailure (stageKey : Text)
  | complete (stageKey : Text) (expectedWorkflowRevision expectedStageRevision : ℕ)

/-- A command, with what it reads. -/
structure StageCall where
  command : StageCommand
  readings : StageReadings

def Instance.exec (w : Instance) (call : StageCall) : Except StoreError Instance :=
  match call.command with
  | .activate stageKey inputHash expectedWorkflowRevision expectedStageRevision =>
      w.activateWorkflowStage call.readings stageKey inputHash expectedWorkflowRevision
        expectedStageRevision
  | .createDecision stageKey expectedWorkflowRevision expectedStageRevision =>
      w.createWorkflowDecision call.readings stageKey expectedWorkflowRevision
        expectedStageRevision
  | .resolveDecision stageKey => w.resolveDecision call.readings stageKey
  | .settleFailure stageKey => w.settleWorkflowFailure call.readings stageKey
  | .complete stageKey expectedWorkflowRevision expectedStageRevision =>
      w.completeWorkflowStage call.readings stageKey expectedWorkflowRevision
        expectedStageRevision

/-- The workflow after a call; one that raises changes nothing. -/
def Instance.after (w : Instance) (call : StageCall) : Instance :=
  match w.exec call with
  | .ok w' => w'
  | .error _ => w

/-- The workflow after its installation and calls, the latest first. -/
def runStages (definition : WorkflowDefinition) : List StageCall → Instance
  | [] => installWorkflow definition
  | call :: earlier => (runStages definition earlier).after call

end Cortex.Workflow
