import Cortex.Workflow.Stages
import Mathlib.Data.List.Sort

/-!
# The references of a stage

When all effects of the current stage are completed, the coordinator lists what their results
refer to and asks `complete_workflow_stage` to record it (`_finish_satisfied_stage`).  The store
reads the same results again: it demands that the references be those of the results, and that
no two be the same.

A result refers to engine objects, runtime events, artifact versions and snapshots.  The rows of
events, versions and snapshots are `Facts`; a result is checked against them when its effect is
completed and again when its stage is.
-/

namespace Cortex.Workflow

open Control Transaction

/-! ## Requests and results -/

inductive EngineKind
  | source
  | lineage
  deriving DecidableEq

/-- `_ENGINE_KIND_PREFIX`. -/
def EngineKind.namespace : EngineKind → Text
  | source => "paper".toList
  | lineage => "idea".toList

def isEngineStart (c : Char) : Bool := c.isAlphanum

def isEngineChar (c : Char) : Bool := isEngineStart c ∨ c ∈ ['.', '_', '/', '-']

/-- `validate_engine_ref` in a namespace. -/
def isEngineRef (kind : EngineKind) (value : Text) : Bool :=
  let start := kind.namespace ++ [':']
  start.isPrefixOf value &&
    match value.drop start.length with
    | [] => false
    | c :: rest =>
        isEngineStart c && decide (rest.length ≤ 466) && rest.all isEngineChar &&
          !value.tails.any ['.', '.'].isPrefixOf && !value.tails.any ['/', '/'].isPrefixOf

structure EngineReference where
  kind : EngineKind
  value : Text
  valid : isEngineRef kind value = true
  deriving DecidableEq

structure LineageNode where
  nodeId : Text
  title : Text
  engineReference : EngineReference
  lineage : engineReference.kind = .lineage
  deriving DecidableEq

/-- `_ARTIFACT_EFFECT_KINDS`. -/
inductive ArtifactKind
  | evidence
  | living
  | training
  | snapshot
  deriving DecidableEq

def ArtifactKind.text : ArtifactKind → Text
  | evidence => "artifact_evidence".toList
  | living => "artifact_living".toList
  | training => "artifact_training".toList
  | snapshot => "artifact_snapshot".toList

/-- What binds a request to an attempt and to the inputs of its stage. -/
structure AttemptBinding where
  attemptId : Text
  stageKey : Text
  stageInputHash : Text
  dependencyResultIds : List Text
  deriving DecidableEq

/-- The typed requests, with what the store and `validate_result` read of them. -/
inductive RequestBody
  | sourceBinding (sourceId : Text)
  | sourceImport (sourceId : Text)
  | lineageQuery
  | successorCreation (parentNodeIds : List Text) (title : Text)
  | runtimeStage (binding : AttemptBinding) (effectKind : Text)
  | artifactWorkflow (binding : AttemptBinding) (kind : ArtifactKind)
      (snapshotMembers : List Text)
  deriving DecidableEq

structure EffectRequest where
  operationId : Text
  requestHash : Text
  runId : Option Text
  body : RequestBody
  deriving DecidableEq

namespace RequestBody

/-- `request.effect_kind`, or the domain of a request without one. -/
def effectKind : RequestBody → Text
  | sourceBinding _ => "source_binding".toList
  | sourceImport _ => "source_import".toList
  | lineageQuery => "lineage_query".toList
  | successorCreation _ _ => "successor_creation".toList
  | runtimeStage _ effectKind => effectKind
  | artifactWorkflow _ kind _ => kind.text

def binding : RequestBody → Option AttemptBinding
  | runtimeStage binding _ => some binding
  | artifactWorkflow binding _ _ => some binding
  | _ => none

/-- The attempt of a request that is bound to one. -/
def attemptId (body : RequestBody) : Option Text := body.binding.map AttemptBinding.attemptId

/-- The category of an effect whose attempt was replaced. -/
def supersededCategory : RequestBody → Text
  | artifactWorkflow _ _ _ => "artifact_attempt_superseded".toList
  | _ => "runtime_attempt_superseded".toList

/-- The stages that a request may belong to. -/
def stageEffect : RequestBody → StageEffect
  | runtimeStage _ _ => .runtime
  | artifactWorkflow _ _ _ => .artifact
  | lineageQuery => .engineQuery
  | _ => .engineMutation

end RequestBody

structure RuntimeStageResult where
  attemptId : Text
  stageKey : Text
  effectKind : Text
  runtimeEventId : Text
  identified : isIdentifier runtimeEventId = true
  deriving DecidableEq

structure ArtifactWorkflowResult where
  attemptId : Text
  stageKey : Text
  kind : ArtifactKind
  artifactVersionIds : List Text
  snapshotId : Option Text
  nonempty : artifactVersionIds ≠ []
  identified : artifactVersionIds.all isIdentifier = true
  canonical : artifactVersionIds.Pairwise (· < ·)
  snapshot : ∀ id ∈ snapshotId, isIdentifier id = true
  snapshotOnly : snapshotId.isSome = true ↔ kind = .snapshot
  deriving DecidableEq

/-- The typed results, as far as a stage refers to them. -/
inductive ResultBody
  | sourceBinding (sourceId : Text) (engineReference : EngineReference)
  | sourceImport (sourceId : Text) (engineReference : EngineReference)
  /-- `LineageQueryResult` orders its nodes by `node_id`. -/
  | lineageQuery (nodes : List LineageNode)
      (canonical : (nodes.map LineageNode.nodeId).Pairwise (· < ·))
  | successorCreation (node : LineageNode) (parentNodeIds : List Text)
  | runtimeStage (result : RuntimeStageResult)
  | artifactWorkflow (result : ArtifactWorkflowResult)
  deriving DecidableEq

structure EffectResult where
  operationId : Text
  requestHash : Text
  resultIdentity : Text
  body : ResultBody
  deriving DecidableEq

/-- `validate_result` of a request, on the fields of its own. -/
def RequestBody.takes : RequestBody → ResultBody → Bool
  | sourceBinding sourceId, .sourceBinding sourceId' _ => sourceId' = sourceId
  | sourceImport sourceId, .sourceImport sourceId' _ => sourceId' = sourceId
  | lineageQuery, .lineageQuery _ _ => true
  | successorCreation parentNodeIds title, .successorCreation node parentNodeIds' =>
      parentNodeIds' = parentNodeIds ∧ node.title = title
  | runtimeStage binding effectKind, .runtimeStage result =>
      result.attemptId = binding.attemptId ∧ result.stageKey = binding.stageKey ∧
        result.effectKind = effectKind
  | artifactWorkflow binding kind members, .artifactWorkflow result =>
      result.attemptId = binding.attemptId ∧ result.stageKey = binding.stageKey ∧
        result.kind = kind ∧ (kind = .snapshot → result.artifactVersionIds = members)
  | _, _ => false

/-- `validate_result`. -/
def EffectRequest.validateResult (request : EffectRequest) (result : EffectResult) :
    Except StoreError Unit :=
  require
    (result.operationId = request.operationId ∧ result.requestHash = request.requestHash ∧
      request.body.takes result.body = true)
    (.valueError "result does not match its request")

/-- The states of an effect, with what a completed or failed one leaves. -/
inductive CommandState
  | pending
  | claimed
  | outcomeUnknown
  | reconciling
  | completed (result : EffectResult)
  | failed (category : Text)
  | manualRequired
  deriving DecidableEq

def CommandState.isCompleted : CommandState → Bool
  | completed _ => true
  | _ => false

/-- A row of `workflow_effect_commands`. -/
structure EffectCommand where
  effectId : Text
  stageKey : Text
  effectKey : Text
  request : EffectRequest
  state : CommandState
  deriving DecidableEq

instance : Keyed EffectCommand Text := ⟨EffectCommand.effectId⟩

namespace EffectCommand

variable (effect : EffectCommand)

def result : Option EffectResult :=
  match effect.state with
  | .completed result => some result
  | _ => none

def isCompleted : Bool := effect.state.isCompleted

def resultIdentity : Option Text := effect.result.map EffectResult.resultIdentity

/-- An effect of a replaced attempt that does not keep its stage open. -/
def isSettled : Bool :=
  match effect.state with
  | .completed _ => true
  | .failed category => category = effect.request.body.supersededCategory
  | _ => false

end EffectCommand

/-! ## Facts -/

/-- A row of `run_events`. -/
structure RunEvent where
  runId : Text
  attemptId : Option Text
  type : Text
  causationId : Option Text

/-- A row of `artifact_versions`. -/
structure VersionRow where
  runId : Text
  attemptId : Option Text
  isCommitted : Bool

/-- A row of `artifact_snapshots`, with its members in the order of their ids. -/
structure SnapshotRow where
  workspaceId : Text
  isCommitted : Bool
  members : List Text

/-- The rows that results are checked against. -/
structure Facts where
  event : Text → Option RunEvent
  /-- `runtime_event_inbox`, by attempt and adapter event. -/
  inbox : Text → Text → Bool
  version : Text → Option VersionRow
  snapshot : Text → Option SnapshotRow
  /-- The run and the attempt have an `artifact.snapshot_created` event of this snapshot. -/
  snapshotEvent : Text → Text → Text → Bool

/-- The run of the workflow, with the workspace of its thread. -/
structure RunView where
  runId : Text
  workspaceId : Text
  activeAttemptId : Option Text
  isOpen : Bool

/-- What a result is checked for: the completion of its effect or that of its stage. -/
inductive ResultTarget
  | effectCompleted
  | effectReconciled
  | stageCompleted
  deriving DecidableEq

def ResultTarget.text : ResultTarget → String
  | effectCompleted => "effect_completed"
  | effectReconciled => "effect_reconciled"
  | stageCompleted => "stage_completed"

section

variable (facts : Facts) (run : RunView) (effect : EffectCommand) (target : ResultTarget)

/-- A result is that of the request's attempt, which for a stage is the active one. -/
def IsOfAttempt (attemptId : Text) : Prop :=
  effect.request.body.attemptId = some attemptId ∧
    (target = .stageCompleted → run.activeAttemptId = some attemptId)

instance (attemptId : Text) : Decidable (IsOfAttempt run effect target attemptId) :=
  inferInstanceAs (Decidable (_ ∧ _))

/-- `_expect_workflow_effect_result` of a runtime result. -/
def expectRuntimeResult (operationId : Text) (result : RuntimeStageResult) :
    Except StoreError Unit := do
  require (effect.request.body.stageEffect = .runtime)
    (.invalidTransition "runtime_request_mismatch" target.text)
  require (IsOfAttempt run effect target result.attemptId)
    (.invalidTransition
      (if target = .stageCompleted then "runtime_event_attempt_mismatch"
        else "runtime_attempt_mismatch") target.text)
  let event ← orRaise (facts.event result.runtimeEventId)
    (.invalidTransition "runtime_event_missing" target.text)
  require (event.runId = run.runId ∧ event.attemptId = some result.attemptId)
    (.invalidTransition "runtime_event_identity_mismatch" target.text)
  require
    (event.causationId = some effect.request.operationId ∧
      operationId = effect.request.operationId)
    (.invalidTransition "runtime_event_causation_mismatch" target.text)
  require (facts.inbox result.attemptId effect.request.operationId = true)
    (.invalidTransition "runtime_event_inbox_missing" target.text)
  require ("runtime.".toList.isPrefixOf event.type = true)
    (.invalidTransition "runtime_event_type_mismatch" target.text)

/-- `_expect_workflow_artifact_result`, of the versions. -/
def expectVersions (attemptId : Text) : List Text → Except StoreError Unit
  | [] => pure ()
  | versionId :: rest => do
      let version ← orRaise (facts.version versionId)
        (.invalidTransition "artifact_version_missing" target.text)
      require
        (version.runId = run.runId ∧ version.attemptId = some attemptId ∧
          version.isCommitted = true)
        (.invalidTransition "artifact_version_identity_mismatch" target.text)
      expectVersions attemptId rest

/-- `_expect_workflow_artifact_result`, of the snapshot. -/
def expectSnapshot (attemptId : Text) (versionIds : List Text) (snapshotId : Text) :
    Except StoreError Unit := do
  let snapshot ← orRaise (facts.snapshot snapshotId)
    (.invalidTransition "artifact_snapshot_missing" target.text)
  require
    (snapshot.workspaceId = run.workspaceId ∧ snapshot.isCommitted = true ∧
      facts.snapshotEvent run.runId attemptId snapshotId = true)
    (.invalidTransition "artifact_snapshot_identity_mismatch" target.text)
  require (snapshot.members = versionIds)
    (.invalidTransition "artifact_snapshot_members_mismatch" target.text)

/-- The members that the request of a snapshot names. -/
def RequestBody.NamesMembers (versionIds : List Text) : RequestBody → Prop
  | artifactWorkflow _ kind members => kind = .snapshot → versionIds = members
  | _ => True

instance (versionIds : List Text) : (body : RequestBody) →
    Decidable (body.NamesMembers versionIds)
  | .artifactWorkflow _ kind members =>
      inferInstanceAs (Decidable (kind = .snapshot → versionIds = members))
  | .sourceBinding _ | .sourceImport _ | .lineageQuery | .successorCreation _ _
  | .runtimeStage _ _ => .isTrue trivial

/-- `_expect_workflow_artifact_result`. -/
def expectArtifactResult (result : ArtifactWorkflowResult) : Except StoreError Unit := do
  require (effect.request.body.stageEffect = .artifact)
    (.invalidTransition "artifact_request_mismatch" target.text)
  require (IsOfAttempt run effect target result.attemptId)
    (.invalidTransition "artifact_attempt_mismatch" target.text)
  require (effect.request.body.NamesMembers result.artifactVersionIds)
    (.invalidTransition "artifact_snapshot_members_mismatch" target.text)
  expectVersions facts run target result.attemptId result.artifactVersionIds
  match result.snapshotId with
  | none => pure ()
  | some snapshotId =>
      expectSnapshot facts run target result.attemptId result.artifactVersionIds snapshotId

/-- `_expect_workflow_effect_result`. -/
def expectEffectResult (result : EffectResult) : Except StoreError Unit :=
  match result.body with
  | .runtimeStage body => expectRuntimeResult facts run effect target result.operationId body
  | .artifactWorkflow body => expectArtifactResult facts run effect target body
  | _ => pure ()

end

/-! ## References -/

inductive ReferenceKind
  | decision
  | sourceResolution
  | source
  | sourceBinding
  | engineSource
  | lineageNode
  | artifactVersion
  | snapshot
  | event
  | runtimeEvent
  deriving DecidableEq

/-- `_WORKFLOW_EXACT_REFERENCE_KINDS`; the others are `_WORKFLOW_CONTEXT_REFERENCE_KINDS`. -/
def ReferenceKind.isExact : ReferenceKind → Bool
  | decision | engineSource | lineageNode => true
  | _ => false

abbrev Identity := ReferenceKind × Text

structure Reference where
  kind : ReferenceKind
  id : Text
  metadata : Text
  deriving DecidableEq

def Reference.identity (reference : Reference) : Identity := (reference.kind, reference.id)

/-- What a result refers to. -/
def ResultBody.identities : ResultBody → List Identity
  | sourceBinding _ reference => [(.engineSource, reference.value)]
  | sourceImport _ reference => [(.engineSource, reference.value)]
  | lineageQuery nodes _ => nodes.map fun node => (.lineageNode, node.engineReference.value)
  | successorCreation node _ => [(.lineageNode, node.engineReference.value)]
  | runtimeStage result => [(.runtimeEvent, result.runtimeEventId)]
  | artifactWorkflow result =>
      result.artifactVersionIds.map (fun id => (.artifactVersion, id)) ++
        result.snapshotId.toList.map fun id => (.snapshot, id)

/-- What an effect refers to, by the receipt of its result. -/
def EffectCommand.identities (effect : EffectCommand) : List Identity :=
  match effect.result with
  | none => []
  | some result => result.body.identities

/-! ## The stage -/

/-- What the coordinator and the store read of a workflow. -/
structure Progress where
  workflow : Instance
  run : RunView
  effects : Table EffectCommand
  /-- The resolved decision of a stage, with the choice. -/
  resolved : Text → Option (Text × Text)
  facts : Facts

/-- Effects cover the kinds that a stage requires, and all of them are completed. -/
def Stage.Covered (stage : Stage) (effects : List EffectCommand) : Prop :=
  (∀ kind ∈ stage.requiredKinds, ∃ effect ∈ effects,
    effect.request.body.effectKind = kind ∧ effect.isCompleted = true) ∧
  ∀ effect ∈ effects, effect.isCompleted = true

instance (stage : Stage) (effects : List EffectCommand) : Decidable (stage.Covered effects) :=
  inferInstanceAs (Decidable (_ ∧ _))

namespace Progress

variable (s : Progress) (stage : Stage)

def stageEffects : List EffectCommand :=
  s.effects.rows.filter fun effect => effect.stageKey = stage.stageKey

/-- The effects of a stage that are bound to an attempt. -/
def attemptEffects : List EffectCommand :=
  (s.stageEffects stage).filter fun effect => effect.request.body.attemptId.isSome

def activeAttemptEffects : List EffectCommand :=
  (s.attemptEffects stage).filter fun effect =>
    effect.request.body.attemptId = s.run.activeAttemptId

def staleAttemptEffects : List EffectCommand :=
  (s.attemptEffects stage).filter fun effect =>
    effect.request.body.attemptId ≠ s.run.activeAttemptId

/-- The effects that `complete_workflow_stage` counts. -/
def countedEffects : List EffectCommand :=
  if s.activeAttemptEffects stage = [] then s.stageEffects stage else s.activeAttemptEffects stage

/-- The effects that `_finish_satisfied_stage` counts. -/
def satisfyingEffects : List EffectCommand :=
  if s.attemptEffects stage = [] then s.stageEffects stage else s.activeAttemptEffects stage

/-- The results of the effects are checked again. -/
def expectResults : List EffectCommand → Except StoreError Unit
  | [] => pure ()
  | effect :: rest => do
      match effect.result with
      | none => pure ()
      | some result => expectEffectResult s.facts s.run effect .stageCompleted result
      expectResults rest

/-- The decision that a decision stage refers to. -/
def decisionReferences : Except StoreError (List Reference) :=
  if stage.effect = .decision then
    match s.resolved stage.stageKey with
    | none => throw (.invalidTransition "decision_unresolved" "completed")
    | some (decisionId, choice) => pure [⟨.decision, decisionId, choice⟩]
  else pure []

/-- The check of a supplied runtime event. -/
def expectAttemptEvent (id : Text) : Except StoreError Unit := do
  let event ← orRaise (s.facts.event id)
    (.invalidTransition "runtime_event_identity_mismatch" "completed")
  require (event.runId = s.run.runId)
    (.invalidTransition "runtime_event_identity_mismatch" "completed")
  require (s.run.activeAttemptId ≠ none ∧ event.attemptId = s.run.activeAttemptId)
    (.invalidTransition "runtime_event_attempt_mismatch" "completed")
  require ("runtime.".toList.isPrefixOf event.type = true)
    (.invalidTransition "runtime_event_type_mismatch" "completed")

def expectAttemptEvents : List Identity → Except StoreError Unit
  | [] => pure ()
  | (kind, id) :: rest => do
      if kind = .runtimeEvent then s.expectAttemptEvent id else pure ()
      expectAttemptEvents rest

def isArtifactIdentity (identity : Identity) : Bool :=
  identity.1 = .artifactVersion ∨ identity.1 = .snapshot

/-- What is supplied beyond the required references: context, unless a result is an artifact. -/
def Admits (required supplied : List Identity) : Prop :=
  (∀ identity ∈ supplied, identity.1.isExact = true ∨ identity.1 = .runtimeEvent →
    identity ∈ required) ∧
  (required.any isArtifactIdentity = true → supplied ⊆ required)

instance (required supplied : List Identity) : Decidable (Admits required supplied) :=
  inferInstanceAs (Decidable (_ ∧ (_ → ∀ identity ∈ supplied, identity ∈ required)))

instance (required supplied : List Identity) : Decidable (required ⊆ supplied) :=
  inferInstanceAs (Decidable (∀ identity ∈ required, identity ∈ supplied))

/-- Both of `normalized_references` with the decision, and the required identities. -/
def checkReferences (references decision : List Reference) : Except StoreError Unit := do
  let supplied := (references ++ decision).map Reference.identity
  let required :=
    (s.countedEffects stage).flatMap EffectCommand.identities ++
      decision.map Reference.identity
  require (required ⊆ supplied) (.invalidTransition "references_missing" "completed")
  require (Admits required supplied) (.invalidTransition "references_extra" "completed")
  s.expectAttemptEvents supplied

/-- The category of effects of replaced attempts that keep a stage open. -/
def unsettledCategory : String :=
  if (s.staleAttemptEffects stage).any fun effect => effect.request.body.stageEffect = .artifact
  then "artifact_effect_unsettled" else "runtime_effect_unsettled"

/-- The checks of `complete_workflow_stage` on effects, references and the checkpoint, and the
references that it records. -/
def checkCompletion (references : List Reference) (checkpoint : Option (List Text)) :
    Except StoreError (List Reference) := do
  require
    (s.activeAttemptEffects stage = [] ∨
      ∀ effect ∈ s.staleAttemptEffects stage, effect.isSettled = true)
    (.invalidTransition (s.unsettledCategory stage) "completed")
  require (stage.Covered (s.countedEffects stage))
    (.invalidTransition "effect_requirements_missing" "completed")
  s.expectResults (s.countedEffects stage)
  let decision ← s.decisionReferences stage
  s.checkReferences stage references decision
  require (stage.checkpointEnabled = checkpoint.isSome)
    (.invalidTransition "checkpoint_requirement_mismatch" "completed")
  require ((references ++ decision).map Reference.identity).Nodup
    (.valueError "workflow references must be unique")
  pure (references ++ decision)

/-- The first check of `complete_workflow_stage`, of each reference. -/
def normalizeReferences : List Reference → Except StoreError (List Reference)
  | [] => pure []
  | reference :: rest => do
      let id ← requiredText reference.id "reference.id" 1000
      let rest ← normalizeReferences rest
      pure ({ reference with id } :: rest)

/-- What the completion of a stage reads, apart from its own row. -/
def readings (completion : Except StoreError Unit) : StageReadings where
  runIsOpen := s.run.isOpen
  existingDecision := none
  hasAttempt := s.run.activeAttemptId.isSome
  resolution := .ok ()
  failure := .ok ()
  completion

/-- `complete_workflow_stage`, with the references that it records. -/
def completeStage (stageKey : Text) (workflowRevision stageRevision : ℕ)
    (references : List Reference) (checkpoint : Option (List Text)) :
    Except StoreError (Instance × List Reference) := do
  let references ← normalizeReferences references
  let completion := do
    let stage ← s.workflow.stageRow stageKey
    s.checkCompletion stage references checkpoint
  let workflow ← s.workflow.completeWorkflowStage (s.readings (completion.map fun _ => ()))
    stageKey workflowRevision stageRevision
  let recorded ← completion
  pure (workflow, recorded)

end Progress

/-! ## The coordinator -/

/-- The references that `_finish_satisfied_stage` lists. -/
def listReferences (effects : List EffectCommand) : List Reference :=
  effects.flatMap fun effect =>
    effect.identities.map fun identity => ⟨identity.1, identity.2, effect.effectId⟩

/-- `checkpoint_state`, whose varying part is the identities of the results. -/
def checkpointOf (stage : Stage) (effects : List EffectCommand) : Option (List Text) :=
  if stage.checkpointEnabled = true then
    some ((effects.filterMap EffectCommand.resultIdentity).insertionSort (· ≤ ·))
  else none

namespace Progress

variable (s : Progress)

/-- What the coordinator does with an error of the store. -/
def afterRefusal (stageKey : Text) (stage : Stage) (error : StoreError) :
    Except StoreError (Option (Instance × List Reference)) :=
  match error with
  | .invalidTransition _ _ | .revisionConflict =>
      if stage.state = .completed ∨ s.workflow.currentStageKey ≠ some stageKey ∨
          s.run.isOpen = false then pure none
      else throw error
  | _ => throw error

/-- `_finish_satisfied_stage`. -/
def finishSatisfiedStage : Except StoreError (Option (Instance × List Reference)) :=
  match s.workflow.currentStageKey with
  | none => pure none
  | some stageKey =>
      match s.workflow.stages.get? stageKey with
      | none => throw (.runtimeError "StopIteration")
      | some stage =>
          if stage.state ≠ .active then pure none
          else if s.attemptEffects stage ≠ [] ∧ s.activeAttemptEffects stage = [] then pure none
          else if ¬ stage.Covered (s.satisfyingEffects stage) then pure none
          else
            match s.completeStage stageKey s.workflow.revision stage.revision
                (listReferences (s.satisfyingEffects stage))
                (checkpointOf stage (s.satisfyingEffects stage)) with
            | .ok completion => pure (some completion)
            | .error error => s.afterRefusal stageKey stage error

end Progress

end Cortex.Workflow
