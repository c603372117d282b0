import Cortex.Workflow.References
import Mathlib.Data.List.Lex
import Mathlib.Logic.Function.Basic

/-!
# What happens to the effects of a workflow

An effect is created for an active stage that requires its kind, and bound to the active attempt
if its request is.  A completed effect holds a result that `validate_result` and
`_expect_workflow_effect_result` have passed, and is never written again.  The rows that a result
was checked against stay: events are appended, and committed versions and snapshots are
immutable.  So the results of completed effects pass every later check that does not ask for
another attempt (`expectEffectResult_mono`).
-/

namespace Cortex.Workflow

open Control Transaction

/-! ## Commands -/

namespace Progress

variable (s : Progress)

/-- The identities of the results that a stage builds on. -/
def dependencyResultIds (stage : Stage) : List Text :=
  ((s.effects.rows.filter fun effect => effect.stageKey ∈ stage.dependencies).filterMap
    EffectCommand.resultIdentity).insertionSort (· ≤ ·)

/-- The checks of `create_workflow_effect` on a request that is bound to an attempt. -/
def expectBinding (stage : Stage) (request : EffectRequest) : Except StoreError Unit :=
  match request.body.binding with
  | none => pure ()
  | some binding => do
      require (s.run.activeAttemptId = some binding.attemptId)
        (.invalidTransition "request_attempt_mismatch" "effect_pending")
      require (binding.stageKey = stage.stageKey)
        (.invalidTransition "request_stage_mismatch" "effect_pending")
      require (stage.inputHash = some binding.stageInputHash)
        (.invalidTransition "request_input_mismatch" "effect_pending")
      require (binding.dependencyResultIds = s.dependencyResultIds stage)
        (.invalidTransition "dependency_result_mismatch" "effect_pending")

/-- `create_workflow_effect`. -/
def createWorkflowEffect (effectId stageKey effectKey : Text) (request : EffectRequest)
    (expectedWorkflowRevision expectedStageRevision : ℕ) (expectedStageInputHash : Text) :
    Except StoreError Progress := do
  let effectKey ← requiredText effectKey "effect_key" 500
  let expectedStageInputHash ← requiredText expectedStageInputHash "expected_stage_input_hash" 64
  let stage ← s.workflow.stageRow stageKey
  require (∀ runId ∈ request.runId, runId = s.run.runId)
    (.invalidTransition "request_run_mismatch" "effect_pending")
  require (stage.effect = request.body.stageEffect)
    (.invalidTransition "request_effect_mismatch" "effect_pending")
  require (request.body.effectKind ∈ stage.requiredKinds)
    (.invalidTransition "effect_not_required" "effect_pending")
  match s.effects.rows.find? fun effect =>
      effect.stageKey = stageKey ∧ effect.request.body.effectKind = request.body.effectKind ∧
        effect.effectKey = effectKey with
  | some existing => do
      require (existing.request = request)
        (.invalidTransition "effect_identity_drift" "effect_replay")
      pure s
  | none => do
      s.expectBinding stage request
      s.workflow.expectRevision expectedWorkflowRevision
      require (stage.revision = expectedStageRevision) .revisionConflict
      require (stage.inputHash = some expectedStageInputHash)
        (.invalidTransition "stage_input_drift" "effect_pending")
      require (s.run.isOpen = true) (.invalidTransition "run" "workflow_active")
      require (stage.state = .active) (.invalidTransition stage.state.text "effect_pending")
      require (∀ effect ∈ s.effects.rows, effect.request.operationId ≠ request.operationId)
        (.invalidTransition "effect_identity_drift" "effect_replay")
      let effects ← orRaise
        (s.effects.insert? { effectId, stageKey, effectKey, request, state := .pending })
        .integrityError
      pure { s with effects }

/-- One effect takes another state. -/
def setState (effectId : Text) (state : CommandState) : Progress :=
  { s with
    effects := s.effects.update (fun effect => effect.effectId = effectId)
      (fun effect => { effect with state }) fun _ => rfl }

/-- `complete_workflow_effect`, and `complete_workflow_effect_reconciliation` of a committed
result. -/
def completeEffect (effectId : Text) (reconciled : Bool) (result : EffectResult) :
    Except StoreError Progress := do
  let effect ← orRaise (s.effects.get? effectId) (.notFound "workflow effect")
  require (effect.state = if reconciled then .reconciling else .claimed)
    (.invalidTransition "stale_claim" "completed")
  effect.request.validateResult result
  expectEffectResult s.facts s.run effect
    (if reconciled then .effectReconciled else .effectCompleted) result
  pure (s.setState effectId (.completed result))

/-- The commands on an effect that is not completed and will not be: claims, lost replies,
failures and replacements. -/
def moveEffect (effectId : Text) (state : CommandState) : Except StoreError Progress := do
  let effect ← orRaise (s.effects.get? effectId) (.notFound "workflow effect")
  require (effect.isCompleted = false ∧ state.isCompleted = false)
    (.invalidTransition "stale_claim" "effect_pending")
  pure (s.setState effectId state)

end Progress

/-- A row that is written into the facts. -/
inductive Fact
  | event (id : Text) (row : RunEvent)
  | inbox (attemptId eventId : Text)
  | version (id : Text) (row : VersionRow)
  | snapshot (id : Text) (row : SnapshotRow)
  | snapshotEvent (runId attemptId snapshotId : Text)

/-- The triggers of the tables: events are only appended, and committed versions and snapshots
are not written. -/
def Facts.record (facts : Facts) : Fact → Except StoreError Facts
  | .event id row => do
      require ((facts.event id).isNone = true) .integrityError
      pure { facts with event := Function.update facts.event id (some row) }
  | .inbox attemptId eventId =>
      pure
        { facts with
          inbox := fun attempt event =>
            facts.inbox attempt event || decide (attempt = attemptId ∧ event = eventId) }
  | .version id row => do
      require (((facts.version id).any VersionRow.isCommitted) = false) .integrityError
      pure { facts with version := Function.update facts.version id (some row) }
  | .snapshot id row => do
      require (((facts.snapshot id).any SnapshotRow.isCommitted) = false) .integrityError
      pure { facts with snapshot := Function.update facts.snapshot id (some row) }
  | .snapshotEvent runId attemptId snapshotId =>
      pure
        { facts with
          snapshotEvent := fun run attempt snapshot =>
            facts.snapshotEvent run attempt snapshot ||
              decide (run = runId ∧ attempt = attemptId ∧ snapshot = snapshotId) }

inductive ProgressCommand
  /-- The rows of the workflow are written, also by the completion of a stage. -/
  | stage (call : StageCall)
  | createEffect (effectId stageKey effectKey : Text) (request : EffectRequest)
      (expectedWorkflowRevision expectedStageRevision : ℕ) (expectedStageInputHash : Text)
  | completeEffect (effectId : Text) (reconciled : Bool) (result : EffectResult)
  | moveEffect (effectId : Text) (state : CommandState)
  /-- The run takes another state or starts another attempt. -/
  | moveRun (activeAttemptId : Option Text) (isOpen : Bool)
  | resolve (stageKey : Text) (decisionId choice : Text)
  | record (fact : Fact)

def Progress.exec (s : Progress) : ProgressCommand → Except StoreError Progress
  | .stage call => do
      let workflow ← s.workflow.exec call
      pure { s with workflow }
  | .createEffect effectId stageKey effectKey request expectedWorkflowRevision
      expectedStageRevision expectedStageInputHash =>
      s.createWorkflowEffect effectId stageKey effectKey request expectedWorkflowRevision
        expectedStageRevision expectedStageInputHash
  | .completeEffect effectId reconciled result => s.completeEffect effectId reconciled result
  | .moveEffect effectId state => s.moveEffect effectId state
  | .moveRun activeAttemptId isOpen => pure { s with run := { s.run with activeAttemptId, isOpen } }
  | .resolve stageKey decisionId choice =>
      pure { s with resolved := Function.update s.resolved stageKey (some (decisionId, choice)) }
  | .record fact => do
      let facts ← s.facts.record fact
      pure { s with facts }

/-- A workflow that was just installed, in a store whose other rows are arbitrary. -/
def startProgress (definition : WorkflowDefinition) (run : RunView) (facts : Facts) : Progress where
  workflow := installWorkflow definition
  run
  effects := .empty
  resolved := fun _ => none
  facts

/-- The state after commands, the latest first; one that raises changes nothing. -/
def runProgress (start : Progress) : List ProgressCommand → Progress
  | [] => start
  | command :: earlier =>
      let s := runProgress start earlier
      match s.exec command with
      | .ok s' => s'
      | .error _ => s

/-! ## Checks that keep passing -/

/-- What was there is still there. -/
structure Facts.Keeps (facts facts' : Facts) : Prop where
  event : ∀ id row, facts.event id = some row → facts'.event id = some row
  inbox : ∀ attemptId id, facts.inbox attemptId id = true → facts'.inbox attemptId id = true
  version : ∀ id row, facts.version id = some row → row.isCommitted = true →
    facts'.version id = some row
  snapshot : ∀ id row, facts.snapshot id = some row → row.isCommitted = true →
    facts'.snapshot id = some row
  snapshotEvent : ∀ runId attemptId id, facts.snapshotEvent runId attemptId id = true →
    facts'.snapshotEvent runId attemptId id = true

theorem Facts.Keeps.refl (facts : Facts) : facts.Keeps facts where
  event _ _ h := h
  inbox _ _ h := h
  version _ _ h _ := h
  snapshot _ _ h _ := h
  snapshotEvent _ _ _ h := h

private theorem keeps_update {α : Type} {rows : Text → Option α} {id : Text} {row : α}
    {p : α → Bool} (h : (rows id).any p = false) (other : Text) (old : α)
    (hold : rows other = some old) (hp : p old = true) :
    Function.update rows id (some row) other = some old := by
  rw [Function.update_of_ne, hold]
  rintro rfl
  rw [hold, Option.any_some, hp] at h
  cases h

theorem Facts.keeps_record {facts facts' : Facts} {fact : Fact}
    (h : facts.record fact = .ok facts') : facts.Keeps facts' := by
  cases fact with
  | event id row =>
      simp only [Facts.record, bind_eq_ok, require_eq_ok, pure_eq_ok] at h
      obtain ⟨-, hnone, rfl⟩ := h
      refine { Facts.Keeps.refl facts with event := fun other old hold => ?_ }
      have hfree : (facts.event id).any (fun _ => true) = false := by
        rw [Option.isNone_iff_eq_none.1 hnone, Option.any_none]
      exact keeps_update hfree other old hold rfl
  | inbox attemptId eventId =>
      simp only [Facts.record, pure_eq_ok] at h
      subst h
      refine { Facts.Keeps.refl facts with inbox := fun attempt event hheld => ?_ }
      simp only [hheld, Bool.true_or]
  | version id row =>
      simp only [Facts.record, bind_eq_ok, require_eq_ok, pure_eq_ok] at h
      obtain ⟨-, hopen, rfl⟩ := h
      exact { Facts.Keeps.refl facts with version := keeps_update hopen }
  | snapshot id row =>
      simp only [Facts.record, bind_eq_ok, require_eq_ok, pure_eq_ok] at h
      obtain ⟨-, hopen, rfl⟩ := h
      exact { Facts.Keeps.refl facts with snapshot := keeps_update hopen }
  | snapshotEvent runId attemptId snapshotId =>
      simp only [Facts.record, pure_eq_ok] at h
      subst h
      refine { Facts.Keeps.refl facts with snapshotEvent := fun run attempt id hheld => ?_ }
      simp only [hheld, Bool.true_or]

section

variable {facts facts' : Facts} {run run' : RunView} {effect : EffectCommand}
  {target target' : ResultTarget}

/-- The row of a version that a result of the attempt may name. -/
def IsVersionOf (facts : Facts) (run : RunView) (attemptId versionId : Text) : Prop :=
  ∃ version, facts.version versionId = some version ∧ version.runId = run.runId ∧
    version.attemptId = some attemptId ∧ version.isCommitted = true

theorem expectVersions_eq_ok {attemptId : Text} {versionIds : List Text} {u : Unit} :
    expectVersions facts run target attemptId versionIds = .ok u ↔
      ∀ id ∈ versionIds, IsVersionOf facts run attemptId id := by
  induction versionIds with
  | nil => simp [expectVersions]
  | cons id rest ih =>
      simp only [expectVersions, bind_eq_ok, orRaise_eq_ok, require_eq_ok, ih,
        List.forall_mem_cons, IsVersionOf]
      constructor
      · rintro ⟨version, hget, -, hof, hrest⟩
        exact ⟨⟨version, hget, hof⟩, hrest⟩
      · rintro ⟨⟨version, hget, hof⟩, hrest⟩
        exact ⟨version, hget, (), hof, hrest⟩

theorem expectSnapshot_eq_ok {attemptId snapshotId : Text} {versionIds : List Text} {u : Unit} :
    expectSnapshot facts run target attemptId versionIds snapshotId = .ok u ↔
      ∃ snapshot, facts.snapshot snapshotId = some snapshot ∧
        (snapshot.workspaceId = run.workspaceId ∧ snapshot.isCommitted = true ∧
          facts.snapshotEvent run.runId attemptId snapshotId = true) ∧
        snapshot.members = versionIds := by
  simp only [expectSnapshot, bind_eq_ok, orRaise_eq_ok, require_eq_ok]
  constructor
  · rintro ⟨snapshot, hget, -, hidentity, hmembers⟩
    exact ⟨snapshot, hget, hidentity, hmembers⟩
  · rintro ⟨snapshot, hget, hidentity, hmembers⟩
    exact ⟨snapshot, hget, (), hidentity, hmembers⟩

/-- The event of a runtime result. -/
structure IsEventOf (facts : Facts) (run : RunView) (effect : EffectCommand)
    (result : RuntimeStageResult) (event : RunEvent) : Prop where
  found : facts.event result.runtimeEventId = some event
  runId : event.runId = run.runId
  attemptId : event.attemptId = some result.attemptId
  causationId : event.causationId = some effect.request.operationId
  type : "runtime.".toList.isPrefixOf event.type = true

theorem expectRuntimeResult_eq_ok {operationId : Text} {result : RuntimeStageResult} {u : Unit} :
    expectRuntimeResult facts run effect target operationId result = .ok u ↔
      (effect.request.body.stageEffect = .runtime ∧
        IsOfAttempt run effect target result.attemptId) ∧
      (∃ event, IsEventOf facts run effect result event) ∧
      operationId = effect.request.operationId ∧
      facts.inbox result.attemptId effect.request.operationId = true := by
  simp only [expectRuntimeResult, bind_eq_ok, orRaise_eq_ok, require_eq_ok]
  constructor
  · rintro ⟨-, hruntime, -, hattempt, event, hget, -, ⟨hrun, hof⟩, -, ⟨hcause, hoperation⟩, -,
      hinbox, htype⟩
    exact ⟨⟨hruntime, hattempt⟩, ⟨event, hget, hrun, hof, hcause, htype⟩, hoperation, hinbox⟩
  · rintro ⟨⟨hruntime, hattempt⟩, ⟨event, hget, hrun, hof, hcause, htype⟩, hoperation, hinbox⟩
    exact ⟨(), hruntime, (), hattempt, event, hget, (), ⟨hrun, hof⟩, (), ⟨hcause, hoperation⟩,
      (), hinbox, htype⟩

theorem expectArtifactResult_eq_ok {result : ArtifactWorkflowResult} {u : Unit} :
    expectArtifactResult facts run effect target result = .ok u ↔
      (effect.request.body.stageEffect = .artifact ∧
        IsOfAttempt run effect target result.attemptId) ∧
      effect.request.body.NamesMembers result.artifactVersionIds ∧
      (∀ id ∈ result.artifactVersionIds, IsVersionOf facts run result.attemptId id) ∧
      ∀ id ∈ result.snapshotId,
        expectSnapshot facts run target result.attemptId result.artifactVersionIds id = .ok u := by
  simp only [expectArtifactResult, bind_eq_ok, require_eq_ok, expectVersions_eq_ok]
  cases hsnapshot : result.snapshotId with
  | none => simp [and_assoc]
  | some id => simp [and_assoc]

theorem IsOfAttempt.mono {attemptId : Text} (h : IsOfAttempt run effect target attemptId)
    (hactive : target' = .stageCompleted → ∀ attemptId,
      effect.request.body.attemptId = some attemptId → run'.activeAttemptId = some attemptId) :
    IsOfAttempt run' effect target' attemptId :=
  ⟨h.1, fun htarget => hactive htarget attemptId h.1⟩

theorem IsVersionOf.mono {attemptId versionId : Text} (hfacts : facts.Keeps facts')
    (hrun : run'.runId = run.runId) (h : IsVersionOf facts run attemptId versionId) :
    IsVersionOf facts' run' attemptId versionId := by
  obtain ⟨version, hget, hversion, hattempt, hcommitted⟩ := h
  exact ⟨version, hfacts.version versionId version hget hcommitted, hversion.trans hrun.symm,
    hattempt, hcommitted⟩

theorem IsEventOf.mono {result : RuntimeStageResult} {event : RunEvent}
    (hfacts : facts.Keeps facts') (hrun : run'.runId = run.runId)
    (h : IsEventOf facts run effect result event) : IsEventOf facts' run' effect result event :=
  { h with
    found := hfacts.event _ _ h.found
    runId := h.runId.trans hrun.symm }

private theorem expectSnapshot_mono {attemptId snapshotId : Text} {versionIds : List Text}
    (hfacts : facts.Keeps facts') (hrun : run'.runId = run.runId)
    (hworkspace : run'.workspaceId = run.workspaceId)
    (h : expectSnapshot facts run target attemptId versionIds snapshotId = .ok ()) :
    expectSnapshot facts' run' target' attemptId versionIds snapshotId = .ok () := by
  obtain ⟨snapshot, hget, ⟨hof, hcommitted, hevent⟩, hmembers⟩ := expectSnapshot_eq_ok.1 h
  refine expectSnapshot_eq_ok.2
    ⟨snapshot, hfacts.snapshot snapshotId snapshot hget hcommitted,
      ⟨hof.trans hworkspace.symm, hcommitted, ?_⟩, hmembers⟩
  rw [hrun]
  exact hfacts.snapshotEvent _ _ _ hevent

/-- A result that has passed its check passes it again, as long as a stage is not asked about
the results of another attempt. -/
theorem expectEffectResult_mono {result : EffectResult} (hfacts : facts.Keeps facts')
    (hrun : run'.runId = run.runId) (hworkspace : run'.workspaceId = run.workspaceId)
    (hactive : target' = .stageCompleted → ∀ attemptId,
      effect.request.body.attemptId = some attemptId → run'.activeAttemptId = some attemptId)
    (h : expectEffectResult facts run effect target result = .ok ()) :
    expectEffectResult facts' run' effect target' result = .ok () := by
  unfold expectEffectResult at h ⊢
  cases hbody : result.body with
  | runtimeStage body =>
      rw [hbody] at h
      obtain ⟨⟨hruntime, hattempt⟩, ⟨event, hevent⟩, hoperation, hinbox⟩ :=
        expectRuntimeResult_eq_ok.1 h
      exact expectRuntimeResult_eq_ok.2
        ⟨⟨hruntime, hattempt.mono hactive⟩, ⟨event, hevent.mono hfacts hrun⟩, hoperation,
          hfacts.inbox _ _ hinbox⟩
  | artifactWorkflow body =>
      rw [hbody] at h
      obtain ⟨⟨hartifact, hattempt⟩, hmembers, hversions, hsnapshot⟩ :=
        expectArtifactResult_eq_ok.1 h
      exact expectArtifactResult_eq_ok.2
        ⟨⟨hartifact, hattempt.mono hactive⟩, hmembers,
          fun id hid => (hversions id hid).mono hfacts hrun,
          fun id hid => expectSnapshot_mono hfacts hrun hworkspace (hsnapshot id hid)⟩
  | sourceBinding => rfl
  | sourceImport => rfl
  | lineageQuery => rfl
  | successorCreation => rfl

end

end Cortex.Workflow
