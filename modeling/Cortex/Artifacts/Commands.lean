import Cortex.Artifacts.Store
import Cortex.Library.History
import Mathlib.Data.Prod.Lex

/-!
# The commands on artifacts

Each command is the body of one transaction; `exec` answers it by its receipt or
runs it.  `fenceRun` and `fenceAttempt` are the parts of the run commands that
fail the open materializations of a run or of an attempt.
-/

namespace Cortex.Artifacts

open Control Time Transaction

variable {Digest : Type} [DecidableEq Digest] (platform : Platform Digest)

section Lookup

omit [DecidableEq Digest]

/-- `_artifact`. -/
def artifact (t : Tables Digest) (artifactId : ℕ) : Except StoreError Artifact :=
  orRaise (t.artifacts.get? artifactId) (.notFound "artifact")

/-- `_artifact_version`. -/
def artifactVersion (t : Tables Digest) (versionId : ℕ) : Except StoreError Version :=
  orRaise (t.versions.get? versionId) (.notFound "artifact version")

/-- `_artifact_materialization_action`. -/
def materializationAction (t : Tables Digest) (actionId : ℕ) : Except StoreError (Action Digest) :=
  orRaise (t.actions.get? actionId) (.notFound "artifact materialization")

end Lookup

section Request

omit [DecidableEq Digest]

/-- The body of `create_artifact`. -/
def createArtifact (w : World Digest) (readings : Readings)
    (workspaceId threadId runId attemptId : ℕ) (kind title : Text) :
    Except StoreError (World Digest × Artifact) := do
  let thread ← orRaise (readings.thread threadId) (.notFound "thread")
  require (thread.workspaceId = workspaceId)
    (.invalidTransition "thread_workspace_mismatch" "artifact_created")
  validateRunAttempt readings runId attemptId threadId
  let now := formatTime (readings.clock 0)
  let row : Artifact :=
    { id := readings.newId 0, workspaceId, threadId, kind, title
      headVersionId := none
      headRevision := 0
      createdAt := now
      updatedAt := now }
  let artifacts ← orRaise (w.tables.artifacts.insert? row) .integrityError
  pure ({ w with tables := { w.tables with artifacts } }, row)

/-- `_validate_artifact_parents`. -/
def validateParents (t : Tables Digest) (owner : Artifact) :
    List ParentInput → Except StoreError Unit
  | [] => pure ()
  | parent :: rest => do
      let version ← artifactVersion t parent.versionId
      let parentArtifact ← artifact t version.artifactId
      require (parentArtifact.workspaceId = owner.workspaceId ∧
          parentArtifact.threadId = owner.threadId)
        (.invalidTransition "parent_not_owned" "artifact_version")
      require (version.state = .committed)
        (.invalidTransition version.state.text "artifact_parent")
      require (version.sha256 = parent.sha256)
        (.invalidTransition "parent_hash_mismatch" "artifact_version")
      validateParents t owner rest

/-- `COALESCE(MAX(logical_version), 0) + 1` of an artifact. -/
def nextVersion (versions : Table Version) (artifactId : ℕ) : ℕ :=
  ((versions.rows.filter fun v => v.artifactId = artifactId).map
    Version.logicalVersion).foldr max 0 + 1

/-- The checks that `request_artifact_version` makes before its transaction. -/
def VersionRequest.check (r : VersionRequest) : Except StoreError Unit := do
  require (1 ≤ r.logicalVersion) (.valueError "logical_version must be a positive integer")
  artifactIdentifiers r.sourceIds "source_ids" true
  artifactIdentifiers r.researchEngineRefs "research_engine_refs" true
  require (parentsAreCanonical r.parents)
    (.valueError "parents must use unique canonical order")
  require (r.generator.isValid = true ∧ r.tool.isValid = true)
    (.valueError "producer identity is invalid")
  match r.advanceHead, r.expectedHeadRevision with
  | true, some expected =>
      require (0 ≤ expected) (.valueError "expected_head_revision must be a non-negative integer")
  | true, none => throw (.valueError "expected_head_revision must be a non-negative integer")
  | false, some _ => throw (.valueError "expected_head_revision requires advance_head")
  | false, none => pure ()
  require (0 ≤ r.byteLength)
    (.valueError "byte_length must be a bounded non-negative integer")

/-- What a worker is asked to write for a request. -/
def VersionRequest.materialization (r : VersionRequest) (operationId : ℕ) :
    MaterializationRequest where
  operationId
  rootId := r.rootId
  relativePath := r.relativePath
  sha256 := r.sha256
  byteLength := r.byteLength.toNat
  mediaType := r.mediaType
  parents := r.parents

/-- The body of `request_artifact_version`. -/
def requestVersion (w : World Digest) (readings : Readings) (request : VersionRequest) :
    Except StoreError (World Digest × Version × Action Digest) := do
  let owner ← artifact w.tables request.artifactId
  validateRunAttempt readings request.runId request.attemptId owner.threadId
  require (request.expectedHeadRevision.all (fun e => (owner.headRevision : ℤ) = e))
    .revisionConflict
  let next := nextVersion w.tables.versions request.artifactId
  require (request.logicalVersion = next)
    (.invalidTransition s!"logical_version_{next}" s!"logical_version_{request.logicalVersion}")
  readings.sources request.runId request.sourceIds request.researchEngineRefs
  validateParents w.tables owner request.parents
  let versionId := readings.newId 0
  let materialization := request.materialization versionId
  let now := formatTime (readings.clock 0)
  let version : Version :=
    { id := versionId
      artifactId := request.artifactId
      logicalVersion := next
      sha256 := request.sha256
      byteLength := request.byteLength.toNat
      mediaType := request.mediaType
      runId := request.runId
      attemptId := request.attemptId
      generator := request.generator
      tool := request.tool
      parents := request.parents
      sourceIds := request.sourceIds
      researchEngineRefs := request.researchEngineRefs
      state := .pendingMaterialization
      provenance := none
      createdAt := now
      committedAt := none }
  let versions ← orRaise (w.tables.versions.insert? version) .integrityError
  let action : Action Digest :=
    { id := readings.newId 1
      operationId := versionId
      versionId
      requestHash := platform.materializationHash materialization
      rootId := request.rootId
      relativePath := request.relativePath
      sha256 := request.sha256
      byteLength := request.byteLength.toNat
      mediaType := request.mediaType
      expectedHeadRevision := request.expectedHeadRevision.map Int.toNat
      headAdvanced := none
      observedHeadRevision := none
      state := .pending
      claimOwner := none
      claimEpoch := 0
      claimExpiresAt := none
      attemptCount := 0
      result := none
      failureCategory := none
      createdAt := now
      completedAt := none }
  let actions ← orRaise (w.tables.actions.insert? action) .integrityError
  pure ({ w with
      tables := { w.tables with versions, actions }
      requests := (versionId, request) :: w.requests }, version, action)

end Request

/-! ## Materialization -/

section Materialize

omit [DecidableEq Digest]

/-- The body of `claim_artifact_materialization`. -/
def claimMaterialization (w : World Digest) (readings : Readings) (actionId : ℕ)
    (workerId : Text) (leaseSeconds : ℕ) : Except StoreError (World Digest × Action Digest) := do
  let action ← materializationAction w.tables actionId
  let version ← artifactVersion w.tables action.versionId
  let owner ← artifact w.tables version.artifactId
  validateRunAttempt readings version.runId version.attemptId owner.threadId
  let now := formatTime (readings.clock 0)
  require (¬(action.state = .claimed ∧ now < action.claimExpiresAt.getD []))
    (.invalidTransition "claimed" "claimed")
  require (action.state = .pending ∨ action.state = .claimed)
    (.invalidTransition action.state.text "claimed")
  require (version.state = .pendingMaterialization)
    (.invalidTransition version.state.text "claimed")
  let expiresAt ← orRaise ((readings.clock 0).addSeconds leaseSeconds) .overflowError
  let actions ← orRaise
    (w.tables.actions.updateRow? actionId
      (fun a => a.state = .pending ∨
        a.state = .claimed ∧ ∃ expiresAt ∈ a.claimExpiresAt, expiresAt ≤ now)
      fun a => { a with
        state := .claimed
        claimOwner := some workerId
        claimEpoch := a.claimEpoch + 1
        claimExpiresAt := some (formatTime expiresAt)
        attemptCount := a.attemptCount + 1
        failureCategory := none
        completedAt := none })
    (.invalidTransition action.state.text "claimed")
  let row ← orRaise (actions.get? actionId) (.notFound "artifact materialization")
  pure ({ w with
      tables := { w.tables with actions }
      claims := ⟨actionId, workerId, row.claimEpoch⟩ :: w.claims }, row)

/-- `UPDATE artifacts SET head_artifact_version_id = ? … WHERE id = ? AND head_revision = ?`; a
trigger refuses the version that is the head already. -/
def writeHead (w : World Digest) (artifactId versionId expectedRevision : ℕ) (now : Stamp) :
    Except StoreError (Option (World Digest)) :=
  match w.tables.artifacts.updateRow? artifactId (fun a => a.headRevision = expectedRevision)
      fun a => { a with
        headVersionId := some versionId
        headRevision := a.headRevision + 1
        updatedAt := now } with
  | none => pure none
  | some artifacts => do
      require (∀ a ∈ w.tables.artifacts.rows, a.id = artifactId → a.headVersionId ≠ some versionId)
        .integrityError
      pure (some { w with
        tables := { w.tables with artifacts }
        advances := ⟨artifactId, versionId, expectedRevision⟩ :: w.advances })

/-- The head is moved where the action asks for it and its revision is the expected one. -/
def writeRequestedHead (w : World Digest) (owner : Artifact) (versionId : ℕ)
    (expectedRevision : Option ℕ) (now : Stamp) :
    Except StoreError (World Digest × Bool × Option ℕ) :=
  match expectedRevision with
  | none => pure (w, false, none)
  | some expected => do
      match ← writeHead w owner.id versionId expected now with
      | some moved => pure (moved, true, some (expected + 1))
      | none => pure (w, false, some owner.headRevision)

end Materialize

/-- The request that an action and its version stand for. -/
def Action.request (action : Action Digest) (version : Version) : MaterializationRequest where
  operationId := action.operationId
  rootId := action.rootId
  relativePath := action.relativePath
  sha256 := action.sha256
  byteLength := action.byteLength
  mediaType := action.mediaType
  parents := version.parents

/-- The body of `complete_artifact_materialization`. -/
def completeMaterialization (w : World Digest) (readings : Readings) (actionId : ℕ)
    (workerId : Text) (claimEpoch : ℤ) (result : MaterializedAsset) :
    Except StoreError (World Digest × Version × Action Digest) := do
  let action ← materializationAction w.tables actionId
  let version ← artifactVersion w.tables action.versionId
  if action.state = .completed then
    require (action.result = some result ∧ version.state = .committed)
      (.invalidTransition "completed" "conflicting_completion")
    pure (w, version, action)
  else
    require (claimFenceIsCurrent action workerId claimEpoch (formatTime (readings.clock 0)))
      (.invalidTransition "stale_claim" "completed")
    let owner ← artifact w.tables version.artifactId
    validateRunAttempt readings version.runId version.attemptId owner.threadId
    let expected := action.request version
    require (expected.isValid platform) (.valueError "materialization request is invalid")
    let documents ← readings.documents version.runId
    require (version.sourceIds ≠ [] ∨ documents.versionIds ≠ [])
      (.invalidTransition "research_source_not_ready" "artifact_version")
    require (action.requestHash = platform.materializationHash expected ∧
        result.request = expected)
      (.invalidTransition "materialized_result_mismatch" "committed")
    let now := formatTime (readings.clock 1)
    let provenance : Provenance :=
      { runId := version.runId
        attemptId := version.attemptId
        sourceIds := version.sourceIds
        researchEngineRefs := version.researchEngineRefs
        generator := version.generator
        tool := version.tool
        parents := version.parents
        mediaType := version.mediaType
        byteLength := version.byteLength
        sha256 := version.sha256
        committedAt := now
        documentVersionIds := documents.versionIds
        researchContextSha256 :=
          if documents.versionIds = [] then none else some documents.contextSha256 }
    let materialized ← orRaise
      (w.tables.actions.updateRow? actionId
        (fun a => a.state = .claimed ∧ a.claimOwner = some workerId ∧ (a.claimEpoch : ℤ) = claimEpoch)
        fun a => { a with
          state := .materialized
          result := some result
          failureCategory := none })
      (.invalidTransition "stale_claim" "completed")
    let versions ← orRaise
      (w.tables.versions.updateRow? version.id (fun v => v.state = .pendingMaterialization)
        fun v => { v with
          state := .committed
          provenance := some provenance
          committedAt := some now })
      (.invalidTransition version.state.text "committed")
    let w' := { w with tables := { w.tables with actions := materialized, versions } }
    let (w', headAdvanced, observed) ←
      writeRequestedHead w' owner version.id action.expectedHeadRevision now
    let actions ← orRaise
      (w'.tables.actions.updateRow? actionId
        (fun a => a.state = .materialized ∧ a.claimOwner = some workerId ∧
          (a.claimEpoch : ℤ) = claimEpoch)
        fun a => { a with
          state := .completed
          claimOwner := none
          claimExpiresAt := none
          completedAt := some now
          headAdvanced := some headAdvanced
          observedHeadRevision := observed })
      (.invalidTransition "stale_claim" "completed")
    let row ← orRaise (actions.get? actionId) (.notFound "artifact materialization")
    let committed ← orRaise (versions.get? version.id) (.notFound "artifact version")
    pure ({ w' with
        tables := { w'.tables with actions }
        completions := ⟨version.id, actionId, workerId, action.claimEpoch⟩ :: w'.completions },
      committed, row)

section Fail

omit [DecidableEq Digest]

/-- The body of `fail_artifact_materialization`. -/
def failMaterialization (w : World Digest) (readings : Readings) (actionId : ℕ)
    (workerId : Text) (claimEpoch : ℤ) (failureCategory : Text) :
    Except StoreError (World Digest × Action Digest) := do
  let action ← materializationAction w.tables actionId
  require (claimFenceIsCurrent action workerId claimEpoch (formatTime (readings.clock 0)))
    (.invalidTransition "stale_claim" "failed")
  let now := formatTime (readings.clock 1)
  let actions := w.tables.actions.update
    (fun a => a.id = actionId ∧ a.state = .claimed ∧ a.claimOwner = some workerId ∧
      (a.claimEpoch : ℤ) = claimEpoch)
    fun a => { a with
      state := .failed
      claimOwner := none
      claimExpiresAt := none
      failureCategory := some failureCategory
      completedAt := some now }
  let versions := w.tables.versions.update
    (fun v => v.id = action.versionId ∧ v.state = .pendingMaterialization)
    fun v => { v with state := .failed }
  let row ← orRaise (actions.get? actionId) (.notFound "artifact materialization")
  pure ({ w with tables := { w.tables with actions, versions } }, row)

/-- The body of `retry_artifact_materialization`. -/
def retryMaterialization (w : World Digest) (readings : Readings) (actionId : ℕ) :
    Except StoreError (World Digest × Action Digest) := do
  let action ← materializationAction w.tables actionId
  require (action.state = .failed) (.invalidTransition action.state.text "pending")
  let version ← artifactVersion w.tables action.versionId
  let owner ← artifact w.tables version.artifactId
  validateRunAttempt readings version.runId version.attemptId owner.threadId
  let actions := w.tables.actions.update
    (fun a => a.id = actionId ∧ a.state = .failed)
    fun a => { a with state := .pending, failureCategory := none, completedAt := none }
  let versions := w.tables.versions.update
    (fun v => v.id = version.id ∧ v.state = .failed)
    fun v => { v with state := .pendingMaterialization }
  let row ← orRaise (actions.get? actionId) (.notFound "artifact materialization")
  pure ({ w with tables := { w.tables with actions, versions } }, row)

/-- The body of `advance_artifact_head`. -/
def advanceHead (w : World Digest) (readings : Readings) (artifactId versionId : ℕ)
    (expectedHeadRevision : ℕ) (runId attemptId : ℕ) :
    Except StoreError (World Digest × Artifact) := do
  let owner ← artifact w.tables artifactId
  validateRunAttempt readings runId attemptId owner.threadId
  let version ← artifactVersion w.tables versionId
  require (version.artifactId = artifactId ∧ version.state = .committed)
    (.invalidTransition version.state.text "artifact_head")
  match ← writeHead w artifactId versionId expectedHeadRevision (formatTime (readings.clock 0)) with
  | none => throw .revisionConflict
  | some w => do
      let current ← artifact w.tables artifactId
      pure (w, current)

/-! ## Snapshots -/

/-- The members of a snapshot, in the order of the arguments. -/
def snapshotMembers (t : Tables Digest) (workspaceId : ℕ) :
    List ℕ → Except StoreError (List SnapshotMember)
  | [] => pure []
  | versionId :: rest => do
      let version ← artifactVersion t versionId
      let owner ← artifact t version.artifactId
      require (owner.workspaceId = workspaceId)
        (.invalidTransition "artifact_workspace_mismatch" "snapshot_member")
      require (version.state = .committed)
        (.invalidTransition version.state.text "snapshot_member")
      let members ← snapshotMembers t workspaceId rest
      pure (⟨owner.id, version.id, version.logicalVersion, version.sha256⟩ :: members)

/-- The body of `create_artifact_snapshot`. -/
def createSnapshot (w : World Digest) (readings : Readings) (workspaceId runId attemptId : ℕ)
    (name : Text) (versionIds : List ℕ) : Except StoreError (World Digest × Snapshot) := do
  require (readings.isWorkspace workspaceId = true) (.notFound "workspace")
  let run ← orRaise (readings.run runId) (.notFound "run")
  let thread ← orRaise (readings.thread run.threadId) (.notFound "thread")
  require (thread.workspaceId = workspaceId)
    (.invalidTransition "run_workspace_mismatch" "snapshot_created")
  validateRunAttempt readings runId attemptId run.threadId
  let members ← snapshotMembers w.tables workspaceId versionIds
  let members := members.mergeSort fun a b => toLex (a.artifactId, a.versionId) ≤
    toLex (b.artifactId, b.versionId)
  -- The primary key of the members is the snapshot and the artifact.
  require (members.map SnapshotMember.artifactId).Nodup .integrityError
  let row : Snapshot :=
    { id := readings.newId 0, workspaceId, name, members
      createdAt := formatTime (readings.clock 0) }
  let snapshots ← orRaise (w.tables.snapshots.insert? row) .integrityError
  pure ({ w with tables := { w.tables with snapshots } }, row)

/-! ## The end of a run -/

/-- `_fence_artifact_materializations_for_run` and `…_for_attempt`: the open materializations of
the selected versions fail. -/
def fenceMaterializations (w : World Digest) (category : String) (selected : Version → Bool)
    (settledAt : Stamp) : World Digest :=
  let fenced (v : Version) := selected v = true ∧ v.state = .pendingMaterialization ∧
    ∃ a ∈ w.tables.actions.rows, a.versionId = v.id ∧ (a.state = .pending ∨ a.state = .claimed)
  let actions := w.tables.actions.update
    (fun a => (∃ v ∈ w.tables.versions.rows, v.id = a.versionId ∧ selected v = true ∧
      v.state = .pendingMaterialization) ∧ (a.state = .pending ∨ a.state = .claimed))
    fun a => { a with
      state := .failed
      claimOwner := none
      claimExpiresAt := none
      claimEpoch := a.claimEpoch + 1
      failureCategory := some category.toList
      completedAt := some settledAt }
  let versions := w.tables.versions.update fenced fun v => { v with state := .failed }
  { w with tables := { w.tables with actions, versions } }

def fenceRun (w : World Digest) (runId : ℕ) (settledAt : Stamp) : World Digest :=
  fenceMaterializations w "run_terminated" (fun v => v.runId = runId) settledAt

def fenceAttempt (w : World Digest) (runId attemptId : ℕ) (settledAt : Stamp) : World Digest :=
  fenceMaterializations w "attempt_superseded" (fun v => v.runId = runId ∧ v.attemptId = attemptId)
    settledAt

end Fail

/-! ## Commands with their receipts -/

/-- The command a receipt is filed under. -/
inductive Operation
  | createArtifact
  | requestVersion (artifactId : ℕ)
  | claim (actionId : ℕ)
  | complete (actionId : ℕ)
  | fail (actionId : ℕ)
  | retry (actionId : ℕ)
  | advanceHead (artifactId : ℕ)
  | createSnapshot
  deriving DecidableEq

/-- The request whose hash a receipt keeps. -/
inductive Request
  | createArtifact (workspaceId threadId runId attemptId : ℕ) (kind title : Text)
  | requestVersion (request : VersionRequest)
  | claim (workerId : Text) (leaseSeconds : ℤ)
  | complete (workerId : Text) (claimEpoch : ℤ) (result : MaterializedAsset)
  | fail (workerId : Text) (claimEpoch : ℤ) (failureCategory : Text)
  | retry
  | advanceHead (versionId : ℕ) (expectedHeadRevision : ℤ) (runId attemptId : ℕ)
  | createSnapshot (workspaceId runId attemptId : ℕ) (name : Text) (versionIds : List ℕ)
  deriving DecidableEq

inductive Response (Digest : Type)
  | artifact (artifact : Artifact)
  | version (version : Version) (action : Action Digest)
  | action (action : Action Digest)
  | snapshot (snapshot : Snapshot)

inductive Call
  | createArtifact (workspaceId threadId runId attemptId : ℕ) (kind title : Text)
  | requestVersion (request : VersionRequest)
  | claim (actionId : ℕ) (workerId : Text) (leaseSeconds : ℤ)
  | complete (actionId : ℕ) (workerId : Text) (claimEpoch : ℤ) (result : MaterializedAsset)
  | fail (actionId : ℕ) (workerId : Text) (claimEpoch : ℤ) (failureCategory : Text)
  | retry (actionId : ℕ)
  | advanceHead (artifactId versionId : ℕ) (expectedHeadRevision : ℤ) (runId attemptId : ℕ)
  | createSnapshot (workspaceId runId attemptId : ℕ) (name : Text) (versionIds : List ℕ)

abbrev Store (Digest : Type) := Receipted (World Digest) Operation Digest (Response Digest)

/-- A command with its caller, or the fencing that a run command does. -/
inductive Event
  | command (call : Call) (caller : Caller) (readings : Readings)
  | fenceRun (runId : ℕ) (settledAt : Stamp)
  | fenceAttempt (runId attemptId : ℕ) (settledAt : Stamp)

variable (requestHash : Request → Digest)

/-- One command: its checks, and then its receipt or its body. -/
def execCall (s : Store Digest) (call : Call) (caller : Caller) (readings : Readings) :
    Except StoreError (Store Digest × CommandResult (Response Digest)) :=
  match call with
  | .createArtifact workspaceId threadId runId attemptId kind title => do
      require (isIdentifier kind = true) (.valueError "kind is invalid")
      artifactText title "title"
      command requestHash s caller .createArtifact
        (.createArtifact workspaceId threadId runId attemptId kind title) 201 (readings.clock 2) do
          let (w, row) ←
            createArtifact s.tables readings workspaceId threadId runId attemptId kind title
          pure (w, .artifact row)
  | .requestVersion request => do
      request.check
      require ((request.materialization 0).isValid platform)
        (.valueError "materialization request is invalid")
      command requestHash s caller (.requestVersion request.artifactId) (.requestVersion request)
        202 (readings.clock 2) do
          let (w, version, action) ← requestVersion platform s.tables readings request
          pure (w, .version version action)
  | .claim actionId workerId leaseSeconds => do
      let workerId ← requiredText workerId "worker_id" 200
      require (1 ≤ leaseSeconds ∧ leaseSeconds ≤ 3600)
        (.valueError "lease_seconds must be between 1 and 3600")
      command requestHash s caller (.claim actionId) (.claim workerId leaseSeconds) 200
        (readings.clock 2) do
          let (w, action) ←
            claimMaterialization s.tables readings actionId workerId leaseSeconds.toNat
          pure (w, .action action)
  | .complete actionId workerId claimEpoch result => do
      let workerId ← requiredText workerId "worker_id" 200
      require (result.request.isValid platform) (.valueError "materialized_result is invalid")
      command requestHash s caller (.complete actionId) (.complete workerId claimEpoch result) 200
        (readings.clock 2) do
          let (w, version, action) ← completeMaterialization platform s.tables readings actionId
            workerId claimEpoch result
          pure (w, .version version action)
  | .fail actionId workerId claimEpoch failureCategory => do
      let workerId ← requiredText workerId "worker_id" 200
      require (isFailureCategory failureCategory = true)
        (.valueError "failure_category is invalid")
      command requestHash s caller (.fail actionId) (.fail workerId claimEpoch failureCategory) 200
        (readings.clock 2) do
          let (w, action) ← failMaterialization s.tables readings actionId workerId claimEpoch
            failureCategory
          pure (w, .action action)
  | .retry actionId =>
      command requestHash s caller (.retry actionId) .retry 200 (readings.clock 2) do
        let (w, action) ← retryMaterialization s.tables readings actionId
        pure (w, .action action)
  | .advanceHead artifactId versionId expectedHeadRevision runId attemptId => do
      require (0 ≤ expectedHeadRevision)
        (.valueError "expected_head_revision must be a non-negative integer")
      command requestHash s caller (.advanceHead artifactId)
        (.advanceHead versionId expectedHeadRevision runId attemptId) 200 (readings.clock 2) do
          let (w, row) ← advanceHead s.tables readings artifactId versionId
            expectedHeadRevision.toNat runId attemptId
          pure (w, .artifact row)
  | .createSnapshot workspaceId runId attemptId name versionIds => do
      artifactText name "name"
      require (versionIds ≠ [] ∧ versionIds.length ≤ 500 ∧ versionIds.Pairwise (· < ·))
        (.valueError "artifact_version_ids is invalid")
      command requestHash s caller .createSnapshot
        (.createSnapshot workspaceId runId attemptId name versionIds) 201 (readings.clock 2) do
          let (w, row) ←
            createSnapshot s.tables readings workspaceId runId attemptId name versionIds
          pure (w, .snapshot row)

/-- One event, with the reply of a command. -/
def exec (s : Store Digest) :
    Event → Except StoreError (Store Digest × Option (CommandResult (Response Digest)))
  | .command call caller readings => do
      let (s, result) ← execCall platform requestHash s call caller readings
      pure (s, some result)
  | .fenceRun runId settledAt =>
      pure ({ s with tables := fenceRun s.tables runId settledAt }, none)
  | .fenceAttempt runId attemptId settledAt =>
      pure ({ s with tables := fenceAttempt s.tables runId attemptId settledAt }, none)

/-- A committed event. -/
abbrev Step : Store Digest → Event × Option (CommandResult (Response Digest)) → Store Digest →
    Prop :=
  Commits (exec platform requestHash)

end Cortex.Artifacts
