import Cortex.Control.Receipts

/-!
# Artifacts, their versions and their materializations

A version of an artifact is requested together with one materialization action.
A worker claims the action, writes the bytes, and completes or fails it; a failed
action may be retried.  The head of an artifact is moved to a committed version,
fenced by its revision.

`World` keeps, besides the tables, the requests, the claims, the completions and
the head advances that were committed, so that a theorem can speak about them.
-/

namespace Cortex.Artifacts

open Control Time Transaction

/-- `ParentVersionInput`. -/
structure ParentInput where
  versionId : ℕ
  sha256 : Text
  deriving DecidableEq

structure ProducerIdentity where
  name : Text
  version : Text
  deriving DecidableEq

/-- `MaterializationRequest`; its operation is named after the version. -/
structure MaterializationRequest where
  operationId : ℕ
  rootId : Text
  relativePath : Text
  sha256 : Text
  byteLength : ℕ
  mediaType : Text
  parents : List ParentInput
  deriving DecidableEq

inductive RecoveredFrom
  | staged | dualLink | final
  deriving DecidableEq

structure MaterializedAsset where
  request : MaterializationRequest
  replayed : Bool
  recoveredFrom : Option RecoveredFrom
  deriving DecidableEq

structure Provenance where
  runId : ℕ
  attemptId : ℕ
  sourceIds : List Text
  researchEngineRefs : List Text
  generator : ProducerIdentity
  tool : ProducerIdentity
  parents : List ParentInput
  mediaType : Text
  byteLength : ℕ
  sha256 : Text
  committedAt : Stamp
  documentVersionIds : List Text
  researchContextSha256 : Option Text
  deriving DecidableEq

/-- A row of `artifacts`. -/
structure Artifact where
  id : ℕ
  workspaceId : ℕ
  threadId : ℕ
  kind : Text
  title : Text
  headVersionId : Option ℕ
  headRevision : ℕ
  createdAt : Stamp
  updatedAt : Stamp

inductive VersionState
  | pendingMaterialization | committed | failed
  deriving DecidableEq

def VersionState.text : VersionState → String
  | pendingMaterialization => "pending_materialization"
  | committed => "committed"
  | failed => "failed"

/-- A row of `artifact_versions` with its parents, sources and engine references. -/
structure Version where
  id : ℕ
  artifactId : ℕ
  logicalVersion : ℕ
  sha256 : Text
  byteLength : ℕ
  mediaType : Text
  runId : ℕ
  attemptId : ℕ
  generator : ProducerIdentity
  tool : ProducerIdentity
  parents : List ParentInput
  sourceIds : List Text
  researchEngineRefs : List Text
  state : VersionState
  provenance : Option Provenance
  createdAt : Stamp
  committedAt : Option Stamp
  deriving DecidableEq

inductive ActionState
  | pending | claimed | materialized | completed | failed
  deriving DecidableEq

def ActionState.text : ActionState → String
  | pending => "pending"
  | claimed => "claimed"
  | materialized => "materialized"
  | completed => "completed"
  | failed => "failed"

/-- A row of `artifact_materialization_actions`; `advance_head` is set when a head revision is
expected. -/
structure Action (Digest : Type) where
  id : ℕ
  operationId : ℕ
  versionId : ℕ
  requestHash : Digest
  rootId : Text
  relativePath : Text
  sha256 : Text
  byteLength : ℕ
  mediaType : Text
  expectedHeadRevision : Option ℕ
  headAdvanced : Option Bool
  observedHeadRevision : Option ℕ
  state : ActionState
  claimOwner : Option Text
  claimEpoch : ℕ
  claimExpiresAt : Option Stamp
  attemptCount : ℕ
  result : Option MaterializedAsset
  failureCategory : Option Text
  createdAt : Stamp
  completedAt : Option Stamp

structure SnapshotMember where
  artifactId : ℕ
  versionId : ℕ
  logicalVersion : ℕ
  sha256 : Text
  deriving DecidableEq

/-- A committed row of `artifact_snapshots` with its members. -/
structure Snapshot where
  id : ℕ
  workspaceId : ℕ
  name : Text
  members : List SnapshotMember
  createdAt : Stamp

instance : Keyed Artifact ℕ := ⟨Artifact.id⟩
instance : Keyed Version ℕ := ⟨Version.id⟩
instance {Digest : Type} : Keyed (Action Digest) ℕ := ⟨Action.id⟩
instance : Keyed Snapshot ℕ := ⟨Snapshot.id⟩

structure Tables (Digest : Type) where
  artifacts : Table Artifact
  versions : Table Version
  actions : Table (Action Digest)
  snapshots : Table Snapshot

/-- The arguments of `request_artifact_version`. -/
structure VersionRequest where
  artifactId : ℕ
  logicalVersion : ℤ
  runId : ℕ
  attemptId : ℕ
  sourceIds : List Text
  researchEngineRefs : List Text
  generator : ProducerIdentity
  tool : ProducerIdentity
  parents : List ParentInput
  rootId : Text
  relativePath : Text
  sha256 : Text
  byteLength : ℤ
  mediaType : Text
  advanceHead : Bool
  expectedHeadRevision : Option ℤ
  deriving DecidableEq

/-- A claim that was granted. -/
structure Claim where
  actionId : ℕ
  owner : Text
  epoch : ℕ

/-- A completion that committed a version. -/
structure Completion where
  versionId : ℕ
  claim : Claim

/-- A head that was moved, by somebody who expected this revision. -/
structure Advance where
  artifactId : ℕ
  versionId : ℕ
  expectedRevision : ℕ

/-- The tables, and what was committed to them, the latest first. -/
structure World (Digest : Type) where
  tables : Tables Digest
  requests : List (ℕ × VersionRequest)
  claims : List Claim
  completions : List Completion
  advances : List Advance

/-! ## What a command reads besides these tables -/

/-- What the artifacts need to know of a run; `isActive` is its state being one of
`_ARTIFACT_ACTIVE_RUN_STATES`. -/
structure RunRow where
  threadId : ℕ
  activeAttemptId : Option ℕ
  state : String
  isActive : Bool

structure AttemptRow where
  runId : ℕ
  state : String
  isActive : Bool

structure ThreadRow where
  workspaceId : ℕ
  activeRunId : Option ℕ

/-- The documents of the research context of a run, with the hash of the context. -/
structure Documents where
  versionIds : List Text
  contextSha256 : Text

/-- The clock, one reading after the other, fresh ids, and the other tables of the same
transaction; `sources` is `_validate_artifact_sources` and `documents` the check of the research
context of a run. -/
structure Readings where
  clock : ℕ → Civil
  newId : ℕ → ℕ
  run : ℕ → Option RunRow
  attempt : ℕ → Option AttemptRow
  thread : ℕ → Option ThreadRow
  isWorkspace : ℕ → Bool
  sources : ℕ → List Text → List Text → Except StoreError Unit
  documents : ℕ → Except StoreError Documents

/-- Unicode and hashing. -/
structure Platform (Digest : Type) where
  isNfc : Text → Bool
  /-- A category that starts with `C`. -/
  isOther : Char → Bool
  casefold : Text → Text
  materializationHash : MaterializationRequest → Digest

/-! ## Checks of the arguments -/

def isLowerHex (c : Char) : Bool := c.isDigit ∨ 'a' ≤ c ∧ c ≤ 'f'

/-- `_SHA256_RE`. -/
def isSha256 (value : Text) : Bool := value.length = 64 ∧ value.all isLowerHex = true

/-- `_ROOT_ID_RE`. -/
def isRootId (value : Text) : Bool :=
  match value with
  | [] => false
  | c :: rest =>
      c.isLower ∧ rest.length ≤ 62 ∧
        rest.all (fun c => c.isLower ∨ c.isDigit ∨ c = '-') = true

def isMediaChar (c : Char) : Bool :=
  c.isLower ∨ c.isDigit ∨ c ∈ ['!', '#', '$', '&', '^', '_', '.', '+', '-']

/-- `_MEDIA_TYPE_RE`. -/
def isMediaType (value : Text) : Bool :=
  match value.splitOn '/' with
  | [kind, subtype] =>
      kind ≠ [] ∧ subtype ≠ [] ∧ kind.all isMediaChar = true ∧ subtype.all isMediaChar = true
  | _ => false

/-- `_ARTIFACT_IDENTIFIER_RE`. -/
def isIdentifier (value : Text) : Bool :=
  match value with
  | [] => false
  | c :: rest =>
      (c.isLower ∨ c.isDigit) ∧ rest.length ≤ 127 ∧
        rest.all (fun c => c.isLower ∨ c.isDigit ∨ c ∈ ['.', '_', ':', '-']) = true

/-- `_VERSION_RE`. -/
def isProducerPart (value : Text) : Bool :=
  match value with
  | [] => false
  | c :: rest =>
      c.isAlphanum ∧ rest.length ≤ 127 ∧
        rest.all (fun c => c.isAlphanum ∨ c ∈ ['.', '_', '+', '-']) = true

/-- `_ARTIFACT_FAILURE_RE`. -/
def isFailureCategory (value : Text) : Bool :=
  match value with
  | [] => false
  | c :: rest =>
      c.isLower ∧ rest.length ≤ 99 ∧
        rest.all (fun c => c.isLower ∨ c.isDigit ∨ c ∈ ['_', '.', '-']) = true

def ProducerIdentity.isValid (p : ProducerIdentity) : Bool :=
  isIdentifier p.name ∧ isProducerPart p.version

/-- Unique identities in canonical order. -/
def isCanonical (values : List Text) : Bool := values.Pairwise (· < ·)

/-- `_artifact_identifiers`. -/
def artifactIdentifiers (values : List Text) (name : String) (allowEmpty : Bool) :
    Except StoreError Unit := do
  require (values.length ≤ 500 ∧ values.all isIdentifier = true)
    (.valueError (name ++ " is invalid"))
  require (allowEmpty ∨ values ≠ []) (.valueError (name ++ " must not be empty"))
  require (isCanonical values) (.valueError (name ++ " must use canonical order"))

/-- `_artifact_text`. -/
def artifactText (value : Text) (name : String) : Except StoreError Unit :=
  require (value ≠ [] ∧ value.length ≤ 2000 ∧ value.all (fun c => 32 ≤ c.toNat) = true)
    (.valueError (name ++ " is invalid"))

/-- `_artifact_parents`. -/
def parentsAreCanonical (parents : List ParentInput) : Bool :=
  parents.length ≤ 256 ∧ parents.all (fun p => isSha256 p.sha256) = true ∧
    (parents.map ParentInput.versionId).Pairwise (· < ·)

section Checks

variable {Digest : Type} (platform : Platform Digest)

/-- `_relative_segments`. -/
def isRelativePath (value : Text) : Bool :=
  let segments := value.splitOn '/'
  value ≠ [] ∧ value.length ≤ 2000 ∧ '\\' ∉ value ∧ platform.isNfc value ∧
    segments.all (fun segment =>
      segment ≠ [] ∧ segment ≠ ".".toList ∧ segment ≠ "..".toList ∧
        platform.isNfc segment ∧ segment.all (fun c => !platform.isOther c) = true) = true ∧
    platform.casefold (segments.headD []) ≠ platform.casefold ".cortex-artifacts-v1".toList

/-- `MaterializationRequest.from_dict`. -/
def MaterializationRequest.isValid (r : MaterializationRequest) : Bool :=
  isRootId r.rootId ∧ isRelativePath platform r.relativePath ∧ isSha256 r.sha256 ∧
    r.byteLength < 2 ^ 63 ∧ isMediaType r.mediaType ∧ parentsAreCanonical r.parents

end Checks

/-- `_claim_fence_is_current`. -/
def claimFenceIsCurrent {Digest : Type} (action : Action Digest) (workerId : Text)
    (claimEpoch : ℤ) (now : Stamp) : Bool :=
  action.claimOwner = some workerId ∧ (action.claimEpoch : ℤ) = claimEpoch ∧
    ∃ expiresAt ∈ action.claimExpiresAt, now < expiresAt

/-- `_validate_artifact_run_attempt`. -/
def validateRunAttempt (readings : Readings) (runId attemptId threadId : ℕ) :
    Except StoreError Unit := do
  let run ← orRaise (readings.run runId) (.notFound "run")
  let attempt ← orRaise (readings.attempt attemptId) (.notFound "attempt")
  let thread ← orRaise (readings.thread threadId) (.notFound "thread")
  require (run.threadId = threadId ∧ attempt.runId = runId)
    (.invalidTransition "run_attempt_ownership" "artifact_operation")
  require (run.activeAttemptId = some attemptId)
    (.invalidTransition "attempt_not_active" "artifact_operation")
  require (run.isActive = true) (.invalidTransition run.state "artifact_operation")
  require (attempt.isActive = true) (.invalidTransition attempt.state "artifact_operation")
  require (thread.activeRunId = some runId)
    (.invalidTransition "run_not_active" "artifact_operation")

end Cortex.Artifacts
