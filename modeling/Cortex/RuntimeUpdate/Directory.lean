import Cortex.Control.Errors
import Cortex.Library.Crash
import Cortex.Library.Dict
import Mathlib.Data.Char
import Mathlib.Data.List.Lex
import Mathlib.Data.List.Sort

/-!
# The runtime-update directory

`RuntimeUpdateService` keeps slots (extracted artifacts, named by the digest of
the artifact), state generations, a registry of releases, two pointers, the
activation journal and one pin for each running attempt.  The registry is keyed
by release id and says nothing about the pointers; a pointer names its release,
its slot and its generation.

Digests are SHA-256 texts.  `Platform` stands for the hash function and for the
content of archives, `Readings` for what a call is told by the world outside the
directory: signatures, the host, the operator's approvals and the probes.
-/

namespace Cortex.RuntimeUpdate

open Control Transaction

abbrev ReleaseId := Text

abbrev Digest := Text

abbrev GenerationId := Text

/-- What the service raises. -/
inductive RuntimeUpdateError
  | verification (message : String)
  | catalogReplay (message : String)
  | activation (message : String)
  | approval (code : String)
  /-- A probe raised an exception of its own. -/
  | probe
  | copyState
  deriving DecidableEq

/-- `_safe_name`. -/
def safeName (value : Text) (label : String) : Except RuntimeUpdateError Unit :=
  require (value ≠ [] ∧ value ≠ ".".toList ∧ value ≠ "..".toList ∧
      value.all fun c => c != '/' && c != '\\' && c.toNat != 0)
    (.activation ("unsafe " ++ label))

/-! ## What a release brings -/

/-- A release manifest.  `rest` is the canonical text of the fields that only the digest
and the checks of the host read. -/
structure Manifest where
  releaseId : ReleaseId
  releaseSequence : ℕ
  artifactSha256 : Digest
  upstreamRepository : Text
  upstreamTag : Text
  upstreamCommit : Text
  publisher : Text
  workflow : Text
  adapterProtocol : Text
  patchSetSha256 : Digest
  /-- `worker_runtime.archive_sha256`. -/
  runtimeArchive : Digest
  rest : Text
  deriving DecidableEq

inductive CatalogStatus
  | certified
  | quarantined
  | revoked
  deriving DecidableEq

structure CatalogEntry where
  releaseId : ReleaseId
  manifestSha256 : Digest
  status : CatalogStatus
  deriving DecidableEq

structure Catalog where
  sequence : ℤ
  entries : List CatalogEntry

structure Attestation where
  artifactSha256 : Digest
  repository : Text
  tag : Text
  commit : Text
  publisher : Text
  workflow : Text
  deriving DecidableEq

structure PatchLedger where
  releaseId : ReleaseId
  upstreamCommit : Text
  digest : Digest

/-- The arguments of `import_release`, with the digest that its artifact has. -/
structure ReleaseImport where
  catalog : Catalog
  manifest : Manifest
  attestation : Attestation
  ledger : PatchLedger
  artifactSha256 : Digest

/-- The hash function, and the tree digest of an archive's content. -/
structure Platform where
  manifestDigest : Manifest → Digest
  catalogDigest : Catalog → Digest
  contentTree : Digest → Digest

/-- The answers of a probe. -/
inductive Health
  | healthy
  | unhealthy
  | raises
  deriving DecidableEq

/-- What a call is told from outside the directory. -/
structure Readings where
  /-- The catalog's signature verifies and the time is within its window. -/
  catalogVerified : Bool
  attestationVerified : Bool
  supported : Manifest → Bool
  /-- The archive extracts, and its worker entrypoint is there. -/
  extracted : Bool
  /-- The refusal of `_verify_worker_modules`. -/
  moduleRefusal : Manifest → Option String
  /-- The refusal of the operator's approval gate. -/
  approvalRefusal : ReleaseId → Digest → Option String
  newGeneration : GenerationId
  stateCopied : Bool
  /-- The staged interpreter still passes the stager's checks. -/
  interpreterVerified : Bool
  /-- The manifest's interpreter path stays within its root. -/
  interpreterContained : Bool
  archivePresent : Bool
  interpreterExpanded : Bool
  interpreterMeasured : Bool
  /-- The answer of the `n`-th probe of the call. -/
  probe : ℕ → Health

/-! ## The directory -/

/-- `slots/<artifact_sha256>`: the manifest and the sealed content, put in place together. -/
structure Slot where
  manifest : Manifest
  contentTree : Digest

def Slot.digest (slot : Slot) : Digest :=
  slot.manifest.artifactSha256

/-- `slot.json`. -/
structure SlotMetadata where
  artifactSha256 : Digest
  manifestSha256 : Digest
  contentTreeSha256 : Digest
  deriving DecidableEq

inductive Status
  | verified
  | staged
  | certified
  | active
  | lastKnownGood
  | quarantined
  deriving DecidableEq

/-- The registry's record of a release. -/
structure Record where
  releaseId : ReleaseId
  status : Status
  releaseSequence : ℕ
  slotDigest : Digest
  manifestDigest : Digest
  contentTreeDigest : Digest
  candidateGeneration : Option GenerationId

abbrev Registry := Dict Record.releaseId

/-- `record["status"] = status`, for a release that has a record. -/
def Registry.mark (registry : Registry) (releaseId : ReleaseId) (status : Status) : Registry :=
  match registry.get? releaseId with
  | some record => registry.set { record with status }
  | none => registry

/-- A pointer, and the candidate that its fields describe. -/
structure Pointer where
  releaseId : ReleaseId
  releaseSequence : ℕ
  slotDigest : Digest
  generationId : GenerationId
  deriving DecidableEq

structure Manager where
  frozen : Bool
  catalogSequence : ℤ
  catalogDigest : Option Digest

inductive Phase
  | prepared
  | activePointerSwitched

/-- `activation.journal.json`. -/
structure Journal where
  phase : Phase
  oldActive : Option Pointer
  candidate : Pointer

structure AttemptPin where
  attemptId : Text
  releaseId : ReleaseId
  slotDigest : Digest
  generationId : GenerationId
  slotId : Digest
  artifactDigest : Digest
  workerProtocol : Text
  deriving DecidableEq

structure Directory where
  slots : Dict Slot.digest
  generations : List (ReleaseId × GenerationId)
  registry : Registry
  manager : Manager
  active : Option Pointer
  lastKnownGood : Option Pointer
  journal : Option Journal
  attempts : Dict AttemptPin.attemptId
  /-- The archives that have an interpreter root, and those that have a pin. -/
  interpreters : List Digest
  interpreterPins : List Digest

def Directory.initial : Directory where
  slots := .empty
  generations := []
  registry := .empty
  manager := ⟨false, -1, none⟩
  active := none
  lastKnownGood := none
  journal := none
  attempts := .empty
  interpreters := []
  interpreterPins := []

/-! ## Checks that write nothing -/

section Checks

variable (P : Platform) (d : Directory) (readings : Readings)

def Slot.metadata (slot : Slot) : SlotMetadata where
  artifactSha256 := slot.manifest.artifactSha256
  manifestSha256 := P.manifestDigest slot.manifest
  contentTreeSha256 := slot.contentTree

/-- The one entry of a catalog for a release. -/
def theEntry (catalog : Catalog) (releaseId : ReleaseId) : Option CatalogEntry :=
  match catalog.entries.filter fun e => e.releaseId = releaseId with
  | [entry] => some entry
  | _ => none

/-- The checks of `import_release` before it takes the lock. -/
def checkImport (request : ReleaseImport) : Except RuntimeUpdateError Unit := do
  let release := request.manifest
  require readings.catalogVerified (.verification "catalog is outside its validity window")
  let entry ← orRaise (theEntry request.catalog release.releaseId)
    (.verification "release is not certified by the catalog")
  require (entry.status = .certified) (.verification "release is not certified by the catalog")
  require (entry.manifestSha256 = P.manifestDigest release)
    (.verification "manifest hash does not match catalog")
  require readings.attestationVerified (.verification "provenance schema is invalid")
  require (request.attestation =
      { artifactSha256 := release.artifactSha256, repository := release.upstreamRepository,
        tag := release.upstreamTag, commit := release.upstreamCommit,
        publisher := release.publisher, workflow := release.workflow })
    (.verification "provenance identity does not match manifest")
  require (readings.supported release)
    (.verification "release platform is not supported by this host")
  require (request.ledger.releaseId = release.releaseId ∧
      request.ledger.upstreamCommit = release.upstreamCommit ∧
      request.ledger.digest = release.patchSetSha256)
    (.verification "patch ledger does not match manifest")
  require (request.artifactSha256 = release.artifactSha256)
    (.verification "artifact hash does not match manifest")

/-- `_candidate`. -/
def candidateOf (registry : Registry) (releaseId : ReleaseId) :
    Except RuntimeUpdateError Pointer := do
  let record ← orRaise (registry.get? releaseId) (.activation "release is not imported")
  let generation ← orRaise record.candidateGeneration (.activation "release is not staged")
  pure ⟨releaseId, record.releaseSequence, record.slotDigest, generation⟩

/-- `_contained` of the interpreter's path. -/
def interpreterContained : Except RuntimeUpdateError Unit :=
  require readings.interpreterContained (.activation "interpreter resolves outside its root")

/-- `_verify_interpreter_root`; a pin carries the digest of the archive that names it. -/
def verifyInterpreterRoot (manifest : Manifest) : Except RuntimeUpdateError Unit := do
  require (manifest.runtimeArchive ∈ d.interpreterPins ∧ manifest.runtimeArchive ∈ d.interpreters)
    (.activation "candidate interpreter is not staged")
  interpreterContained readings

/-- `_verify_candidate`. -/
def verifyCandidate (candidate : Pointer) (registry : Registry) (requireInterpreter : Bool) :
    Except RuntimeUpdateError Manifest := do
  let record ← orRaise (registry.get? candidate.releaseId)
    (.activation "candidate registry record is missing")
  let slot ← orRaise (d.slots.get? candidate.slotDigest)
    (.activation "candidate slot metadata verification failed")
  require (slot.metadata P =
      ⟨candidate.slotDigest, record.manifestDigest, record.contentTreeDigest⟩)
    (.activation "candidate slot metadata verification failed")
  require (slot.contentTree = record.contentTreeDigest)
    (.activation "candidate slot content verification failed")
  require (readings.supported slot.manifest)
    (.activation "candidate platform is not supported by this host")
  match readings.moduleRefusal slot.manifest with
  | some message => throw (.activation message)
  | none => do
      if requireInterpreter then verifyInterpreterRoot d readings slot.manifest
      pure slot.manifest

/-- `require_release_approval`. -/
def releaseApproval (releaseId : ReleaseId) (manifestDigest : Digest) :
    Except RuntimeUpdateError Unit :=
  match readings.approvalRefusal releaseId manifestDigest with
  | some code => .error (.approval code)
  | none => .ok ()

/-- `_require_approval`. -/
def requireApproval (candidate : Pointer) (registry : Registry) :
    Except RuntimeUpdateError Unit := do
  let record ← orRaise (registry.get? candidate.releaseId)
    (.activation "candidate manifest digest is unavailable")
  releaseApproval readings candidate.releaseId record.manifestDigest

/-- `_attempt_pin_from_identity`. -/
def attemptPinFromIdentity (attemptId : Text) (releaseId : ReleaseId) (slotDigest : Digest)
    (generationId : GenerationId) : Except RuntimeUpdateError AttemptPin := do
  require (releaseId ≠ [] ∧ slotDigest ≠ [] ∧ generationId ≠ [])
    (.activation "attempt pin identity is invalid")
  let slot ← orRaise (d.slots.get? slotDigest) (.activation "attempt pin manifest is invalid")
  require (slot.manifest.releaseId = releaseId ∧ slot.manifest.artifactSha256 = slotDigest)
    (.activation "attempt pin manifest identity mismatch")
  releaseApproval readings releaseId (P.manifestDigest slot.manifest)
  pure
    { attemptId, releaseId, slotDigest, generationId, slotId := slotDigest
      artifactDigest := slot.manifest.artifactSha256
      workerProtocol := slot.manifest.adapterProtocol }

/-- `attempt_pin`: what the stored pin says, derived again from its slot. -/
def attemptPin (attemptId : Text) : Except RuntimeUpdateError (Option AttemptPin) := do
  safeName attemptId "attempt identifier"
  match d.attempts.get? attemptId with
  | none => pure none
  | some stored => do
      let expected ← attemptPinFromIdentity P d readings attemptId stored.releaseId
        stored.slotDigest stored.generationId
      require (stored = expected) (.activation "attempt pin identity is invalid")
      pure (some expected)

end Checks

end Cortex.RuntimeUpdate
