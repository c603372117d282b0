import Cortex.Materializer.Disk

/-!
# FilesystemMaterializer.materialize

One call for a request, from the limits of its root to the published artifact.
Manifests are compared as bytes: `Platform` gives the canonical text of the two
that a request has, and the hash of a content.
-/

namespace Cortex.Materializer

open Control Transaction Procedure

/-- A `MaterializationRequest`; `relativePath` is its list of segments. -/
structure Request where
  operationId : Text
  rootId : Text
  relativePath : List Text
  sha256 : Text
  byteLength : ℕ
  mediaType : Text
  parents : List Text
  deriving DecidableEq

structure AssetRoot where
  rootId : Text
  maxBytes : ℕ

/-- The hash function, `_request_manifest` and `_target_manifest`. -/
structure Platform where
  sha256 : Bytes → Text
  requestManifest : Request → Bytes
  targetManifest : Request → Bytes

inductive RecoveredFrom
  | staged | dualLink | final
  deriving DecidableEq

/-- A `MaterializedAsset`: the fields of the request, and how it came to be. -/
structure MaterializedAsset where
  request : Request
  replayed : Bool
  recoveredFrom : Option RecoveredFrom

/-- The manifest that a request writes into a file. -/
def Platform.manifest (platform : Platform) (request : Request) : Part → Bytes
  | .target => platform.targetManifest request
  | _ => platform.requestManifest request

/-- `_open_lock`. -/
def openLock (lock : Lock) : M Unit := do
  let d ← read
  match d.entry (.lock lock) with
  | none => do
      let _ ← create (.lock lock)
      pure ()
  | some inode => lift (require (d.links inode = 1)
      (.materializer "operation lock is not a single regular file"))

/-- The message that a manifest is not the one of the request. -/
def conflictsWithRequest (part : Part) : MaterializerError :=
  .conflict (part.label ++ " manifest conflicts with request")

/-- `_ensure_manifest` where the final name exists: the pending one may still be there. -/
def settleManifest (part : Part) (expected : Bytes) : M Unit := do
  let observed ← readRegular (.final part) manifestLimit false
  lift (require (observed = expected) (conflictsWithRequest part))
  let d ← read
  if d.exists (.pending part) then do
    let pending ← readRegular (.pending part) manifestLimit false
    lift (require (pending = expected ∧ d.entry (.final part) = d.entry (.pending part))
      (.conflict (part.label ++ " manifest has an unknown extra file")))
    unlink (.pending part)
  let _ ← readRegular (.final part) manifestLimit true
  pure ()

/-- The pending file of a manifest: the one that is there, or a new one. -/
def pendManifest (part : Part) (expected : Bytes) : M Unit := do
  let d ← read
  if d.exists (.pending part) then do
    let pending ← readRegular (.pending part) manifestLimit true
    lift (require (pending = expected) (conflictsWithRequest part))
  else do
    let inode ← create (.pending part)
    writeAll inode expected

/-- `_ensure_manifest` where the final name does not exist. -/
def publishManifest (part : Part) (expected : Bytes) : M Unit := do
  pendManifest part expected
  rescue (link (.pending part) (.final part)) fun error =>
    if error = .fileExists then do
      let observed ← readRegular (.final part) manifestLimit false
      lift (require (observed = expected) (conflictsWithRequest part))
    else raise error
  let d ← read
  lift (require (d.entry (.final part) = d.entry (.pending part))
    (.conflict (part.label ++ " manifest was replaced concurrently")))
  unlink (.pending part)
  let _ ← readRegular (.final part) manifestLimit true
  pure ()

/-- `_ensure_manifest`: whether the manifest was there before. -/
def ensureManifest (part : Part) (expected : Bytes) : M Bool := do
  lift (require (expected.length ≤ manifestLimit)
    (.materializer (part.label ++ " manifest exceeds the size limit")))
  let d ← read
  if d.exists (.final part) then do
    settleManifest part expected
    pure true
  else do
    publishManifest part expected
    pure (d.exists (.pending part))

/-- `_require_manifest`. -/
def requireManifest (part : Part) (expected : Bytes) : M Unit := do
  let d ← read
  lift (require (d.exists (.final part))
    (.conflict "published target is unowned by this operation"))
  let observed ← readRegular (.final part) manifestLimit true
  lift (require (observed = expected) (conflictsWithRequest part))

section Calls

variable (platform : Platform) (request : Request)

/-- `_verify_content`. -/
def verifyContent (name : Name) (requireSingleLink : Bool) : M Unit := do
  let value ← readRegular name request.byteLength requireSingleLink
  lift (require (value.length = request.byteLength)
    (.integrity "materialized byte length does not match request"))
  lift (require (platform.sha256 value = request.sha256)
    (.integrity "materialized hash does not match request"))

/-- `_verify_dual_link`. -/
def verifyDualLink : M Unit := do
  let d ← read
  let incomplete := MaterializerError.conflict "known dual-link publication is incomplete"
  let staged ← lift (orRaise (d.entry (.pending .artifact)) incomplete)
  let final ← lift (orRaise (d.entry (.final .artifact)) incomplete)
  lift (require (staged = final ∧ d.links staged = 2 ∧ d.links final = 2)
    (.conflict "final and staged artifacts are not one known dual-link inode"))
  verifyContent platform request (.pending .artifact) false
  verifyContent platform request (.final .artifact) false

/-- The chunks of a content, each written once the total it makes is allowed. -/
def writeChunks (inode : Inode) (maxBytes : ℕ) : ℕ → List Bytes → M Unit
  | total, [] => lift (require (total = request.byteLength)
      (.integrity "materialized byte length does not match request"))
  | total, chunk :: chunks => do
      lift (require (total + chunk.length ≤ maxBytes ∧
          total + chunk.length ≤ request.byteLength)
        (.integrity "materialized byte length exceeds request"))
      writeAll inode chunk
      writeChunks inode maxBytes (total + chunk.length) chunks

/-- `_write_stage`: what was written is taken away again when it does not match. -/
def writeStage (content : List Bytes) (maxBytes : ℕ) : M Unit := do
  let inode ← create (.pending .artifact)
  rescue
    (do
      writeChunks request inode maxBytes 0 content
      lift (require (platform.sha256 content.flatten = request.sha256)
        (.integrity "materialized hash does not match request")))
    fun error => do
      rescue (unlink (.pending .artifact)) fun missing =>
        if missing = .fileNotFound then pure () else raise missing
      raise error

/-- `_settle_existing_final`. -/
def settleExistingFinal (operationExisted targetExisted : Bool) : M MaterializedAsset := do
  lift (require (operationExisted = true ∧ targetExisted = true)
    (.conflict "published final is unowned by this durable operation"))
  requireManifest .target (platform.manifest request .target)
  requireManifest .operation (platform.manifest request .operation)
  requireManifest .publish (platform.manifest request .publish)
  let d ← read
  if d.exists (.pending .artifact) then do
    verifyDualLink platform request
    unlink (.pending .artifact)
    verifyContent platform request (.final .artifact) true
    pure { request, replayed := true, recoveredFrom := some .dualLink }
  else do
    verifyContent platform request (.final .artifact) true
    pure { request, replayed := true, recoveredFrom := some .final }

/-- The staged file: the one that is there, or a new one of the content. -/
def stageArtifact (content : Option (List Bytes)) (maxBytes : ℕ)
    (operationExisted targetExisted : Bool) : M Bool := do
  let d ← read
  if d.exists (.pending .artifact) then do
    lift (require (operationExisted = true ∧ targetExisted = true)
      (.conflict "staged bytes are unknown to this durable operation"))
    verifyContent platform request (.pending .artifact) true
    pure true
  else do
    let content ← lift (orRaise content (.materializer "matching staged bytes are unavailable"))
    writeStage platform request content maxBytes
    verifyContent platform request (.pending .artifact) true
    pure false

/-- The artifact is linked to its name; `false` where the name was taken meanwhile. -/
def linkArtifact : M Bool :=
  rescue
    (do
      link (.pending .artifact) (.final .artifact)
      pure true)
    fun error =>
      if error = .fileExists then pure false
      else raise (.materializer "atomic no-replace publication link failed")

/-- The end of `_materialize_under_lock`: a staged artifact is published under its intent. -/
def publishStaged (operationExisted targetExisted stageExisted : Bool) : M MaterializedAsset := do
  let publishExisted ← ensureManifest .publish (platform.manifest request .publish)
  let linked ← linkArtifact
  if linked then do
    verifyDualLink platform request
    unlink (.pending .artifact)
    verifyContent platform request (.final .artifact) true
    pure
      { request
        replayed := operationExisted || targetExisted || stageExisted || publishExisted
        recoveredFrom := if stageExisted then some .staged else none }
  else settleExistingFinal platform request operationExisted targetExisted

/-- `_materialize_under_lock`. -/
def materializeUnderLock (content : Option (List Bytes)) (maxBytes : ℕ)
    (operationExisted targetExisted : Bool) : M MaterializedAsset := do
  let d ← read
  if d.exists (.final .artifact) then
    settleExistingFinal platform request operationExisted targetExisted
  else do
    let stageExisted ← stageArtifact platform request content maxBytes operationExisted
      targetExisted
    publishStaged platform request operationExisted targetExisted stageExisted

/-- The directories of the private area, in the order they are opened. -/
def privateFolders : List Folder :=
  [.administration, .operations, .targets, .staging, .publish, .locks]

/-- `materialize`. -/
def materialize (roots : List AssetRoot) (content : Option (List Bytes)) :
    M MaterializedAsset := do
  let root ← lift (orRaise (roots.find? fun root => root.rootId = request.rootId)
    (.materializer "unknown asset root"))
  lift (require (request.byteLength ≤ root.maxBytes)
    (.materializer "request exceeds the asset root size limit"))
  lift (require ((platform.requestManifest request).length ≤ manifestLimit ∧
      (platform.targetManifest request).length ≤ manifestLimit)
    (.materializer "canonical manifest exceeds the size limit"))
  each openDirectory privateFolders
  openLock .operation
  openLock .target
  let operationExisted ← ensureManifest .operation (platform.manifest request .operation)
  let targetExisted ← ensureManifest .target (platform.manifest request .target)
  each openDirectory ((List.range (request.relativePath.length - 1)).map Folder.parent)
  materializeUnderLock platform request content root.maxBytes operationExisted targetExisted

end Calls

end Cortex.Materializer
