import Cortex.Feed.Tasks

/-!
# The rows of one note

A note goes from its detail through the downloads and the transcriptions of its images to its
identification and its saves.  Each stage is a task that a worker leases; what an answer or a
failure means for the note, its images and its other tasks is decided here.  Every query of
these functions is restricted to one note, so a `Folder` has the rows of one.

The keys of the tasks are typed, and `idle` keeps the tasks of which a worker has found, since
its claim, that there is nothing to do.
-/

namespace Cortex.Notes

open Control Time Transaction
open Fallback (NoteState TaskState isFailureCategory isRetryableFailure)

/-- `XHS_IMAGE_STATES` -/
inductive ImageState
  | pending | ok | failed
  deriving DecidableEq

/-- A row of `xhs_note_images`. -/
structure Image where
  ordinal : ℕ
  fileid : Text
  downloadState : ImageState
  downloadError : Option Text
  sha256 : Option Text
  ocrState : ImageState
  ocrError : Option Text
  ocrTextSha256 : Option Text
  deriving DecidableEq

instance : Keyed Image ℕ := ⟨Image.ordinal⟩

/-- The subject key of a task of the note. -/
inductive Subject (Digest : Type)
  | detail
  | download (ordinal : ℕ)
  | ocr (ordinal : ℕ) (sha256 : Text)
  | identify (input : Digest)
  | save (version : ℕ)
  deriving DecidableEq

/-- What the payload of a download carries. -/
structure Download where
  fileid : Text
  url : Option Text
  refreshed : Bool
  deriving DecidableEq

/-- The payload of every other task names its subject only. -/
def Download.none : Download := ⟨[], .none, false⟩

/-- What the result of a finished task says of its answer. -/
inductive Answer
  | applied | stale | skipped
  deriving DecidableEq

/-- A row of `xhs_tasks`. -/
structure Task (Digest : Type) where
  subject : Subject Digest
  download : Download
  state : TaskState
  attempts : ℕ
  nextAttemptAt : Stamp
  lastError : Option Text
  answer : Option Answer
  deriving DecidableEq

/-- A row of `xhs_notes`. -/
structure Note where
  state : NoteState
  caption : Text
  contentVersion : ℕ
  lastError : Option Text
  revision : ℕ
  deriving DecidableEq

variable {Digest : Type}

instance : Keyed (Task Digest) (Subject Digest) := ⟨Task.subject⟩

/-- The rows of a note; a binding is a version of its source with the tree written for it. -/
structure Folder (Digest : Type) where
  note : Note
  images : Table Image
  tasks : Table (Task Digest)
  bindings : List (ℕ × Text)
  idle : List (Subject Digest)

/-- `_NOTE_ORDER` -/
def noteOrder : List NoteState := [.detailOk, .assetsDone, .ocrDone, .identified, .saved]

def urlExpired : Text := "url_expired".toList
def notFound : Text := "not_found".toList
def invalidResponse : Text := "invalid_response".toList

namespace Folder

variable [DecidableEq Digest]

/-! ## Rows -/

/-- `_xhs_update_note` -/
def updateNote (f : Folder Digest) (g : Note → Note) : Folder Digest :=
  { f with note := { g f.note with revision := f.note.revision + 1 } }

/-- `_xhs_image` -/
def image (f : Folder Digest) (ordinal : ℕ) : Except StoreError Image :=
  orRaise (f.images.get? ordinal) (.notFound "xhs note image")

/-- `_xhs_update_image` -/
def updateImage (f : Folder Digest) (ordinal : ℕ) (g : Image → Image)
    (hg : ∀ image, (g image).ordinal = image.ordinal := by intro; rfl) : Folder Digest :=
  { f with images := f.images.update (fun image => image.ordinal = ordinal) g hg }

/-- `UPDATE xhs_tasks SET … WHERE id = ?` -/
def updateTask (f : Folder Digest) (subject : Subject Digest) (g : Task Digest → Task Digest)
    (hg : ∀ task, (g task).subject = task.subject := by intro; rfl) : Folder Digest :=
  { f with tasks := f.tasks.update (fun task => task.subject = subject) g hg }

/-- `_xhs_create_task`: a repeat returns the first task, unchanged. -/
def createTask (f : Folder Digest) (subject : Subject Digest) (download : Download) (now : Stamp) :
    Except StoreError (Folder Digest × Task Digest × Bool) :=
  match f.tasks.get? subject with
  | some task => pure (f, task, false)
  | none => do
      let task : Task Digest :=
        { subject, download, state := .pending, attempts := 0, nextAttemptAt := now
          lastError := none, answer := none }
      let tasks ← orRaise (f.tasks.insert? task) .integrityError
      pure ({ f with tasks }, task, true)

/-- `_xhs_reset_task` -/
def resetTask (f : Folder Digest) (subject : Subject Digest) (download : Option Download)
    (now : Stamp) : Except StoreError (Folder Digest) := do
  let task ← orRaise (f.tasks.get? subject) (.notFound "xhs task")
  require (task.state ≠ .running) (.invalidTransition "running" "pending")
  if task.state = .pending ∧ download = none then
    pure f
  else
    pure (f.updateTask subject fun task => { task with
      state := .pending, attempts := 0, nextAttemptAt := now, lastError := none, answer := none
      download := download.getD task.download })

/-! ## Saves and identifications -/

/-- `_xhs_queue_save` -/
def queueSave (f : Folder Digest) (now : Stamp) : Except StoreError (Folder Digest) := do
  let subject := .save (f.note.contentVersion + 1)
  let (f, task, fresh) ← f.createTask subject .none now
  if ¬fresh ∧ (task.state = .done ∨ task.state = .failed ∨ task.state = .canceled) then
    f.resetTask subject none now
  else pure f

end Folder

/-- An image that is downloaded and transcribed, with the hash of its text. -/
def Image.transcription (image : Image) : Option (ℕ × Text) :=
  if image.downloadState = .ok ∧ image.ocrState = .ok then
    image.ocrTextSha256.map fun text => (image.ordinal, text)
  else none

namespace Folder

variable [DecidableEq Digest]

/-- The transcriptions, in the order of their images. -/
def transcriptions (f : Folder Digest) : List (ℕ × Text) :=
  (Keyset.orderBy Image.ordinal f.images.rows).filterMap Image.transcription

section Commands

variable (identifyDigest : Text → List (ℕ × Text) → Digest)

/-- `_xhs_identify_input` -/
def identifyInput (f : Folder Digest) : Digest := identifyDigest f.note.caption f.transcriptions

/-- `_xhs_queue_identify`: an input that was identified already goes on to its save. -/
def queueIdentify (f : Folder Digest) (now : Stamp) : Except StoreError (Folder Digest) := do
  let subject := .identify (f.identifyInput identifyDigest)
  let (f, task, fresh) ← f.createTask subject .none now
  if fresh ∨ task.state = .pending ∨ task.state = .running then
    pure f
  else if task.state = .done ∧ task.answer ≠ some .stale ∧ task.answer ≠ some .skipped then
    (f.updateNote fun note => { note with state := .identified }).queueSave now
  else f.resetTask subject none now

/-- No download is pending. -/
def AllFetched (f : Folder Digest) : Prop := ∀ image ∈ f.images.rows, image.downloadState ≠ .pending

/-- No transcription is pending: an image whose download failed has nothing to transcribe. -/
def AllRead (f : Folder Digest) : Prop :=
  ∀ image ∈ f.images.rows, image.downloadState = .failed ∨ image.ocrState ≠ .pending

instance (f : Folder Digest) : Decidable f.AllFetched := by unfold AllFetched; infer_instance
instance (f : Folder Digest) : Decidable f.AllRead := by unfold AllRead; infer_instance

/-- `_xhs_advance_note` -/
def advanceNote (f : Folder Digest) (now : Stamp) : Except StoreError (Folder Digest) :=
  let f := if f.note.state = .detailOk ∧ f.AllFetched then
      f.updateNote fun note => { note with state := .assetsDone }
    else f
  if f.note.state = .assetsDone ∧ f.AllRead then
    (f.updateNote fun note => { note with state := .ocrDone }).queueIdentify identifyDigest now
  else pure f

/-! ## Downloads -/

/-- `_xhs_fail_image_download` -/
def failImageDownload (f : Folder Digest) (ordinal : ℕ) (category : Text) :
    Except StoreError (Folder Digest) := do
  let _ ← f.image ordinal
  pure (f.updateImage ordinal fun image => { image with
    downloadState := .failed, downloadError := some category })

/-- A download that found its URL expired, and has not had its one refresh. -/
def IsExpired (task : Task Digest) : Prop :=
  task.state = .failed ∧ task.lastError = some urlExpired ∧ task.download.refreshed = false

instance (task : Task Digest) : Decidable (IsExpired task) := by unfold IsExpired; infer_instance

/-- The image of a download task. -/
def ordinalOf (task : Task Digest) : Option ℕ :=
  match task.subject with
  | .download ordinal => some ordinal
  | _ => none

/-- The ordinals of the downloads whose URL has expired, in the order of their keys. -/
def expired (f : Folder Digest) : List ℕ :=
  Keyset.orderBy (fun ordinal => (toString ordinal).toList)
    ((f.tasks.rows.filter fun task => IsExpired task).filterMap ordinalOf)

/-- Those of the ordinals whose image is still pending. -/
def stillPending (f : Folder Digest) : List ℕ → Except StoreError (List ℕ)
  | [] => pure []
  | ordinal :: rest => do
      let image ← f.image ordinal
      let others ← f.stillPending rest
      pure (if image.downloadState = .pending then ordinal :: others else others)

/-- `_xhs_awaiting_refresh` -/
def awaitingRefresh (f : Folder Digest) : Except StoreError (List ℕ) := f.stillPending f.expired

/-- `_xhs_request_refresh` -/
def requestRefresh (f : Folder Digest) (now : Stamp) : Folder Digest × Bool :=
  match f.resetTask .detail none now with
  | .ok f => (f, true)
  | .error _ => (f, false)

/-! ## Details -/

/-- An image of a detail; one without a URL has none to fetch. -/
structure DetailImage where
  ordinal : ℕ
  fileid : Text
  url : Option Text

/-- The answer of a detail: a note of type `normal` has images. -/
structure Detail where
  normal : Bool
  caption : Text
  images : List DetailImage

/-- One image of a later detail, which only refreshes an expired URL. -/
def refreshDownload (images : List DetailImage) (now : Stamp) (f : Folder Digest) (ordinal : ℕ) :
    Except StoreError (Folder Digest) := do
  let task ← orRaise (f.tasks.get? (.download ordinal)) (.notFound "xhs task")
  match images.reverse.find? fun image =>
      image.url.isSome && image.fileid = task.download.fileid with
  | none => f.failImageDownload ordinal notFound
  | some image =>
      f.resetTask (.download ordinal) (some { task.download with
        url := image.url, refreshed := true }) now

/-- `_xhs_upsert_image` -/
def upsertImage (f : Folder Digest) (ordinal : ℕ) (fileid : Text) :
    Except StoreError (Folder Digest) := do
  require (1 ≤ ordinal ∧ ordinal ≤ 100) (.valueError "ordinal is invalid")
  require (1 ≤ fileid.length ∧ fileid.length ≤ 200) (.valueError "fileid is invalid")
  match f.images.get? ordinal with
  | none => do
      let images ← orRaise (f.images.insert?
        { ordinal, fileid, downloadState := .pending, downloadError := none, sha256 := none
          ocrState := .pending, ocrError := none, ocrTextSha256 := none }) .integrityError
      pure { f with images }
  | some image => do
      require (image.fileid = fileid) (.invalidTransition "xhs_image_identity_changed" "detail")
      pure f

/-- One image of the first detail: without a URL it is shown failed, with its task. -/
def storeImage (now : Stamp) (f : Folder Digest) (image : DetailImage) :
    Except StoreError (Folder Digest) := do
  let f ← f.upsertImage image.ordinal image.fileid
  let (f, _, _) ← f.createTask (.download image.ordinal)
    { fileid := image.fileid, url := image.url, refreshed := false } now
  if image.url = none then
    let f := f.updateTask (.download image.ordinal) fun task => { task with
      state := if task.state = .pending then .failed else task.state
      lastError := if task.state = .pending then some invalidResponse else task.lastError }
    f.failImageDownload image.ordinal invalidResponse
  else pure f

/-- `_xhs_apply_detail` -/
def applyDetail (f : Folder Digest) (detail : Detail) (now : Stamp) :
    Except StoreError (Folder Digest) := do
  if f.note.state ≠ .discovered then
    let waiting ← f.awaitingRefresh
    let f ← waiting.foldlM (refreshDownload detail.images now) f
    f.advanceNote identifyDigest now
  else if detail.normal = false then
    pure (f.updateNote fun note => { note with state := .unsupported, caption := detail.caption })
  else do
    let f := f.updateNote fun note => { note with state := .detailOk, caption := detail.caption }
    let f ← detail.images.foldlM (storeImage now) f
    f.advanceNote identifyDigest now

/-! ## Images -/

/-- `_xhs_apply_download` -/
def applyDownload (f : Folder Digest) (ordinal : ℕ) (sha256 : Text) (now : Stamp) :
    Except StoreError (Folder Digest) := do
  let current ← f.image ordinal
  -- other bytes: an earlier transcription no longer describes them
  let f := f.updateImage ordinal fun image => { image with
    downloadState := .ok, downloadError := none, sha256 := some sha256
    ocrState := if current.sha256 ≠ some sha256 then .pending else image.ocrState
    ocrError := if current.sha256 ≠ some sha256 then none else image.ocrError
    ocrTextSha256 := if current.sha256 ≠ some sha256 then none else image.ocrTextSha256 }
  let (f, _, _) ← f.createTask (.ocr ordinal sha256) .none now
  f.advanceNote identifyDigest now

/-- `_xhs_apply_ocr` -/
def applyOcr (f : Folder Digest) (ordinal : ℕ) (sha256 text : Text) (now : Stamp) :
    Except StoreError (Folder Digest × Answer) := do
  let current ← f.image ordinal
  if current.sha256 ≠ some sha256 ∨ current.ocrState ≠ .pending then
    pure (f, .stale)
  else do
    let f ← (f.updateImage ordinal fun image => { image with
      ocrState := .ok, ocrError := none, ocrTextSha256 := some text }).advanceNote
        identifyDigest now
    pure (f, .applied)

/-! ## Identification and saves -/

/-- `_xhs_apply_identify`, without the recommendations that it upserts. -/
def applyIdentify (f : Folder Digest) (input : Digest) (stale : Bool) (now : Stamp) :
    Except StoreError (Folder Digest × Answer) := do
  if stale ∨ f.note.state ≠ .ocrDone ∨ input ≠ f.identifyInput identifyDigest then
    pure (f, .stale)
  else do
    let f ← (f.updateNote fun note => { note with
      state := .identified, lastError := none }).queueSave now
    pure (f, .applied)

/-- `_append_content_binding` -/
def appendContentBinding (f : Folder Digest) (version : ℕ) (tree : Text) (rootEnabled : Bool) :
    Except StoreError (Folder Digest) := do
  require (1 ≤ version) (.valueError "content version is invalid")
  match f.bindings.find? fun binding => binding.1 = version with
  | some binding => do
      require (binding.2 = tree) (.invalidTransition "content_version_conflict" "bound")
      pure f
  | none => do
      require (version = 1 + (f.bindings.map Prod.fst).foldl max 0)
        (.invalidTransition "content_version_out_of_order" "bound")
      require (rootEnabled = true) (.invalidTransition "asset_root_unavailable" "bound")
      pure { f with bindings := f.bindings ++ [(version, tree)] }

/-- `_xhs_apply_save`; `changed` is set where what the version renders has changed since. -/
def applySave (f : Folder Digest) (version : ℕ) (tree : Text) (rootEnabled changed : Bool)
    (now : Stamp) : Except StoreError (Folder Digest × Answer) := do
  if (f.note.state ≠ .identified ∧ f.note.state ≠ .saved) ∨ f.note.contentVersion + 1 ≠ version then
    pure (f, .stale)
  else do
    let f ← f.appendContentBinding version tree rootEnabled
    let f := f.updateNote fun note => { note with
      state := .saved, contentVersion := version, lastError := none }
    if changed then do
      let f ← f.queueSave now
      pure (f, .applied)
    else pure (f, .applied)

/-- A link or a review changes what the next version of a note renders. -/
def saveChange (f : Folder Digest) (now : Stamp) : Except StoreError (Folder Digest) :=
  if f.note.state = .identified ∨ f.note.state = .saved then f.queueSave now else pure f

/-! ## Failures -/

/-- `_xhs_apply_failure` of a task that failed for good. -/
def applyFailure (f : Folder Digest) (subject : Subject Digest) (category : Text) (now : Stamp) :
    Except StoreError (Folder Digest) :=
  match subject with
  | .detail => do
      if f.note.state = .discovered then
        pure (f.updateNote fun note => { note with state := .failed, lastError := some category })
      else do
        let waiting ← f.awaitingRefresh
        let f ← waiting.foldlM (fun f ordinal => f.failImageDownload ordinal urlExpired) f
        f.advanceNote identifyDigest now
  | .download ordinal => do
      let image ← f.image ordinal
      if image.downloadState ≠ .pending then
        pure f
      else do
        let task ← orRaise (f.tasks.get? subject) (.notFound "xhs task")
        if category = urlExpired ∧ task.download.refreshed = false then do
          let (f, requested) := f.requestRefresh now
          if requested then
            pure f
          else do
            let f ← f.failImageDownload ordinal category
            f.advanceNote identifyDigest now
        else do
          let f ← f.failImageDownload ordinal category
          f.advanceNote identifyDigest now
  | .ocr ordinal sha256 => do
      let image ← f.image ordinal
      if image.sha256 ≠ some sha256 ∨ image.ocrState ≠ .pending then
        pure f
      else
        (f.updateImage ordinal fun image => { image with
          ocrState := .failed, ocrError := some category }).advanceNote identifyDigest now
  | .identify _ | .save _ =>
      pure (f.updateNote fun note => { note with lastError := some category })

/-! ## Retries -/

/-- What `_xhs_retry_image` has decided before it resets the task of the image. -/
structure Retry (Digest : Type) where
  folder : Folder Digest
  subject : Subject Digest
  download : Option Download
  stage : NoteState

/-- `_xhs_retry_image`, up to the reset of the task: the image is cleared already. -/
def clearImage (f : Folder Digest) (ordinal : ℕ) : Except StoreError (Retry Digest) := do
  let image ← f.image ordinal
  require (f.note.state ∈ noteOrder) (.invalidTransition "state" "retry")
  if image.downloadState = .failed then do
    let task ← orRaise (f.tasks.get? (.download ordinal))
      (.invalidTransition "xhs_image_not_retryable" "pending")
    let folder := f.updateImage ordinal fun image => { image with
      downloadState := .pending, downloadError := none
      ocrState := .pending, ocrError := none, ocrTextSha256 := none }
    pure ⟨folder, .download ordinal, some { task.download with refreshed := false }, .detailOk⟩
  else if image.ocrState = .failed then do
    let sha256 ← orRaise image.sha256 (.notFound "xhs task")
    let folder := f.updateImage ordinal fun image => { image with
      ocrState := .pending, ocrError := none, ocrTextSha256 := none }
    pure ⟨folder, .ocr ordinal sha256, none, .assetsDone⟩
  else throw (.invalidTransition "xhs_image_not_failed" "pending")

/-- `_xhs_retry_image` from there on: the note goes back to the stage of the image. -/
def Retry.finish (r : Retry Digest) (now : Stamp) : Except StoreError (Folder Digest) := do
  let f ← r.folder.resetTask r.subject r.download now
  if noteOrder.idxOf r.stage < noteOrder.idxOf f.note.state then
    pure (f.updateNote fun note => { note with state := r.stage, lastError := none })
  else pure f

/-- `_xhs_retry_image` -/
def retryImage (f : Folder Digest) (ordinal : ℕ) (now : Stamp) :
    Except StoreError (Folder Digest) := do
  let r ← f.clearImage ordinal
  r.finish now

/-- The retry of an image by its task; a refused one leaves what it has written. -/
def retryByTask (f : Folder Digest) (ordinal : ℕ) (now : Stamp) :
    Except StoreError (Folder Digest × Bool) :=
  match f.clearImage ordinal with
  | .ok r =>
      match r.finish now with
      | .ok f => pure (f, true)
      | .error (.invalidTransition _ _) => pure (r.folder, false)
      | .error error => .error error
  | .error (.invalidTransition _ _) => pure (f, false)
  | .error error => .error error

/-- `_xhs_retry_task`; false where the task no longer matches its rows. -/
def retryTask (f : Folder Digest) (subject : Subject Digest) (now : Stamp) :
    Except StoreError (Folder Digest × Bool) :=
  match subject with
  | .download ordinal => do
      let image ← f.image ordinal
      if image.downloadState ≠ .failed then
        pure (f, false)
      else f.retryByTask ordinal now
  | .ocr ordinal sha256 => do
      let image ← f.image ordinal
      if image.downloadState ≠ .ok ∨ image.ocrState ≠ .failed ∨ image.sha256 ≠ some sha256 then
        pure (f, false)
      else f.retryByTask ordinal now
  | .detail =>
      if f.note.state ≠ .failed then
        pure (f, false)
      else do
        let f ← (f.updateNote fun note => { note with
          state := .discovered, lastError := none }).resetTask subject none now
        pure (f, true)
  | .identify _ =>
      if f.note.state ≠ .ocrDone then
        pure (f, false)
      else do
        let f := f.updateNote fun note => { note with lastError := none }
        let f ← f.resetTask subject none now
        pure (f, true)
  | .save version =>
      if (f.note.state ≠ .identified ∧ f.note.state ≠ .saved) ∨ version ≤ f.note.contentVersion then
        pure (f, false)
      else do
        let f := f.updateNote fun note => { note with lastError := none }
        let f ← f.resetTask subject none now
        pure (f, true)

/-- One task of `retry_failed_xhs_tasks`, unless the retry of an earlier one has reset it. -/
def retryIfFailed (now : Stamp) (f : Folder Digest) (subject : Subject Digest) :
    Except StoreError (Folder Digest) :=
  if (f.tasks.get? subject).any fun task => task.state = .failed then
    Prod.fst <$> f.retryTask subject now
  else pure f

/-- `retry_failed_xhs_tasks`, of the tasks of this note that it selects. -/
def retryFailed (f : Folder Digest) (selects : Subject Digest → Bool) (now : Stamp) :
    Except StoreError (Folder Digest) :=
  let failed := (f.tasks.rows.filter fun task =>
    task.state = .failed ∧ selects task.subject = true).map Task.subject
  failed.foldlM (retryIfFailed now) f

end Commands

end Folder

end Cortex.Notes
