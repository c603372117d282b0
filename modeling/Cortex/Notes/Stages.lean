import Cortex.Notes.View

/-!
# Every stage has its tasks

`Good v`: each image agrees with its tasks, and the note has not come further than they allow,
nor stopped short.  `Sound` is the part that an answer keeps before the note is moved on, and
moving it on restores the rest (`Advance.good`).
-/

namespace Cortex.Notes

open Control
open Fallback (NoteState TaskState)

variable {Digest : Type}

/-- The image that a task is about. -/
def Subject.ordinal : Subject Digest → Option ℕ
  | download ordinal | ocr ordinal _ => some ordinal
  | detail | identify _ | save _ => none

/-- The image is downloaded and transcribed. -/
def Image.Settled (image : Image) : Prop := image.downloadState = .ok ∧ image.ocrState = .ok

theorem Image.settled_of_transcription {image : Image} {entry : ℕ × Text}
    (h : image.transcription = some entry) : image.Settled ∧ entry.1 = image.ordinal := by
  rw [Image.transcription] at h
  split at h
  · rename_i hsettled
    obtain ⟨text, -, rfl⟩ := Option.map_eq_some_iff.1 h
    exact ⟨hsettled, rfl⟩
  · cases h

namespace View

variable (v : View Digest)

/-- What the state of an image says of the task that it waited for. -/
def Matches (k : Subject Digest) : ImageState → Prop
  | .pending => v.Waits k
  | .ok => v.In k .done
  | .failed => v.In k .failed

/-- The download of the image found its URL expired, and has not had its refresh. -/
def Expired (ordinal : ℕ) : Prop :=
  ∃ task, v.task (.download ordinal) = some task ∧ Folder.IsExpired task

/-- The task was done without a word: a worker had found that there was nothing to do. -/
def Skipped (k : Subject Digest) : Prop :=
  ∃ task, v.task k = some task ∧ task.state = .done ∧ task.answer = some .skipped

/-- An image agrees with its tasks. -/
structure Kept (image : Image) : Prop where
  fetch : v.Matches (.download image.ordinal) image.downloadState ∨
    image.downloadState = .pending ∧ v.Expired image.ordinal ∧ v.Waits .detail
  read : ∀ sha256 ∈ image.sha256, v.Matches (.ocr image.ordinal sha256) image.ocrState
  fetched : image.sha256.isSome = true ↔ image.downloadState = .ok
  unread : image.sha256 = none → image.ocrState = .pending
  text : image.ocrTextSha256.isSome = true ↔ image.ocrState = .ok

/-- There is no image and no task yet, the detail apart. -/
structure Empty : Prop where
  images : ∀ image, image ∉ v.images
  tasks : ∀ k, v.task k ≠ none → k = .detail

/-- No image waits for its URL. -/
def NoneExpired : Prop :=
  ∀ image ∈ v.images, image.downloadState = .pending → v.Waits (.download image.ordinal)

def HasFailed : Prop :=
  ∃ image ∈ v.images, image.downloadState = .failed ∨
    image.downloadState = .ok ∧ image.ocrState = .failed

variable (identifyDigest : Text → List (ℕ × Text) → Digest)

/-- Why a worker found nothing to do for a task that runs. -/
def Pointless : Subject Digest → Prop
  | .detail => v.state ≠ .discovered ∧ v.NoneExpired
  | .download _ | .ocr _ _ => False
  | .identify input => input = v.input identifyDigest → ∃ image ∈ v.images, ¬image.Settled
  | .save _ => True

structure Sound : Prop where
  kept : ∀ image ∈ v.images, v.Kept image
  downloads : ∀ ordinal, v.task (.download ordinal) ≠ none → v.images.get? ordinal ≠ none
  ocrs : ∀ ordinal sha256, v.task (.ocr ordinal sha256) ≠ none →
    ∃ image, v.images.get? ordinal = some image ∧ image.sha256 = some sha256
  inputs : ∀ input, v.task (.identify input) ≠ none →
    ∃ entries, (∀ entry ∈ entries, entry ∈ v.transcriptions) ∧
      input = identifyDigest v.caption entries
  idle : ∀ k ∈ v.idle, v.In k .running → v.Pointless identifyDigest k
  bindings : v.bindings.map Prod.fst = List.range' 1 v.contentVersion

/-- What the stage of the note says of its images and tasks. -/
def Staged : Prop :=
  match v.state with
  | .discovered => v.Empty ∧ v.Waits .detail
  | .failed => v.Empty ∧ v.In .detail .failed
  | .unsupported => v.Empty ∧ (v.task .detail = none ∨ v.In .detail .done)
  | .detailOk => ¬v.AllFetched
  | .assetsDone => v.AllFetched ∧ ¬v.AllRead
  | .ocrDone => v.AllFetched ∧ v.AllRead ∧ (v.HasFailed ∨
      v.Waits (.identify (v.input identifyDigest)) ∨
      v.In (.identify (v.input identifyDigest)) .failed)
  | .identified => v.AllFetched ∧ v.AllRead ∧ v.Known (.identify (v.input identifyDigest)) ∧
      (v.Waits (.save (v.contentVersion + 1)) ∨ v.In (.save (v.contentVersion + 1)) .failed ∨
        v.Skipped (.save (v.contentVersion + 1)))
  | .saved => v.AllFetched ∧ v.AllRead ∧ v.Known (.identify (v.input identifyDigest))

structure Good : Prop extends Sound v identifyDigest where
  staged : v.Staged identifyDigest

/-- The note is still at its images. -/
def Moving : Prop := v.state = .detailOk ∨ v.state = .assetsDone ∧ v.AllFetched

/-- The task is as it was, or it waited and waits still. -/
def Steady (v v' : View Digest) (k : Subject Digest) : Prop :=
  v'.task k = v.task k ∨ v.Waits k ∧ v'.Waits k

end View

namespace View

variable {v v' : View Digest} {image : Image} {k : Subject Digest} {ordinal : ℕ}
  {identifyDigest : Text → List (ℕ × Text) → Digest}

/-! ## Frames -/

theorem Waits.congr (h : v.Waits k) (htask : v'.task k = v.task k) : v'.Waits k := by
  obtain ⟨task, hget, hstate⟩ := h
  exact ⟨task, htask.trans hget, hstate⟩

theorem In.congr {state : TaskState} (h : v.In k state) (htask : v'.task k = v.task k) :
    v'.In k state := by
  obtain ⟨task, hget, hstate⟩ := h
  exact ⟨task, htask.trans hget, hstate⟩

theorem Waits.unique {task : Task Digest} (h : v.Waits k) (hget : v.task k = some task) :
    task.state = .pending ∨ task.state = .running := by
  obtain ⟨other, hget', hstate⟩ := h
  rw [hget] at hget'
  rwa [Option.some.inj hget']

theorem Steady.not_done {task : Task Digest} (h : Steady v v' k) (hget : v.task k = some task)
    (hstate : task.state ≠ .pending ∧ task.state ≠ .running) : v'.task k = some task := by
  rcases h with hsame | ⟨hwaits, -⟩
  · exact hsame.trans hget
  · exact ((hwaits.unique hget).elim hstate.1 hstate.2).elim

theorem Waits.steady (h : v.Waits k) (hs : Steady v v' k) : v'.Waits k :=
  hs.elim h.congr And.right

theorem In.steady {state : TaskState} (h : v.In k state)
    (hstate : state ≠ .pending ∧ state ≠ .running) (hs : Steady v v' k) : v'.In k state := by
  obtain ⟨task, hget, rfl⟩ := h
  exact ⟨task, hs.not_done hget hstate, rfl⟩

theorem Matches.steady {state : ImageState} (h : v.Matches k state) (hs : Steady v v' k) :
    v'.Matches k state := by
  cases state with
  | pending => exact Waits.steady h hs
  | ok | failed => exact In.steady h (by decide) hs

theorem Known.steady (h : v.Known k) (hs : Steady v v' k) : v'.Known k := by
  obtain ⟨task, hget, hdone, hanswer⟩ := h
  exact ⟨task, hs.not_done hget (by rw [hdone]; decide), hdone, hanswer⟩

theorem Skipped.steady (h : v.Skipped k) (hs : Steady v v' k) : v'.Skipped k := by
  obtain ⟨task, hget, hdone, hanswer⟩ := h
  exact ⟨task, hs.not_done hget (by rw [hdone]; decide), hdone, hanswer⟩

theorem Known.done (h : v.Known k) : v.In k .done := by
  obtain ⟨task, hget, hdone, -⟩ := h
  exact ⟨task, hget, hdone⟩

theorem Waits.ne_none (h : v.Waits k) : v.task k ≠ none := by
  obtain ⟨task, hget, -⟩ := h
  rw [hget]
  exact Option.some_ne_none _

theorem In.ne_none {state : TaskState} (h : v.In k state) : v.task k ≠ none := by
  obtain ⟨task, hget, -⟩ := h
  rw [hget]
  exact Option.some_ne_none _

theorem In.unique {state state' : TaskState} (h : v.In k state) (h' : v.In k state') :
    state = state' := by
  obtain ⟨task, hget, rfl⟩ := h
  obtain ⟨task', hget', rfl⟩ := h'
  rw [hget] at hget'
  rw [Option.some.inj hget']

theorem In.not_waits {state : TaskState} (h : v.In k state)
    (hstate : state ≠ .pending ∧ state ≠ .running) : ¬v.Waits k := by
  obtain ⟨task, hget, rfl⟩ := h
  rintro ⟨task', hget', hwaits⟩
  rw [hget] at hget'
  obtain rfl := Option.some.inj hget'
  exact hwaits.elim hstate.1 hstate.2

theorem In.waits {state : TaskState} (h : v.In k state)
    (hstate : state = .pending ∨ state = .running) : v.Waits k := by
  obtain ⟨task, hget, rfl⟩ := h
  exact ⟨task, hget, hstate⟩

/-- An image agrees with its tasks where these are as they were. -/
theorem Kept.congr (h : v.Kept image)
    (htasks : ∀ k : Subject Digest, k.ordinal = some image.ordinal → v'.task k = v.task k)
    (hdetail : v.Waits .detail → v'.Waits .detail) : v'.Kept image where
  fetch := by
    have hdownload := htasks (.download image.ordinal) rfl
    rcases h.fetch with hmatches | ⟨hpending, ⟨task, hget, hexpired⟩, hwaits⟩
    · exact .inl (hmatches.steady (.inl hdownload))
    · exact .inr ⟨hpending, ⟨task, hdownload.trans hget, hexpired⟩, hdetail hwaits⟩
  read sha256 hsha := (h.read sha256 hsha).steady (.inl (htasks _ rfl))
  fetched := h.fetched
  unread := h.unread
  text := h.text

/-- No image has come, or none will. -/
def Early (state : NoteState) : Prop :=
  state = .discovered ∨ state = .failed ∨ state = .unsupported

/-- The stage stays where the tasks that it speaks of do. -/
theorem Staged.congr (h : v.Staged identifyDigest) (hstate : v'.state = v.state)
    (himages : v'.images = v.images) (hcaption : v'.caption = v.caption)
    (hversion : v'.contentVersion = v.contentVersion)
    (hearly : Early v.state → (∀ k, v'.task k ≠ none → v.task k ≠ none) ∧ Steady v v' .detail)
    (hidentify : Steady v v' (.identify (v.input identifyDigest)))
    (hsave : v.state = .identified → Steady v v' (.save (v.contentVersion + 1))) :
    v'.Staged identifyDigest := by
  have hinput : v'.input identifyDigest = v.input identifyDigest := by
    rw [input, input, transcriptions, transcriptions, hcaption, himages]
  have hempty : Early v.state → v.Empty → v'.Empty := fun hstate hempty =>
    ⟨fun image himage => hempty.images image (himages ▸ himage),
      fun k hk => hempty.tasks k ((hearly hstate).1 k hk)⟩
  have hfetched : v.AllFetched → v'.AllFetched := fun hall => by rwa [AllFetched, himages]
  have hread : v.AllRead → v'.AllRead := fun hall => by rwa [AllRead, himages]
  rw [Staged] at h ⊢
  rw [hstate, hinput, hversion]
  cases hnote : v.state with
  | discovered =>
      rw [hnote] at h hearly hempty
      exact ⟨hempty (.inl rfl) h.1, h.2.steady (hearly (.inl rfl)).2⟩
  | failed =>
      rw [hnote] at h hearly hempty
      have hfailed : Early .failed := .inr (.inl rfl)
      exact ⟨hempty hfailed h.1, h.2.steady (by decide) (hearly hfailed).2⟩
  | unsupported =>
      rw [hnote] at h hearly hempty
      have hunsupported : Early .unsupported := .inr (.inr rfl)
      obtain ⟨hnone, hdetail⟩ := hearly hunsupported
      refine ⟨hempty hunsupported h.1, h.2.imp (fun hold => ?_) fun hdone =>
        hdone.steady (by decide) hdetail⟩
      by_contra hnew
      exact hnone _ hnew hold
  | detailOk =>
      rw [hnote] at h
      rwa [AllFetched, himages]
  | assetsDone =>
      rw [hnote] at h
      rwa [AllFetched, AllRead, himages]
  | ocrDone =>
      rw [hnote] at h
      refine ⟨hfetched h.1, hread h.2.1, h.2.2.imp (fun hfailed => ?_) (.imp ?_ ?_)⟩
      · rwa [HasFailed, himages]
      · exact fun hwaits => hwaits.steady hidentify
      · exact fun hfailed => hfailed.steady (by decide) hidentify
  | identified =>
      rw [hnote] at h
      have hsave := hsave hnote
      refine ⟨hfetched h.1, hread h.2.1, h.2.2.1.steady hidentify, h.2.2.2.imp ?_ (.imp ?_ ?_)⟩
      · exact fun hwaits => hwaits.steady hsave
      · exact fun hfailed => hfailed.steady (by decide) hsave
      · exact fun hskipped => hskipped.steady hsave
  | saved =>
      rw [hnote] at h
      exact ⟨hfetched h.1, hread h.2.1, h.2.2.steady hidentify⟩

/-- One image is filed with its tasks, and nothing else changes but the stage. -/
structure Files (v v' : View Digest) (image : Image) : Prop where
  images : ∀ other, other ∈ v'.images ↔
    other = image ∨ other ∈ v.images ∧ other.ordinal ≠ image.ordinal
  tasks : ∀ k : Subject Digest, k.ordinal ≠ some image.ordinal → v'.task k = v.task k
  state : v'.state = .discovered → v.state = .discovered
  caption : v'.caption = v.caption
  contentVersion : v'.contentVersion = v.contentVersion
  bindings : v'.bindings = v.bindings
  idle : v'.idle = v.idle

namespace Files

variable (h : Files v v' image)
include h

theorem get?_image : v'.images.get? image.ordinal = some image :=
  Table.get?_eq_some.2 ⟨(h.images image).2 (.inl rfl), rfl⟩

theorem get?_of_ne (hne : ordinal ≠ image.ordinal) :
    v'.images.get? ordinal = v.images.get? ordinal := by
  ext other
  rw [Table.get?_eq_some, Table.get?_eq_some, h.images]
  constructor
  · rintro ⟨rfl | ⟨hmem, -⟩, rfl⟩
    · exact absurd rfl hne
    · exact ⟨hmem, rfl⟩
  · rintro ⟨hmem, rfl⟩
    exact ⟨.inr ⟨hmem, hne⟩, rfl⟩

theorem download (hne : ordinal ≠ image.ordinal) :
    v'.task (.download ordinal) = v.task (.download ordinal) :=
  h.tasks _ fun heq => hne (Option.some.inj heq)

theorem ocr {sha256 : Text} (hne : ordinal ≠ image.ordinal) :
    v'.task (.ocr ordinal sha256) = v.task (.ocr ordinal sha256) :=
  h.tasks _ fun heq => hne (Option.some.inj heq)

theorem detail : v'.task .detail = v.task .detail := h.tasks _ (Option.some_ne_none _).symm

theorem identify (input : Digest) : v'.task (.identify input) = v.task (.identify input) :=
  h.tasks _ (Option.some_ne_none _).symm

end Files

/-- The rest stays sound where the image agrees with its tasks and nothing transcribed is lost. -/
theorem Sound.filed (hv : v.Sound identifyDigest) (h : Files v v' image) (hkept : v'.Kept image)
    (hocrs : ∀ sha256, v'.task (.ocr image.ordinal sha256) ≠ none → image.sha256 = some sha256)
    (hgrows : ∀ entry ∈ v.transcriptions, entry.1 = image.ordinal →
      image.transcription = some entry)
    (hrunning : ∀ k : Subject Digest, k.ordinal = some image.ordinal → v'.In k .running →
      v.In k .running)
    (hwaits : v.In .detail .running → image.downloadState = .pending →
      v'.Waits (.download image.ordinal))
    (hunsettled : ∀ input, .identify input ∈ v.idle → v'.In (.identify input) .running →
      v'.Pointless identifyDigest (.identify input)) : v'.Sound identifyDigest where
  kept other hother := by
    rcases (h.images other).1 hother with rfl | ⟨hmem, hne⟩
    · exact hkept
    · refine (hv.kept other hmem).congr (fun k hk => h.tasks k fun heq => ?_) fun hwaits =>
        hwaits.congr h.detail
      exact hne (Option.some.inj (hk.symm.trans heq))
  downloads ordinal htask := by
    by_cases hordinal : ordinal = image.ordinal
    · rw [hordinal, h.get?_image]
      exact Option.some_ne_none _
    · rw [h.download hordinal] at htask
      rw [h.get?_of_ne hordinal]
      exact hv.downloads ordinal htask
  ocrs ordinal sha256 htask := by
    by_cases hordinal : ordinal = image.ordinal
    · subst hordinal
      exact ⟨image, h.get?_image, hocrs sha256 htask⟩
    · rw [h.ocr hordinal] at htask
      rw [h.get?_of_ne hordinal]
      exact hv.ocrs ordinal sha256 htask
  inputs input htask := by
    rw [h.identify] at htask
    obtain ⟨entries, hentries, hinput⟩ := hv.inputs input htask
    refine ⟨entries, fun entry hentry => ?_, h.caption ▸ hinput⟩
    have hmem := hentries entry hentry
    obtain ⟨other, hother, htranscription⟩ := mem_transcriptions.1 hmem
    have hfirst := (Image.settled_of_transcription htranscription).2
    by_cases hordinal : other.ordinal = image.ordinal
    · exact mem_transcriptions.2 ⟨image, (h.images image).2 (.inl rfl),
        hgrows entry hmem (hfirst.trans hordinal)⟩
    · exact mem_transcriptions.2 ⟨other, (h.images other).2 (.inr ⟨hother, hordinal⟩),
        htranscription⟩
  idle k hk hin := by
    rw [h.idle] at hk
    cases k with
    | detail =>
        have hold : v.In .detail .running := hin.congr h.detail.symm
        obtain ⟨hnot, hnone⟩ := hv.idle _ hk hold
        refine ⟨fun hdiscovered => hnot (h.state hdiscovered), fun other hother hwaiting => ?_⟩
        rcases (h.images other).1 hother with rfl | ⟨hmem, hne⟩
        · exact hwaits hold hwaiting
        · exact (hnone other hmem hwaiting).congr (h.download hne)
    | download ordinal =>
        by_cases hordinal : ordinal = image.ordinal
        · exact hv.idle _ hk (hrunning _ (congrArg some hordinal) hin)
        · exact hv.idle _ hk (hin.congr (h.download hordinal).symm)
    | ocr ordinal sha256 =>
        by_cases hordinal : ordinal = image.ordinal
        · exact hv.idle _ hk (hrunning _ (congrArg some hordinal) hin)
        · exact hv.idle _ hk (hin.congr (h.ocr hordinal).symm)
    | identify input => exact hunsettled input hk hin
    | save version => trivial
  bindings := by rw [h.bindings, h.contentVersion, hv.bindings]

/-- The same for an image that is not transcribed, before or after. -/
theorem Sound.filed_unsettled (hv : v.Sound identifyDigest) (h : Files v v' image)
    (hkept : v'.Kept image)
    (hocrs : ∀ sha256, v'.task (.ocr image.ordinal sha256) ≠ none → image.sha256 = some sha256)
    (hold : ∀ other ∈ v.images, other.ordinal = image.ordinal → ¬other.Settled)
    (hnew : ¬image.Settled)
    (hrunning : ∀ k : Subject Digest, k.ordinal = some image.ordinal → v'.In k .running →
      v.In k .running)
    (hwaits : v.In .detail .running → image.downloadState = .pending →
      v'.Waits (.download image.ordinal)) : v'.Sound identifyDigest := by
  refine hv.filed h hkept hocrs (fun entry hentry hordinal => ?_) hrunning hwaits
    fun _ _ _ _ => ⟨image, (h.images image).2 (.inl rfl), hnew⟩
  obtain ⟨other, hother, htranscription⟩ := mem_transcriptions.1 hentry
  obtain ⟨hsettled, hfirst⟩ := Image.settled_of_transcription htranscription
  exact absurd hsettled (hold other hother (hfirst.symm.trans hordinal))

/-- Before the first image there is only the detail to be sound. -/
theorem Empty.sound (h : v.Empty)
    (hbindings : v.bindings.map Prod.fst = List.range' 1 v.contentVersion)
    (hidle : .detail ∈ v.idle → v.In .detail .running → v.state ≠ .discovered) :
    v.Sound identifyDigest where
  kept image himage := absurd himage (h.images image)
  downloads ordinal htask := nomatch h.tasks _ htask
  ocrs ordinal sha256 htask := nomatch h.tasks _ htask
  inputs input htask := nomatch h.tasks _ htask
  idle k hk hrunning := by
    obtain rfl := h.tasks k hrunning.ne_none
    exact ⟨hidle hk hrunning, fun image himage => absurd himage (h.images image)⟩
  bindings := hbindings

/-- The note goes to another stage. -/
theorem Sound.moved {state : NoteState} (hv : v.Sound identifyDigest)
    (hstate : state = .discovered → v.state = .discovered ∨ ¬v.In .detail .running) :
    (v.moved state).Sound identifyDigest where
  kept image himage := (hv.kept image himage).congr (fun _ _ => rfl) fun hwaits => hwaits
  downloads := hv.downloads
  ocrs := hv.ocrs
  inputs := hv.inputs
  idle k hk hrunning := by
    have hpointless := hv.idle k hk hrunning
    cases k with
    | detail =>
        refine ⟨fun hdiscovered => ?_, hpointless.2⟩
        rcases hstate hdiscovered with hold | hnot
        · exact hpointless.1 hold
        · exact hnot hrunning
    | download ordinal | ocr ordinal sha256 | identify input | save version => exact hpointless
  bindings := hv.bindings

variable [DecidableEq Digest] {task : Task Digest}

theorem waits_put (hsubject : task.subject = k)
    (hstate : task.state = .pending ∨ task.state = .running) : (v.put task).Waits k :=
  ⟨task, task_put hsubject, hstate⟩

theorem in_put (hsubject : task.subject = k) : (v.put task).In k task.state :=
  ⟨task, task_put hsubject, rfl⟩

omit [DecidableEq Digest] in
theorem Opens.waits (h : v.Opens task) : task.state = .pending ∨ task.state = .running :=
  h.imp_right And.left

/-- The detail, an identification or a save is filed. -/
theorem Sound.put (hv : v.Sound identifyDigest) (hsubject : task.subject.ordinal = none)
    (hdetail : task.subject = .detail → (task.state = .pending ∨ task.state = .running) ∨
      v.NoneExpired)
    (hinput : ∀ input, task.subject = .identify input → v.task (.identify input) = none →
      input = v.input identifyDigest)
    (hrunning : task.state = .running → v.In task.subject .running ∨ task.subject ∉ v.idle) :
    (v.put task).Sound identifyDigest where
  kept image himage := by
    have hkept := hv.kept image himage
    by_cases hsub : task.subject = .detail
    · rcases hdetail hsub with hwaits | hnone
      · refine hkept.congr (fun k hk => task_put_of_ne ?_) fun _ => waits_put hsub hwaits
        rintro rfl
        rw [hsubject] at hk
        cases hk
      · -- no image waits for the detail
        refine { hkept with fetch := .inl ?_, read := fun sha256 hsha => ?_ }
        · have hmatches : v.Matches (.download image.ordinal) image.downloadState := by
            rcases hkept.fetch with hmatches | ⟨hpending, -⟩
            · exact hmatches
            · rw [hpending]
              exact hnone image himage hpending
          exact hmatches.steady (.inl (task_put_of_ne (by rw [hsub]; exact nofun)))
        · exact (hkept.read sha256 hsha).steady
            (.inl (task_put_of_ne (by rw [hsub]; exact nofun)))
    · refine hkept.congr (fun k hk => task_put_of_ne ?_) fun hwaits =>
        hwaits.congr (task_put_of_ne fun heq => hsub heq.symm)
      rintro rfl
      rw [hsubject] at hk
      cases hk
  downloads ordinal htask := by
    rw [task_put_of_ne (by rintro heq; rw [← heq] at hsubject; cases hsubject)] at htask
    exact hv.downloads ordinal htask
  ocrs ordinal sha256 htask := by
    rw [task_put_of_ne (by rintro heq; rw [← heq] at hsubject; cases hsubject)] at htask
    exact hv.ocrs ordinal sha256 htask
  inputs input htask := by
    by_cases hnone : v.task (.identify input) = none
    · by_cases hsub : task.subject = .identify input
      · exact ⟨v.transcriptions, fun _ h => h, hinput input hsub hnone⟩
      · rw [task_put_of_ne fun heq => hsub heq.symm] at htask
        exact absurd hnone htask
    · exact hv.inputs input hnone
  idle k hk hin := by
    have hold : v.In k .running := by
      by_cases hsub : k = task.subject
      · obtain ⟨task', hget, hstate⟩ := hin
        rw [task_put hsub.symm] at hget
        obtain rfl := Option.some.inj hget
        rcases hrunning hstate with hold | hnot
        · exact hsub ▸ hold
        · exact absurd (hsub ▸ hk) hnot
      · exact hin.congr (task_put_of_ne hsub).symm
    have hpointless := hv.idle k hk hold
    cases k with
    | detail =>
        refine ⟨hpointless.1, fun image himage hpending => ?_⟩
        refine (hpointless.2 image himage hpending).congr (task_put_of_ne ?_)
        rintro heq
        rw [← heq] at hsubject
        cases hsubject
    | download ordinal | ocr ordinal sha256 | identify input | save version => exact hpointless
  bindings := hv.bindings

/-- So is one that is queued. -/
theorem Sound.open (hv : v.Sound identifyDigest) (hopens : v.Opens task)
    (hsubject : task.subject = .identify (v.input identifyDigest) ∨
      ∃ version, task.subject = .save version) : (v.put task).Sound identifyDigest := by
  refine hv.put ?_ (fun _ => .inl hopens.waits) (fun input hinput _ => ?_) fun hrunning => .inl ?_
  · rcases hsubject with h | ⟨version, h⟩
    · rw [h]
      rfl
    · rw [h]
      rfl
  · rcases hsubject with h | ⟨version, h⟩
    · exact Subject.identify.inj (hinput.symm.trans h)
    · rw [h] at hinput
      cases hinput
  · rcases hopens with hpending | ⟨-, hsame⟩
    · rw [hpending] at hrunning
      cases hrunning
    · exact ⟨task, hsame, hrunning⟩

omit [DecidableEq Digest] in
theorem Staged.empty (h : v.Staged identifyDigest) (hearly : Early v.state) : v.Empty := by
  rw [Staged] at h
  rcases hearly with hstate | hstate | hstate <;> rw [hstate] at h <;> exact h.1

omit [DecidableEq Digest] in
theorem Staged.late (h : v.Staged identifyDigest) (htask : v.task k ≠ none) (hk : k ≠ .detail) :
    ¬Early v.state :=
  fun hearly => hk ((h.empty hearly).tasks k htask)

/-- A detail is filed, for a note with images. -/
theorem Staged.put_detail (h : v.Staged identifyDigest) (hsubject : task.subject = .detail)
    (hlate : ¬Early v.state) : (v.put task).Staged identifyDigest := by
  refine h.congr rfl rfl rfl rfl (fun hearly => absurd hearly hlate) (.inl (task_put_of_ne ?_))
    fun _ => .inl (task_put_of_ne ?_)
  · rw [hsubject]
    exact nofun
  · rw [hsubject]
    exact nofun

/-- An identification is filed, other than the one that the note was identified by. -/
theorem Staged.put_identify {input : Digest} (h : v.Staged identifyDigest)
    (hsubject : task.subject = .identify input) (hlate : ¬Early v.state)
    (hnot : ¬v.Known (.identify input))
    (hstate : v.state = .ocrDone → input = v.input identifyDigest →
      v.HasFailed ∨ (task.state = .pending ∨ task.state = .running) ∨ task.state = .failed) :
    (v.put task).Staged identifyDigest := by
  have hsave : Steady v (v.put task) (.save (v.contentVersion + 1)) :=
    .inl (task_put_of_ne (by rw [hsubject]; exact nofun))
  by_cases hinput : input = v.input identifyDigest
  · subst hinput
    rw [Staged] at h ⊢
    rw [state_put]
    cases hnote : v.state with
    | discovered => exact absurd (.inl hnote) hlate
    | failed => exact absurd (.inr (.inl hnote)) hlate
    | unsupported => exact absurd (.inr (.inr hnote)) hlate
    | detailOk | assetsDone =>
        rw [hnote] at h
        exact h
    | ocrDone =>
        rw [hnote] at h
        refine ⟨h.1, h.2.1, (hstate hnote rfl).imp_right (.imp (waits_put hsubject) ?_)⟩
        exact fun hfailed => ⟨task, task_put hsubject, hfailed⟩
    | identified =>
        rw [hnote] at h
        exact absurd h.2.2.1 hnot
    | saved =>
        rw [hnote] at h
        exact absurd h.2.2 hnot
  · refine h.congr rfl rfl rfl rfl (fun hearly => absurd hearly hlate)
      (.inl (task_put_of_ne fun heq => ?_)) fun _ => hsave
    exact hinput (Subject.identify.inj (hsubject.symm.trans heq.symm))

/-- A save is filed. -/
theorem Staged.put_save {version : ℕ} (h : v.Staged identifyDigest)
    (hsubject : task.subject = .save version) (hlate : ¬Early v.state)
    (hstate : v.state = .identified → version = v.contentVersion + 1 →
      (task.state = .pending ∨ task.state = .running) ∨ task.state = .failed ∨
        task.state = .done ∧ task.answer = some .skipped) :
    (v.put task).Staged identifyDigest := by
  have hidentify : Steady v (v.put task) (.identify (v.input identifyDigest)) :=
    .inl (task_put_of_ne (by rw [hsubject]; exact nofun))
  by_cases hversion : v.state = .identified ∧ version = v.contentVersion + 1
  · obtain ⟨hnote, rfl⟩ := hversion
    rw [Staged] at h ⊢
    rw [state_put, hnote]
    rw [hnote] at h
    refine ⟨h.1, h.2.1, h.2.2.1.steady hidentify, (hstate hnote rfl).imp ?_ (.imp ?_ ?_)⟩
    · exact waits_put hsubject
    · exact fun hfailed => ⟨task, task_put hsubject, hfailed⟩
    · exact fun hskipped => ⟨task, task_put hsubject, hskipped⟩
  · refine h.congr rfl rfl rfl rfl (fun hearly => absurd hearly hlate) hidentify fun hnote =>
      .inl (task_put_of_ne fun heq => hversion ⟨hnote, ?_⟩)
    exact (Subject.save.inj (heq.trans hsubject)).symm

/-- An identification that was there ends, or is made due again. -/
theorem Good.put_identify {input : Digest} (hv : v.Good identifyDigest)
    (hsubject : task.subject = .identify input) (htask : v.task (.identify input) ≠ none)
    (hnot : ¬v.Known (.identify input)) (hrunning : task.state ≠ .running)
    (hstate : v.state = .ocrDone → input = v.input identifyDigest →
      v.HasFailed ∨ task.state = .pending ∨ task.state = .failed) :
    (v.put task).Good identifyDigest := by
  refine ⟨hv.toSound.put (by rw [hsubject]; rfl) (fun hdetail => ?_) (fun other hinput hnone => ?_)
    (fun hrun => absurd hrun hrunning),
    hv.staged.put_identify hsubject (hv.staged.late htask nofun) hnot fun hnote hinput =>
      (hstate hnote hinput).imp_right (.imp_left .inl)⟩
  · rw [hsubject] at hdetail
    cases hdetail
  · rw [← hinput, hsubject] at hnone
    exact absurd hnone htask

/-- A save ends, or is queued. -/
theorem Good.put_save {version : ℕ} (hv : v.Good identifyDigest)
    (hsubject : task.subject = .save version) (hlate : ¬Early v.state)
    (hrunning : task.state = .running → v.In (.save version) .running)
    (hstate : v.state = .identified → version = v.contentVersion + 1 →
      (task.state = .pending ∨ task.state = .running) ∨ task.state = .failed ∨
        task.state = .done ∧ task.answer = some .skipped) : (v.put task).Good identifyDigest := by
  refine ⟨hv.toSound.put (by rw [hsubject]; rfl) (fun hdetail => ?_) (fun input hinput _ => ?_)
    (fun hrun => .inl ?_), hv.staged.put_save hsubject hlate hstate⟩
  · rw [hsubject] at hdetail
    cases hdetail
  · rw [hsubject] at hinput
    cases hinput
  · rw [hsubject]
    exact hrunning hrun

/-! ## Moving on -/

/-- A note that is moved on has its stage. -/
theorem Advance.good (hv : v.Sound identifyDigest)
    (hstage : v.Moving ∨ v.Staged identifyDigest) (h : Advance identifyDigest v v') :
    v'.Good identifyDigest := by
  have hfetched : v.state = .detailOk ∧ v.AllFetched ∨ v.state = .assetsDone → v.AllFetched := by
    rintro (⟨-, hfetched⟩ | hstate)
    · exact hfetched
    · rcases hstage with (hmoving | ⟨-, hfetched⟩) | hstaged
      · rw [hstate] at hmoving
        cases hmoving
      · exact hfetched
      · rw [Staged, hstate] at hstaged
        exact hstaged.1
  cases h with
  | stays hnotFetched hnotRead =>
      refine ⟨hv, ?_⟩
      rcases hstage with (hstate | ⟨hstate, hall⟩) | hstaged
      · rw [Staged, hstate]
        exact fun hall => hnotFetched ⟨hstate, hall⟩
      · rw [Staged, hstate]
        exact ⟨hall, fun hread => hnotRead ⟨hstate, hread⟩⟩
      · exact hstaged
  | fetched hstate hall hnotRead => exact ⟨hv.moved (by simp), hall, hnotRead⟩
  | read hstate hread hsubject hopens _ =>
      refine ⟨(hv.moved (by simp)).open hopens (.inl hsubject), hfetched hstate, hread,
        .inr (.inl ?_)⟩
      exact waits_put hsubject hopens.waits
  | known hstate hread hdone hsubject hopens =>
      refine ⟨(hv.moved (by simp)).open hopens (.inr ⟨_, hsubject⟩), hfetched hstate, hread, ?_,
        .inl (waits_put hsubject hopens.waits)⟩
      exact hdone.steady (.inl (task_put_of_ne (by rw [hsubject]; exact nofun)))

/-- Another task that is filed makes no difference. -/
theorem Advance.put (h : Advance identifyDigest v v')
    (hidentify : ∀ input, task.subject ≠ .identify input)
    (hsave : ∀ version, task.subject ≠ .save version) :
    Advance identifyDigest (v.put task) (v'.put task) := by
  have hother : ∀ {t : Task Digest}, v.Opens t → t.subject ≠ task.subject →
      (v.put task).Opens t := fun hopens hne =>
    hopens.imp_right fun ⟨hrunning, hsame⟩ => ⟨hrunning, (task_put_of_ne hne).trans hsame⟩
  cases h with
  | stays hnotFetched hnotRead => exact .stays hnotFetched hnotRead
  | fetched hstate hall hnotRead => exact .fetched hstate hall hnotRead
  | @read t hstate hread hsubject hopens hnot =>
      have hne : t.subject ≠ task.subject := hsubject ▸ (hidentify _).symm
      rw [put_comm hne]
      refine .read hstate hread hsubject (hother hopens hne) fun hknown => hnot ?_
      exact hknown.steady (.inl (task_put_of_ne hne).symm)
  | @known t hstate hread hdone hsubject hopens =>
      have hne : t.subject ≠ task.subject := hsubject ▸ (hsave _).symm
      rw [put_comm hne]
      exact .known hstate hread (hdone.steady (.inl (task_put_of_ne (hidentify _).symm))) hsubject
        (hother hopens hne)

end View

end Cortex.Notes
