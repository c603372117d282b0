import Cortex.Notes.Records

/-!
# Retries

A failed image has a failed task, so its retry resets that task and takes the note back to the
stage of the image.  No retry of a failed task is an error, and one that is not refused leaves a
task that waits.
-/

namespace Cortex.Notes

open Control Time Transaction View
open Fallback (NoteState TaskState)

variable {Digest : Type} [DecidableEq Digest] {identifyDigest : Text → List (ℕ × Text) → Digest}
  {f f₁ f' : Folder Digest} {v : View Digest} {k : Subject Digest} {task : Task Digest}
  {image : Image} {ordinal version : ℕ} {sha256 : Text} {now : Stamp}

/-! ## Images -/

/-- The image as a retry of its download leaves it. -/
def refetched (image : Image) : Image :=
  { image with
    downloadState := .pending, downloadError := none
    ocrState := .pending, ocrError := none, ocrTextSha256 := none }

/-- The image as a retry of its transcription leaves it. -/
def reread (image : Image) : Image :=
  { image with ocrState := .pending, ocrError := none, ocrTextSha256 := none }

/-- What a retried image was, and what is left to be reset. -/
theorem clearImage_eq_ok {r : Folder.Retry Digest} (h : f.clearImage ordinal = .ok r) :
    f.note.state ∈ noteOrder ∧ ∃ image, (view f).images.get? ordinal = some image ∧
      (image.downloadState = .failed ∧ view r.folder = (view f).putImage (refetched image) ∧
          r.subject = .download ordinal ∧ r.stage = .detailOk ∨
        image.downloadState ≠ .failed ∧ image.ocrState = .failed ∧
          view r.folder = (view f).putImage (reread image) ∧ r.stage = .assetsDone ∧
          ∃ sha256, image.sha256 = some sha256 ∧ r.subject = .ocr ordinal sha256) := by
  simp only [Folder.clearImage, bind_eq_ok, require_eq_ok] at h
  obtain ⟨image, himage, -, hstate, h⟩ := h
  refine ⟨hstate, image, image_eq_ok.1 himage, ?_⟩
  split at h
  · rename_i hfailed
    simp only [bind_eq_ok, orRaise_eq_ok, pure_eq_ok] at h
    obtain ⟨task, -, rfl⟩ := h
    exact .inl ⟨hfailed, view_updateImage himage, rfl, rfl⟩
  · rename_i hnot
    split at h
    · rename_i hfailed
      simp only [bind_eq_ok, orRaise_eq_ok, pure_eq_ok] at h
      obtain ⟨sha256, hsha, rfl⟩ := h
      exact .inr ⟨hnot, hfailed, view_updateImage himage, rfl, sha256, hsha, rfl⟩
    · simp at h

/-- The task of the image waits, and the note is at most at its stage. -/
theorem finish_eq_ok {r : Folder.Retry Digest} (h : r.finish now = .ok f') :
    ∃ task : Task Digest, task.subject = r.subject ∧ task.state = .pending ∧
      (noteOrder.idxOf r.stage < noteOrder.idxOf r.folder.note.state ∧
          view f' = ((view r.folder).put task).moved r.stage ∨
        noteOrder.idxOf r.folder.note.state ≤ noteOrder.idxOf r.stage ∧
          view f' = (view r.folder).put task) := by
  simp only [Folder.Retry.finish, bind_eq_ok] at h
  obtain ⟨f₁, hreset, h⟩ := h
  obtain ⟨-, task, -, -, hsubject, hpending, hview, -⟩ := resetTask_eq_ok hreset
  have hstate : f₁.note.state = r.folder.note.state := congrArg View.state hview
  refine ⟨task, hsubject, hpending, ?_⟩
  rw [hstate] at h
  split at h
  · rename_i hlt
    simp only [pure_eq_ok] at h
    subst h
    refine .inl ⟨hlt, ?_⟩
    rw [← hview]
    rfl
  · rename_i hnot
    simp only [pure_eq_ok] at h
    subst h
    exact .inr ⟨not_lt.1 hnot, hview⟩

/-- An image that failed to download waits for it again, and the note with it. -/
theorem good_refetched (hv : v.Good identifyDigest)
    (hget : v.images.get? image.ordinal = some image) (hfailed : image.downloadState = .failed)
    (hsubject : task.subject = .download image.ordinal) (hdue : task.state = .pending) :
    (((v.putImage (refetched image)).put task).moved .detailOk).Good identifyDigest := by
  have hmem := (mem_of_get? hget).1
  have hblank := (hv.kept image hmem).blank (by rw [hfailed]; decide)
  have hne : v.images.get? (refetched image).ordinal ≠ none := by
    rw [refetched, hget]
    exact Option.some_ne_none _
  have hfiles : Files v ((v.putImage (refetched image)).put task) (refetched image) :=
    (Files.putImage hne).put (by rw [hsubject]; rfl)
  have hwaits : ((v.putImage (refetched image)).put task).Waits (.download image.ordinal) :=
    waits_put hsubject (.inl hdue)
  have hsound : ((v.putImage (refetched image)).put task).Sound identifyDigest := by
    refine hv.toSound.file_blank hfiles (fun other hother hordinal => ?_)
      ⟨nofun, hblank.sha256, rfl, rfl⟩
      (fun sha256 => task_put_of_ne (by rw [hsubject]; exact nofun)) (.inl hwaits)
      (fun hin => ?_) fun _ _ => hwaits
    · rwa [eq_of_ordinal hget hother hordinal]
    · cases hin.unique ⟨task, task_put hsubject, hdue⟩
  refine ⟨hsound.moved (by simp), fun hfetched => ?_⟩
  exact hfetched (refetched image) ((hfiles.images _).2 (.inl rfl)) rfl

/-- So does one whose transcription failed. -/
theorem sound_reread (hv : v.Sound identifyDigest)
    (hget : v.images.get? image.ordinal = some image) (hfailed : image.ocrState = .failed)
    (hsha : image.sha256 = some sha256) (hok : image.downloadState = .ok)
    (hsubject : task.subject = .ocr image.ordinal sha256) (hdue : task.state = .pending) :
    ((v.putImage (reread image)).put task).Sound identifyDigest := by
  have hne : v.images.get? (reread image).ordinal ≠ none := by
    rw [reread, hget]
    exact Option.some_ne_none _
  exact hv.file_ocr hget hsha hok (by rw [hfailed]; decide) rfl hsha hok ⟨nofun, nofun⟩ hsubject
    (by rw [hdue]; decide) (waits_put hsubject (.inl hdue))
    fun input _ _ => ⟨reread image, (mem_putImage hne).2 (.inl rfl), nofun⟩

/-- A note that waits for downloads goes on doing so. -/
theorem staged_reread_detailOk (hv : v.Staged identifyDigest)
    (hget : v.images.get? image.ordinal = some image) (hok : image.downloadState = .ok)
    (hstate : v.state = .detailOk) :
    ((v.putImage (reread image)).put task).Staged identifyDigest := by
  have hne : v.images.get? (reread image).ordinal ≠ none := by
    rw [reread, hget]
    exact Option.some_ne_none _
  rw [Staged, hstate] at hv
  have hfetched : ¬v.AllFetched := hv
  rw [Staged, state_put, state_putImage, hstate]
  refine fun hall => hfetched fun other hother hpending => ?_
  by_cases hordinal : other.ordinal = image.ordinal
  · rw [eq_of_ordinal hget hother hordinal, hok] at hpending
    cases hpending
  · exact hall other ((mem_putImage hne).2 (.inr ⟨hother, hordinal⟩)) hpending

/-- Any other waits for its transcriptions again. -/
theorem staged_reread (hv : v.Staged identifyDigest)
    (hget : v.images.get? image.ordinal = some image) (hok : image.downloadState = .ok)
    (hstate : v.state ≠ .detailOk) :
    (((v.putImage (reread image)).put task).moved .assetsDone).Staged identifyDigest := by
  have hmem := (mem_of_get? hget).1
  have hne : v.images.get? (reread image).ordinal ≠ none := by
    rw [reread, hget]
    exact Option.some_ne_none _
  have hfetched : v.AllFetched := by
    rcases hv.of_mem hmem with hdetail | ⟨-, hfetched⟩ | ⟨hfetched, -⟩
    · exact absurd hdetail hstate
    · exact hfetched
    · exact hfetched
  refine ⟨fun other hother => ?_, fun hread => ?_⟩
  · rcases (mem_putImage hne).1 hother with rfl | ⟨hother, -⟩
    · exact hfetched image hmem
    · exact hfetched other hother
  · rcases hread (reread image) ((mem_putImage hne).2 (.inl rfl)) with hfailed | hnot
    · rw [reread, hok] at hfailed
      cases hfailed
    · exact hnot rfl

omit [DecidableEq Digest] in
theorem moved_self {state : NoteState} (h : v.state = state) : v.moved state = v := by
  subst h
  rfl

omit [DecidableEq Digest] in
/-- A failed transcription is that of a fetched image. -/
theorem fetched_of_unread (hv : v.Sound identifyDigest) (hmem : image ∈ v.images)
    (hsha : image.sha256 = some sha256) : image.downloadState = .ok :=
  (hv.kept image hmem).fetched.1 (by rw [hsha]; rfl)

/-- An image that is retried. -/
theorem good_finish {r : Folder.Retry Digest} (hv : (view f).Good identifyDigest)
    (hclear : f.clearImage ordinal = .ok r) (h : r.finish now = .ok f') :
    (view f').Good identifyDigest ∧ (view f').Waits r.subject := by
  obtain ⟨hnote, image, hget, hcases⟩ := clearImage_eq_ok hclear
  obtain ⟨task, hsubject, hdue, hfinish⟩ := finish_eq_ok h
  obtain ⟨hmem, rfl⟩ := mem_of_get? hget
  have hstate : r.folder.note.state = f.note.state := by
    rcases hcases with ⟨-, hview, -⟩ | ⟨-, -, hview, -⟩ <;> exact congrArg View.state hview
  rw [hstate] at hfinish
  have hwaits : (view f').Waits r.subject := by
    rcases hfinish with ⟨-, hview⟩ | ⟨-, hview⟩ <;> rw [hview] <;>
      exact waits_put hsubject (.inl hdue)
  refine ⟨?_, hwaits⟩
  rcases hcases with ⟨hfailed, hview, hsub, hstage⟩ |
    ⟨-, hfailed, hview, hstage, sha256, hsha, hsub⟩
  · rw [hsub] at hsubject
    have hgood := good_refetched hv hget hfailed hsubject hdue
    rcases hfinish with ⟨-, hview'⟩ | ⟨hle, hview'⟩
    · rwa [hview', hstage, hview]
    · have hdetail : f.note.state = .detailOk := by
        rw [hstage] at hle
        revert hle hnote
        generalize f.note.state = state
        cases state <;> decide
      rw [moved_self hdetail] at hgood
      rwa [hview', hview]
  · rw [hsub] at hsubject
    have hok := fetched_of_unread hv.toSound hmem hsha
    have hsound := sound_reread hv.toSound hget hfailed hsha hok hsubject hdue
    rcases hfinish with ⟨hlt, hview'⟩ | ⟨hle, hview'⟩
    · have hnot : (view f).state ≠ .detailOk := by
        change f.note.state ≠ .detailOk
        intro hdetail
        rw [hstage, hdetail] at hlt
        revert hlt
        decide
      rw [hview', hstage, hview]
      exact ⟨hsound.moved (by simp), staged_reread hv.staged hget hok hnot⟩
    · rw [hview', hview]
      by_cases hdetail : (view f).state = .detailOk
      · exact ⟨hsound, staged_reread_detailOk hv.staged hget hok hdetail⟩
      · have hassets : f.note.state = .assetsDone := by
          have hdetail : f.note.state ≠ .detailOk := hdetail
          rw [hstage] at hle
          revert hle hnote hdetail
          generalize f.note.state = state
          cases state <;> decide
        refine ⟨hsound, ?_⟩
        have hstaged : ((((view f).putImage (reread image)).put task).moved .assetsDone).Staged
            identifyDigest := staged_reread hv.staged hget hok hdetail
        rwa [moved_self hassets] at hstaged

/-! ## Retries are not refused -/

theorem resetTask_ok (hget : (view f).task k = some task) (hstate : task.state ≠ .running)
    (download : Option Download) (now : Stamp) : ∃ f', f.resetTask k download now = .ok f' := by
  have hget : f.tasks.get? k = some task := hget
  unfold Folder.resetTask
  rw [hget]
  simp only [orRaise, ok_bind, require, if_pos hstate]
  split <;> exact ⟨_, rfl⟩

/-- An image has a failed download, or a failed transcription of what was downloaded. -/
def Failed (image : Image) : Prop :=
  image.downloadState = .failed ∨ image.downloadState ≠ .failed ∧ image.ocrState = .failed

omit [DecidableEq Digest] in
/-- The task that a retry of the image resets. -/
theorem exists_failed_task (hv : v.Sound identifyDigest) (hmem : image ∈ v.images)
    (hfailed : Failed image) :
    image.downloadState = .failed ∧ v.In (.download image.ordinal) .failed ∨
      ∃ sha256, image.sha256 = some sha256 ∧ image.downloadState = .ok ∧ image.ocrState = .failed ∧
        v.In (.ocr image.ordinal sha256) .failed := by
  have hkept := hv.kept image hmem
  rcases hfailed with hdownload | ⟨-, hocr⟩
  · rcases hkept.fetch with hmatches | ⟨hpending, -⟩
    · rw [hdownload] at hmatches
      exact .inl ⟨hdownload, hmatches⟩
    · rw [hdownload] at hpending
      cases hpending
  · cases hsha : image.sha256 with
    | none =>
        rw [hkept.unread hsha] at hocr
        cases hocr
    | some sha256 =>
        have hmatches := hkept.read sha256 hsha
        rw [hocr] at hmatches
        exact .inr ⟨sha256, rfl, fetched_of_unread hv hmem hsha, hocr, hmatches⟩

omit [DecidableEq Digest] in
theorem mem_noteOrder_of_mem (hv : v.Staged identifyDigest) (hmem : image ∈ v.images) :
    v.state ∈ noteOrder := by
  cases hstate : v.state with
  | discovered => exact absurd hmem ((hv.empty (.inl hstate)).images image)
  | failed => exact absurd hmem ((hv.empty (.inr (.inl hstate))).images image)
  | unsupported => exact absurd hmem ((hv.empty (.inr (.inr hstate))).images image)
  | detailOk | assetsDone | ocrDone | identified | saved => decide

/-- A failed image can be retried. -/
theorem retryImage_ok (hv : (view f).Good identifyDigest)
    (hget : (view f).images.get? ordinal = some image) (hfailed : Failed image) (now : Stamp) :
    ∃ r f', f.clearImage ordinal = .ok r ∧ r.finish now = .ok f' := by
  obtain ⟨hmem, rfl⟩ := mem_of_get? hget
  have hnote : f.note.state ∈ noteOrder := mem_noteOrder_of_mem hv.staged hmem
  have himage : f.image image.ordinal = .ok image := image_eq_ok.2 hget
  have hclear : ∃ r, f.clearImage image.ordinal = .ok r ∧ (view f).In r.subject .failed := by
    simp only [Folder.clearImage, himage, ok_bind, require, if_pos hnote]
    rcases exists_failed_task hv.toSound hmem hfailed with
      ⟨hdownload, hin⟩ | ⟨sha256, hsha, hok, hocr, hin⟩
    · obtain ⟨task, htask, hstate⟩ := hin
      have htask' : f.tasks.get? (.download image.ordinal) = some task := htask
      rw [if_pos hdownload, htask']
      exact ⟨_, rfl, task, htask, hstate⟩
    · rw [if_neg (by rw [hok]; decide), if_pos hocr, hsha]
      exact ⟨_, rfl, hin⟩
  obtain ⟨r, hclear, task, htask, hstate⟩ := hclear
  have hsame : (view r.folder).task r.subject = some task := by
    obtain ⟨-, image, -, ⟨-, hview, -⟩ | ⟨-, -, hview, -⟩⟩ := clearImage_eq_ok hclear <;>
      rw [hview] <;> exact htask
  obtain ⟨f₁, hreset⟩ := resetTask_ok hsame (by rw [hstate]; decide) r.download now
  refine ⟨r, ?_⟩
  simp only [hclear, true_and, Folder.Retry.finish, hreset, ok_bind]
  split <;> exact ⟨_, rfl⟩

/-- What the retry of a failed task comes to. -/
structure Retried (identifyDigest : Text → List (ℕ × Text) → Digest) (f : Folder Digest)
    (k : Subject Digest) (f' : Folder Digest) (retried : Bool) : Prop where
  good : (view f').Good identifyDigest
  refused : retried = false → f' = f
  waits : retried = true → (view f').Waits k

theorem retryByTask_ok (hv : (view f).Good identifyDigest)
    (hget : (view f).images.get? ordinal = some image) (hfailed : Failed image)
    (hk : image.downloadState = .failed ∧ k = .download ordinal ∨
      image.downloadState ≠ .failed ∧ ∀ sha256 ∈ image.sha256, k = .ocr ordinal sha256)
    (now : Stamp) : ∃ f', f.retryByTask ordinal now = .ok (f', true) ∧
      (view f').Good identifyDigest ∧ (view f').Waits k := by
  obtain ⟨r, f', hclear, hfinish⟩ := retryImage_ok hv hget hfailed now
  obtain ⟨hgood, hwaits⟩ := good_finish hv hclear hfinish
  have hsubject : r.subject = k := by
    obtain ⟨-, image', hget', hcases⟩ := clearImage_eq_ok hclear
    obtain rfl := Option.some.inj (hget'.symm.trans hget)
    rcases hcases with ⟨hdownload, -, hsubject, -⟩ | ⟨hnot, -, -, -, sha256, hsha, hsubject⟩
    · rcases hk with ⟨-, rfl⟩ | ⟨hother, -⟩
      · exact hsubject
      · exact absurd hdownload hother
    · rcases hk with ⟨hdownload, -⟩ | ⟨-, hocr⟩
      · exact absurd hdownload hnot
      · rw [hsubject, hocr sha256 hsha]
  refine ⟨f', ?_, hgood, hsubject ▸ hwaits⟩
  simp only [Folder.retryByTask, hclear, hfinish]
  rfl

/-- The retry of a failed task is no error, and leaves it waiting unless it is refused. -/
theorem retryTask_ok (hv : (view f).Good identifyDigest) (hfailed : (view f).In k .failed)
    (now : Stamp) : ∃ f' retried, f.retryTask k now = .ok (f', retried) ∧
      Retried identifyDigest f k f' retried := by
  have hrefused : ∃ f' retried, (pure (f, false) : Except StoreError (Folder Digest × Bool)) =
      .ok (f', retried) ∧ Retried identifyDigest f k f' retried :=
    ⟨f, false, rfl, hv, fun _ => rfl, nofun⟩
  obtain ⟨task, htask, hstate⟩ := hfailed
  have hreset : ∀ g : Note → Note, ∃ f', (f.updateNote g).resetTask k none now = .ok f' :=
    fun g => resetTask_ok (f := f.updateNote g) htask (by rw [hstate]; decide) none now
  cases k with
  | download ordinal =>
      obtain ⟨image, hget⟩ := Option.ne_none_iff_exists'.1
        (hv.downloads ordinal (by rw [htask]; exact Option.some_ne_none _))
      simp only [Folder.retryTask, image_eq_ok.2 hget, ok_bind]
      split
      · exact hrefused
      · rename_i hdownload
        have hdownload : image.downloadState = .failed := not_not.1 hdownload
        obtain ⟨f', hretry, hgood, hwaits⟩ :=
          retryByTask_ok hv hget (.inl hdownload) (.inl ⟨hdownload, rfl⟩) now
        exact ⟨f', true, hretry, hgood, nofun, fun _ => hwaits⟩
  | ocr ordinal sha256 =>
      obtain ⟨image, hget, hsha⟩ :=
        hv.ocrs ordinal sha256 (by rw [htask]; exact Option.some_ne_none _)
      simp only [Folder.retryTask, image_eq_ok.2 hget, ok_bind]
      split
      · exact hrefused
      · rename_i hcause
        have hdownload : image.downloadState ≠ .failed := fun hdownload =>
          hcause (.inl (by rw [hdownload]; decide))
        have hocr : image.ocrState = .failed := not_not.1 fun hnot => hcause (.inr (.inl hnot))
        have hkey : ∀ sha ∈ image.sha256, Subject.ocr ordinal sha256 = (.ocr ordinal sha :
            Subject Digest) := fun sha hsha' =>
          congrArg (Subject.ocr ordinal) (Option.some.inj (hsha.symm.trans hsha'))
        obtain ⟨f', hretry, hgood, hwaits⟩ :=
          retryByTask_ok hv hget (.inr ⟨hdownload, hocr⟩) (.inr ⟨hdownload, hkey⟩) now
        exact ⟨f', true, hretry, hgood, nofun, fun _ => hwaits⟩
  | detail =>
      simp only [Folder.retryTask]
      split
      · exact hrefused
      · rename_i hnote
        have hnote : (view f).state = .failed := not_not.1 hnote
        obtain ⟨f', hreset⟩ := hreset fun note =>
          { note with state := .discovered, lastError := none }
        simp only [hreset, ok_bind]
        obtain ⟨-, due, -, -, hsubject, hdue, hview, -⟩ := resetTask_eq_ok hreset
        have hempty := hv.staged.empty (.inr (.inl hnote))
        have hmoved : ((view f).moved .discovered).Sound identifyDigest :=
          hv.toSound.moved fun _ => .inr fun hrunning => by
            cases hrunning.unique ⟨task, htask, hstate⟩
        have hview : view f' = ((view f).moved .discovered).put due := hview
        have hwaits : (view f').Waits .detail := by
          rw [hview]
          exact waits_put hsubject (.inl hdue)
        refine ⟨f', true, rfl, ?_, nofun, fun _ => hwaits⟩
        rw [hview] at hwaits ⊢
        refine ⟨hmoved.put (by rw [hsubject]; rfl) (fun _ => .inl (.inl hdue))
          (fun input hinput => ?_) (fun hrun => ?_), ⟨hempty.images, fun k hk => ?_⟩, hwaits⟩
        · rw [hsubject] at hinput
          cases hinput
        · rw [hdue] at hrun
          cases hrun
        · by_contra hne
          refine hne (hempty.tasks k ?_)
          rwa [task_put_of_ne fun heq => hne (heq.trans hsubject)] at hk
  | identify input =>
      simp only [Folder.retryTask]
      split
      · exact hrefused
      · obtain ⟨f', hreset⟩ := hreset fun note => { note with lastError := none }
        simp only [hreset, ok_bind]
        obtain ⟨-, due, -, -, hsubject, hdue, hview, -⟩ := resetTask_eq_ok hreset
        have hview : view f' = (view f).put due := hview
        refine ⟨f', true, rfl, ?_, nofun, fun _ => ?_⟩
        · rw [hview]
          exact hv.put_identify hsubject (by rw [htask]; exact Option.some_ne_none _)
            (fun hknown => by cases hknown.done.unique ⟨task, htask, hstate⟩)
            (by rw [hdue]; decide) fun _ _ => .inr (.inl hdue)
        · rw [hview]
          exact waits_put hsubject (.inl hdue)
  | save version =>
      simp only [Folder.retryTask]
      split
      · exact hrefused
      · obtain ⟨f', hreset⟩ := hreset fun note => { note with lastError := none }
        simp only [hreset, ok_bind]
        obtain ⟨-, due, -, -, hsubject, hdue, hview, -⟩ := resetTask_eq_ok hreset
        have hview : view f' = (view f).put due := hview
        refine ⟨f', true, rfl, ?_, nofun, fun _ => ?_⟩
        · rw [hview]
          have hsave : (view f).task (.save version) ≠ none := by
            rw [htask]
            exact Option.some_ne_none _
          exact hv.put_save hsubject (hv.staged.late hsave nofun)
            (fun hrun => by rw [hdue] at hrun; cases hrun) fun _ _ => .inl (.inl hdue)
        · rw [hview]
          exact waits_put hsubject (.inl hdue)

/-! ## The retry of every failed task -/

/-- A task of the note waits to run, or runs. -/
def Busy (f : Folder Digest) : Prop := ∃ k, (view f).Waits k

theorem retryIfFailed_ok (hv : (view f).Good identifyDigest) (k : Subject Digest) (now : Stamp) :
    ∃ f', Folder.retryIfFailed now f k = .ok f' ∧ (view f').Good identifyDigest ∧
      (Busy f' ∨ f' = f ∧ ((view f).In k .failed → ∀ f₁, f.retryTask k now ≠ .ok (f₁, true))) := by
  unfold Folder.retryIfFailed
  split
  · rename_i hany
    obtain ⟨task, htask, hstate⟩ := (Option.any_eq_true _ _).1 hany
    obtain ⟨f', retried, hretry, hretried⟩ :=
      retryTask_ok hv ⟨task, htask, of_decide_eq_true hstate⟩ now
    refine ⟨f', by rw [hretry]; rfl, hretried.good, ?_⟩
    cases retried with
    | true => exact .inl ⟨k, hretried.waits rfl⟩
    | false =>
        refine .inr ⟨hretried.refused rfl, fun _ f₁ hother => ?_⟩
        rw [hretry] at hother
        cases hother
  · rename_i hnot
    refine ⟨f, rfl, hv, .inr ⟨rfl, fun hfailed => absurd ?_ hnot⟩⟩
    obtain ⟨task, htask, hstate⟩ := hfailed
    exact (Option.any_eq_true _ _).2 ⟨task, htask, decide_eq_true hstate⟩

theorem retryAll_ok (hv : (view f).Good identifyDigest) (l : List (Subject Digest)) (now : Stamp) :
    ∃ f', l.foldlM (Folder.retryIfFailed now) f = .ok f' ∧ (view f').Good identifyDigest ∧
      (Busy f' ∨ f' = f ∧
        ∀ k ∈ l, (view f).In k .failed → ∀ f₁, f.retryTask k now ≠ .ok (f₁, true)) := by
  induction l generalizing f with
  | nil => exact ⟨f, rfl, hv, .inr ⟨rfl, nofun⟩⟩
  | cons k rest ih =>
      obtain ⟨f₁, hretry, hgood, hhead⟩ := retryIfFailed_ok hv k now
      obtain ⟨f', hrest, hgood', htail⟩ := ih hgood
      refine ⟨f', by rw [List.foldlM_cons, hretry]; exact hrest, hgood', ?_⟩
      rcases hhead with hbusy | ⟨rfl, hrefused⟩
      · rcases htail with hbusy' | ⟨rfl, -⟩
        · exact .inl hbusy'
        · exact .inl hbusy
      · refine htail.imp_right fun ⟨hsame, hothers⟩ => ⟨hsame, fun other hmem => ?_⟩
        rcases List.mem_cons.1 hmem with rfl | hmem
        · exact hrefused
        · exact hothers other hmem

/-- The retry of every failed task commits, and leaves the note busy unless each was refused. -/
theorem retryFailed_ok (hv : (view f).Good identifyDigest) (now : Stamp) :
    ∃ f', f.retryFailed (fun _ => true) now = .ok f' ∧ (view f').Good identifyDigest ∧
      (Busy f' ∨ f' = f ∧
        ∀ k, (view f).In k .failed → ∀ f₁, f.retryTask k now ≠ .ok (f₁, true)) := by
  obtain ⟨f', hretry, hgood, hcases⟩ := retryAll_ok hv
    ((f.tasks.rows.filter fun task => task.state = .failed ∧ true = true).map Task.subject) now
  refine ⟨f', hretry, hgood, hcases.imp_right fun ⟨hsame, hrefused⟩ => ⟨hsame, fun k hk => ?_⟩⟩
  obtain ⟨task, htask, hstate⟩ := hk
  obtain ⟨hmem, rfl⟩ := Table.get?_eq_some.1 htask
  refine hrefused _ (List.mem_map.2 ⟨task, ?_, rfl⟩) ⟨task, htask, hstate⟩
  exact List.mem_filter.2 ⟨hmem, by simp [hstate]⟩

end Cortex.Notes
