import Cortex.Notes.Pipeline

/-!
# No note is stranded

A note that is neither saved nor unsupported has a task that waits or runs, or a failed one whose
retry is accepted, in every folder that a run reaches.  There is one exception: a save that ended
without a word because its worker had found, earlier in its lease, that there was nothing to save.
-/

namespace Cortex.Notes

open Control Time Transaction View
open Fallback (NoteState TaskState)

variable {Digest : Type} [DecidableEq Digest] {identifyDigest : Text → List (ℕ × Text) → Digest}
  {f f' start : Folder Digest} {k : Subject Digest} {commands : List (Command Digest)}
  {supported : Bool} {caption : Text} {now : Stamp}

/-- The note is on its way to its first version, or to a later one. -/
def Unfinished (f : Folder Digest) : Prop :=
  f.note.state ≠ .saved ∧ f.note.state ≠ .unsupported

instance (f : Folder Digest) : Decidable (Unfinished f) := by unfold Unfinished; infer_instance

/-- The save of the next version of an identified note ended without a word. -/
def SaveSkipped (f : Folder Digest) : Prop :=
  f.note.state = .identified ∧ (view f).Skipped (.save (f.note.contentVersion + 1))

/-- A failed task can be retried. -/
def Retryable (f : Folder Digest) (k : Subject Digest) (now : Stamp) : Prop :=
  (view f).In k .failed ∧ ∃ f', f.retryTask k now = .ok (f', true)

/-! ## Accepted retries -/

theorem retryable_of_image {image : Image} (hv : (view f).Good identifyDigest)
    (hmem : image ∈ (view f).images) (hfailed : Failed image) (now : Stamp) :
    ∃ k, Retryable f k now := by
  have hget : (view f).images.get? image.ordinal = some image := Table.get?_key hmem
  have himage : f.image image.ordinal = .ok image := image_eq_ok.2 hget
  rcases exists_failed_task hv.toSound hmem hfailed with
    ⟨hdownload, hin⟩ | ⟨sha256, hsha, hok, hocr, hin⟩
  · obtain ⟨f', hretry, -⟩ := retryByTask_ok hv hget hfailed (.inl ⟨hdownload, rfl⟩) now
    refine ⟨_, hin, f', ?_⟩
    simp only [Folder.retryTask, himage, ok_bind]
    rw [if_neg (not_not.2 hdownload)]
    exact hretry
  · have hnot : image.downloadState ≠ .failed := by
      rw [hok]
      decide
    obtain ⟨f', hretry, -⟩ := retryByTask_ok hv hget hfailed
      (.inr ⟨hnot, fun sha hsha' => congrArg (Subject.ocr image.ordinal)
        (Option.some.inj (hsha.symm.trans hsha'))⟩) now
    refine ⟨_, hin, f', ?_⟩
    simp only [Folder.retryTask, himage, ok_bind]
    rw [if_neg (by simp [hok, hocr, hsha])]
    exact hretry

/-- A task of the note itself is reset where the note is in the state that it is retried in. -/
theorem retryable_of_note (hfailed : (view f).In k .failed)
    (hstate : k = .detail ∧ f.note.state = .failed ∨
      (∃ input, k = .identify input) ∧ f.note.state = .ocrDone ∨
      k = .save (f.note.contentVersion + 1) ∧ f.note.state = .identified) (now : Stamp) :
    Retryable f k now := by
  refine ⟨hfailed, ?_⟩
  obtain ⟨task, htask, hfailed⟩ := hfailed
  have hreset : ∀ g : Note → Note, ∃ f', (f.updateNote g).resetTask k none now = .ok f' :=
    fun g => resetTask_ok (f := f.updateNote g) htask (by rw [hfailed]; decide) none now
  rcases hstate with ⟨rfl, hnote⟩ | ⟨⟨input, rfl⟩, hnote⟩ | ⟨rfl, hnote⟩
  · obtain ⟨f', hreset⟩ := hreset fun note => { note with state := .discovered, lastError := none }
    refine ⟨f', ?_⟩
    simp only [Folder.retryTask]
    rw [if_neg (not_not.2 hnote), hreset]
    rfl
  · obtain ⟨f', hreset⟩ := hreset fun note => { note with lastError := none }
    refine ⟨f', ?_⟩
    simp only [Folder.retryTask]
    rw [if_neg (not_not.2 hnote), hreset]
    rfl
  · obtain ⟨f', hreset⟩ := hreset fun note => { note with lastError := none }
    refine ⟨f', ?_⟩
    simp only [Folder.retryTask]
    rw [if_neg (by simp [hnote]), hreset]
    rfl

/-! ## Every stage -/

theorem attended_of_good (hv : (view f).Good identifyDigest) (hunfinished : Unfinished f)
    (now : Stamp) : Busy f ∨ (∃ k, Retryable f k now) ∨ SaveSkipped f := by
  have hstaged := hv.staged
  rw [Staged] at hstaged
  cases hstate : (view f).state with
  | saved => exact absurd hstate hunfinished.1
  | unsupported => exact absurd hstate hunfinished.2
  | discovered =>
      rw [hstate] at hstaged
      exact .inl ⟨_, hstaged.2⟩
  | failed =>
      rw [hstate] at hstaged
      exact .inr (.inl ⟨_, retryable_of_note hstaged.2 (.inl ⟨rfl, hstate⟩) now⟩)
  | detailOk =>
      -- the image that is not fetched has a download, or waits for the detail
      rw [hstate] at hstaged
      have hfetched : ¬∀ image ∈ (view f).images, image.downloadState ≠ .pending := hstaged
      push Not at hfetched
      obtain ⟨image, hmem, hpending⟩ := hfetched
      rcases (hv.kept image hmem).fetch with hmatches | ⟨-, -, hwaits⟩
      · rw [hpending] at hmatches
        exact .inl ⟨_, hmatches⟩
      · exact .inl ⟨_, hwaits⟩
  | assetsDone =>
      rw [hstate] at hstaged
      obtain ⟨hfetched, hread⟩ := hstaged
      have hread : ¬∀ image ∈ (view f).images,
          image.downloadState = .failed ∨ image.ocrState ≠ .pending := hread
      push Not at hread
      obtain ⟨image, hmem, hdownload, hpending⟩ := hread
      have hkept := hv.kept image hmem
      have hok : image.downloadState = .ok := by
        cases hdownload' : image.downloadState with
        | pending => exact absurd hdownload' (hfetched image hmem)
        | ok => rfl
        | failed => exact absurd hdownload' hdownload
      obtain ⟨sha256, hsha⟩ := Option.isSome_iff_exists.1 (hkept.fetched.2 hok)
      have hmatches := hkept.read sha256 hsha
      rw [hpending] at hmatches
      exact .inl ⟨_, hmatches⟩
  | ocrDone =>
      rw [hstate] at hstaged
      rcases hstaged.2.2 with ⟨image, hmem, hfailed⟩ | hwaits | hfailed
      · refine .inr (.inl (retryable_of_image hv hmem (hfailed.imp_right ?_) now))
        rintro ⟨hok, hocr⟩
        exact ⟨by rw [hok]; decide, hocr⟩
      · exact .inl ⟨_, hwaits⟩
      · exact .inr (.inl ⟨_, retryable_of_note hfailed (.inr (.inl ⟨⟨_, rfl⟩, hstate⟩)) now⟩)
  | identified =>
      rw [hstate] at hstaged
      rcases hstaged.2.2.2 with hwaits | hfailed | hskipped
      · exact .inl ⟨_, hwaits⟩
      · exact .inr (.inl ⟨_, retryable_of_note hfailed (.inr (.inr ⟨rfl, hstate⟩)) now⟩)
      · exact .inr (.inr ⟨hstate, hskipped⟩)

/-! ## Every run -/

/-- Whatever the drains and the operator did, somebody comes back to the note, or can be sent. -/
theorem no_note_is_stranded (hinjective : ∀ caption, Function.Injective (identifyDigest caption))
    (hstart : Folder.insertNote supported caption now = .ok start)
    (h : History (Step identifyDigest) start commands f) (hunfinished : Unfinished f)
    (later : Stamp) : Busy f ∨ (∃ k, Retryable f k later) ∨ SaveSkipped f :=
  attended_of_good (good_of_history hinjective hstart h) hunfinished later

theorem no_note_is_stranded_postcard :
    Busy (postcardAfter postcard identifiedPostcard) ∨
      (∃ k, Retryable (postcardAfter postcard identifiedPostcard) k []) ∨
      SaveSkipped (postcardAfter postcard identifiedPostcard) :=
  no_note_is_stranded postcardDigest_injective insertNote_postcard history_identifiedPostcard
    (by decide +kernel) []

/-- While its save is claimed the second image is retried and the worker finds the note without a
version to save; the note is identified again before the worker says so. -/
def skippedPostcard : List (Command Input) :=
  let input : Input := ("Greetings".toList, [(1, "t1".toList), (2, "t2".toList)])
  [.skip (.save 1), .identify input false [], .claim (.identify input) [],
    .ocr 2 "s2".toList "t2".toList [], .claim (.ocr 2 "s2".toList) [],
    .download 2 "s2".toList [], .claim (.download 2) [],
    .findNothing (.save 1), .retryImage 2 [], .claim (.save 1) []]

theorem history_skippedPostcard :
    History (Step postcardDigest) (postcardAfter postcard identifiedPostcard) skippedPostcard
      (postcardAfter (postcardAfter postcard identifiedPostcard) skippedPostcard) :=
  history_after (Folder.perform postcardDigest) (by decide +kernel)

/-- The exception is no idle one: every task is done, and the note has no version. -/
theorem late_skip_strands :
    ∃ f, History (Step postcardDigest) postcard (skippedPostcard ++ identifiedPostcard) f ∧
      SaveSkipped f ∧ f.bindings = [] ∧ ∀ task ∈ f.tasks.rows, task.state = .done := by
  have hskipped : ((postcardAfter (postcardAfter postcard identifiedPostcard)
      skippedPostcard).tasks.get? (.save 1)).any
        (fun task => task.state = .done ∧ task.answer = some .skipped) = true := by
    decide +kernel
  obtain ⟨task, hget, hdone⟩ := (Option.any_eq_true _ _).1 hskipped
  refine ⟨_, history_identifiedPostcard.append history_skippedPostcard, ⟨by decide +kernel, ?_⟩,
    by decide +kernel, by decide +kernel⟩
  exact ⟨task, hget, of_decide_eq_true hdone⟩

/-- The retry of every failed task commits in every folder, and sets the note going again. -/
theorem retryFailed_revives (hinjective : ∀ caption, Function.Injective (identifyDigest caption))
    (hstart : Folder.insertNote supported caption now = .ok start)
    (h : History (Step identifyDigest) start commands f) (later : Stamp) :
    ∃ f', f.retryFailed (fun _ => true) later = .ok f' ∧
      (Unfinished f → Busy f' ∨ SaveSkipped f) := by
  have hv := good_of_history hinjective hstart h
  obtain ⟨f', hretry, -, hcases⟩ := retryFailed_ok hv later
  refine ⟨f', hretry, fun hunfinished => ?_⟩
  rcases hcases with hbusy | ⟨rfl, hrefused⟩
  · exact .inl hbusy
  · rcases attended_of_good hv hunfinished later with hbusy | ⟨k, hfailed, f₁, haccepted⟩ | hskipped
    · exact .inl hbusy
    · exact absurd haccepted (hrefused k hfailed f₁)
    · exact .inr hskipped

theorem retryFailed_revives_postcard :
    ∃ f', (postcardAfter postcard identifiedPostcard).retryFailed (fun _ => true) [] = .ok f' ∧
      (Unfinished (postcardAfter postcard identifiedPostcard) →
        Busy f' ∨ SaveSkipped (postcardAfter postcard identifiedPostcard)) :=
  retryFailed_revives postcardDigest_injective insertNote_postcard history_identifiedPostcard []

end Cortex.Notes
