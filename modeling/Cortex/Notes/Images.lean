import Cortex.Notes.Workers

/-!
# Images that are worked on

A download that runs is that of a pending image, and a transcription that runs is that of an
image whose text is pending: their answers and failures find what they were started for.  An
image that is not fetched has nothing else, so it is enough to know its download.
-/

namespace Cortex.Notes.View

open Control
open Fallback (NoteState TaskState)

variable {Digest : Type} {v v' : View Digest} {image : Image} {ordinal : ℕ} {sha256 : Text}
  {identifyDigest : Text → List (ℕ × Text) → Digest}

theorem mem_of_get? (h : v.images.get? ordinal = some image) :
    image ∈ v.images ∧ image.ordinal = ordinal :=
  Table.get?_eq_some.1 h

theorem eq_of_ordinal {other : Image} (hget : v.images.get? ordinal = some image)
    (hother : other ∈ v.images) (hordinal : other.ordinal = ordinal) : other = image :=
  Option.some.inj ((Table.get?_eq_some.2 ⟨hother, hordinal⟩).symm.trans hget)

/-- An image that is not fetched has nothing else. -/
structure Blank (image : Image) : Prop where
  fetch : image.downloadState ≠ .ok
  sha256 : image.sha256 = none
  read : image.ocrState = .pending
  text : image.ocrTextSha256 = none

theorem Kept.blank (h : v.Kept image) (hfetch : image.downloadState ≠ .ok) : Blank image := by
  have hsha : image.sha256 = none := by
    rw [← Option.not_isSome_iff_eq_none]
    exact fun hsome => hfetch (h.fetched.1 hsome)
  have hread := h.unread hsha
  refine ⟨hfetch, hsha, hread, ?_⟩
  rw [← Option.not_isSome_iff_eq_none]
  intro hsome
  have hok := h.text.1 hsome
  rw [hread] at hok
  cases hok

/-- The image as `_xhs_fail_image_download` leaves it. -/
def unfetched (image : Image) (category : Text) : Image :=
  { image with downloadState := .failed, downloadError := some category }

theorem Blank.unfetched {category : Text} (h : Blank image) : Blank (unfetched image category) :=
  ⟨nofun, h.sha256, h.read, h.text⟩

theorem Blank.not_settled (h : Blank image) : ¬image.Settled := fun hsettled => h.fetch hsettled.1

theorem Sound.pending_of_running (hv : v.Sound identifyDigest)
    (h : v.In (.download ordinal) .running) :
    ∃ image, v.images.get? ordinal = some image ∧ image.downloadState = .pending := by
  obtain ⟨image, hget⟩ := Option.ne_none_iff_exists'.1 (hv.downloads ordinal h.ne_none)
  obtain ⟨hmem, rfl⟩ := mem_of_get? hget
  refine ⟨image, hget, ?_⟩
  rcases (hv.kept image hmem).fetch with hmatches | ⟨hpending, -⟩
  · cases hstate : image.downloadState with
    | pending => rfl
    | ok | failed =>
        rw [hstate] at hmatches
        cases h.unique hmatches
  · exact hpending

theorem Sound.unread_of_running (hv : v.Sound identifyDigest)
    (h : v.In (.ocr ordinal sha256) .running) :
    ∃ image, v.images.get? ordinal = some image ∧ image.sha256 = some sha256 ∧
      image.downloadState = .ok ∧ image.ocrState = .pending := by
  obtain ⟨image, hget, hsha⟩ := hv.ocrs ordinal sha256 h.ne_none
  obtain ⟨hmem, rfl⟩ := mem_of_get? hget
  have hkept := hv.kept image hmem
  refine ⟨image, hget, hsha, hkept.fetched.1 (by rw [hsha]; rfl), ?_⟩
  have hmatches := hkept.read sha256 hsha
  cases hstate : image.ocrState with
  | pending => rfl
  | ok | failed =>
      rw [hstate] at hmatches
      cases h.unique hmatches

/-- A detail that runs, and is not the first, is that of a note with images. -/
theorem Staged.not_early (h : v.Staged identifyDigest) (hrunning : v.In .detail .running)
    (hstate : v.state ≠ .discovered) : ¬Early v.state := by
  rw [Staged] at h
  rintro (hdiscovered | hfailed | hunsupported)
  · exact hstate hdiscovered
  · rw [hfailed] at h
    cases hrunning.unique h.2
  · rw [hunsupported] at h
    rcases h.2 with hnone | hdone
    · exact hrunning.ne_none hnone
    · cases hrunning.unique hdone

/-- The states from the first detail on. -/
theorem Staged.of_mem (h : v.Staged identifyDigest) (himage : image ∈ v.images) :
    v.state = .detailOk ∨ v.state = .assetsDone ∧ v.AllFetched ∨ v.AllFetched ∧ v.AllRead := by
  rw [Staged] at h
  cases hstate : v.state with
  | discovered | failed | unsupported =>
      rw [hstate] at h
      exact absurd himage (h.1.images image)
  | detailOk => exact .inl rfl
  | assetsDone =>
      rw [hstate] at h
      exact .inr (.inl ⟨rfl, h.1⟩)
  | ocrDone | identified | saved =>
      rw [hstate] at h
      exact .inr (.inr ⟨h.1, h.2.1⟩)

theorem Staged.detailOk_of_pending (h : v.Staged identifyDigest) (himage : image ∈ v.images)
    (hpending : image.downloadState = .pending) : v.state = .detailOk := by
  rcases h.of_mem himage with hstate | ⟨-, hfetched⟩ | ⟨hfetched, -⟩
  · exact hstate
  · exact absurd hpending (hfetched image himage)
  · exact absurd hpending (hfetched image himage)

theorem Staged.moving_of_unread (h : v.Staged identifyDigest) (himage : image ∈ v.images)
    (hok : image.downloadState ≠ .failed) (hpending : image.ocrState = .pending) : v.Moving := by
  rcases h.of_mem himage with hstate | hstate | ⟨-, hread⟩
  · exact .inl hstate
  · exact .inr hstate
  · exact ((hread image himage).elim hok (absurd hpending)).elim

/-! ## Filing one image -/

/-- The image is filed where it was. -/
theorem Files.putImage (h : v.images.get? image.ordinal ≠ none) :
    Files v (v.putImage image) image :=
  ⟨fun _ => mem_putImage h, fun _ _ => rfl, fun hstate => hstate, rfl, rfl, rfl, rfl⟩

/-- The image is filed as it is. -/
theorem Files.self (hget : v.images.get? image.ordinal = some image) : Files v v image := by
  refine ⟨fun other => ⟨fun hother => ?_, ?_⟩, fun _ _ => rfl, fun h => h, rfl, rfl, rfl, rfl⟩
  · by_cases hordinal : other.ordinal = image.ordinal
    · exact .inl (eq_of_ordinal hget hother hordinal)
    · exact .inr ⟨hother, hordinal⟩
  · rintro (rfl | ⟨hother, -⟩)
    · exact (mem_of_get? hget).1
    · exact hother

/-- A blank image stays one, and its download is known again. -/
theorem Sound.file_blank (hv : v.Sound identifyDigest) (h : Files v v' image)
    (hold : ∀ other ∈ v.images, other.ordinal = image.ordinal → Blank other) (hblank : Blank image)
    (hocr : ∀ sha256, v'.task (.ocr image.ordinal sha256) = v.task (.ocr image.ordinal sha256))
    (hfetch : v'.Matches (.download image.ordinal) image.downloadState ∨
      image.downloadState = .pending ∧ v'.Expired image.ordinal ∧ v'.Waits .detail)
    (hrunning : v'.In (.download image.ordinal) .running → v.In (.download image.ordinal) .running)
    (hwaits : v.In .detail .running → image.downloadState = .pending →
      v'.Waits (.download image.ordinal)) : v'.Sound identifyDigest := by
  have hkept : v'.Kept image :=
    { fetch := hfetch
      read := fun sha256 hsha => by
        rw [hblank.sha256] at hsha
        cases hsha
      fetched := by
        rw [hblank.sha256]
        exact ⟨nofun, fun hok => absurd hok hblank.fetch⟩
      unread := fun _ => hblank.read
      text := by
        rw [hblank.text, hblank.read]
        exact ⟨nofun, nofun⟩ }
  refine hv.filed_unsettled h hkept (fun sha256 htask => ?_)
    (fun other hother hordinal => (hold other hother hordinal).not_settled) hblank.not_settled
    (fun k hk hin => ?_) hwaits
  · -- the transcription would be that of the blank image
    rw [hocr] at htask
    obtain ⟨other, hget, hsha⟩ := hv.ocrs _ _ htask
    obtain ⟨hmem, hordinal⟩ := Table.get?_eq_some.1 hget
    rw [(hold other hmem hordinal).sha256] at hsha
    cases hsha
  · cases k with
    | download ordinal =>
        obtain rfl := Option.some.inj hk
        exact hrunning hin
    | ocr ordinal sha256 =>
        obtain rfl := Option.some.inj hk
        exact hin.congr (hocr sha256).symm
    | detail | identify input | save version => cases hk

variable [DecidableEq Digest] {task : Task Digest}

/-- So is a task of it. -/
theorem Files.put (h : Files v v' image) (hsubject : task.subject.ordinal = some image.ordinal) :
    Files v (v'.put task) image :=
  { h with
    tasks := fun k hk => by
      have hne : k ≠ task.subject := by
        rintro rfl
        exact hk hsubject
      exact (task_put_of_ne hne).trans (h.tasks k hk) }

/-- The transcription of a fetched image ends, or is made due again. -/
theorem Sound.file_ocr {new : Image} (hv : v.Sound identifyDigest)
    (hget : v.images.get? image.ordinal = some image) (hsha : image.sha256 = some sha256)
    (hok : image.downloadState = .ok) (hunread : image.ocrState ≠ .ok)
    (hordinal : new.ordinal = image.ordinal) (hsha' : new.sha256 = some sha256)
    (hok' : new.downloadState = .ok) (htext : new.ocrTextSha256.isSome = true ↔ new.ocrState = .ok)
    (hsubject : task.subject = .ocr image.ordinal sha256) (hrunning : task.state ≠ .running)
    (hmatches : ((v.putImage new).put task).Matches (.ocr image.ordinal sha256) new.ocrState)
    (hunsettled : ∀ input, v.In (.identify input) .running →
      ((v.putImage new).put task).Pointless identifyDigest (.identify input)) :
    ((v.putImage new).put task).Sound identifyDigest := by
  have hmem := (mem_of_get? hget).1
  have hne : v.images.get? new.ordinal ≠ none := by
    rw [hordinal, hget]
    exact Option.some_ne_none _
  have hfiles : Files v ((v.putImage new).put task) new :=
    (Files.putImage hne).put (by rw [hsubject, hordinal]; rfl)
  have hfetch : v.Matches (.download image.ordinal) image.downloadState := by
    rcases (hv.kept image hmem).fetch with hmatches | ⟨hwaiting, -⟩
    · exact hmatches
    · rw [hok] at hwaiting
      cases hwaiting
  have hkept : ((v.putImage new).put task).Kept new := by
    refine ⟨.inl ?_, fun sha h => ?_, ?_, fun hnone => ?_, htext⟩
    · rw [hordinal, hok', ← hok]
      exact hfetch.steady (.inl (task_put_of_ne (by rw [hsubject]; exact nofun)))
    · obtain rfl : sha256 = sha := Option.some.inj (hsha'.symm.trans h)
      rw [hordinal]
      exact hmatches
    · rw [hsha', hok']
      exact ⟨fun _ => rfl, fun _ => rfl⟩
    · rw [hsha'] at hnone
      cases hnone
  refine hv.filed hfiles hkept (fun sha htask => ?_) (fun entry hentry hfirst => ?_)
    (fun k _ hin => ?_) (fun _ hwaiting => ?_) fun input _ hin =>
      hunsettled input (hin.congr (hfiles.identify input).symm)
  · rw [hsha']
    rw [hordinal] at htask
    by_cases hsame : sha = sha256
    · rw [hsame]
    · have hother : (v.put task).task (.ocr image.ordinal sha) = v.task (.ocr image.ordinal sha) :=
        task_put_of_ne (by rw [hsubject]; exact fun heq => hsame (by injection heq))
      obtain ⟨other, hget', hsha''⟩ := hv.ocrs _ _ (hother ▸ htask)
      obtain rfl := Option.some.inj (hget'.symm.trans hget)
      rw [← hsha'', hsha]
  · -- the image had no text
    obtain ⟨other, hother, htranscription⟩ := mem_transcriptions.1 hentry
    obtain ⟨hsettled, hsame⟩ := Image.settled_of_transcription htranscription
    rw [eq_of_ordinal hget hother (hsame.symm.trans (hfirst.trans hordinal))] at hsettled
    exact absurd hsettled.2 hunread
  · by_cases hsame : k = task.subject
    · obtain ⟨other, hother, hstate⟩ := hin
      rw [task_put hsame.symm] at hother
      obtain rfl := Option.some.inj hother
      exact absurd hstate hrunning
    · exact hin.congr (task_put_of_ne hsame).symm
  · rw [hok'] at hwaiting
    cases hwaiting

end Cortex.Notes.View
