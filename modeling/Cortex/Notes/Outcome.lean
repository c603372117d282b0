import Cortex.Notes.Attended
import Cortex.Notes.Grows

/-!
# What the operator may rely on

Consequences of the invariant for a note that a run has reached: what an identified note was
identified by, which versions it has, that a failed image can be retried, and that neither a
transcription is lost nor an input identified twice.
-/

namespace Cortex.Notes

open Control Time Transaction View
open Fallback (NoteState TaskState)

variable {Digest : Type} [DecidableEq Digest] {identifyDigest : Text → List (ℕ × Text) → Digest}
  {f m start : Folder Digest} {image : Image} {ordinal : ℕ}
  {commands earlier later : List (Command Digest)} {supported : Bool} {caption : Text} {now : Stamp}

/-- An identified or saved note was identified by what it has now: no image is still to come, and
the identification of its caption and transcriptions was answered. -/
theorem identified_by_current_input
    (hinjective : ∀ caption, Function.Injective (identifyDigest caption))
    (hstart : Folder.insertNote supported caption now = .ok start)
    (h : History (Step identifyDigest) start commands f)
    (hstate : f.note.state = .identified ∨ f.note.state = .saved) :
    f.AllFetched ∧ f.AllRead ∧ (view f).Known (.identify (f.identifyInput identifyDigest)) := by
  have hstaged := (good_of_history hinjective hstart h).staged
  have hnote : (view f).state = .identified ∨ (view f).state = .saved := hstate
  rw [Staged] at hstaged
  rcases hnote with hnote | hnote
  · rw [hnote] at hstaged
    exact ⟨hstaged.1, hstaged.2.1, hstaged.2.2.1⟩
  · rw [hnote] at hstaged
    exact hstaged

theorem identified_by_current_input_postcard :
    (postcardAfter postcard identifiedPostcard).AllFetched ∧
      (postcardAfter postcard identifiedPostcard).AllRead ∧
      (view (postcardAfter postcard identifiedPostcard)).Known (.identify
        ((postcardAfter postcard identifiedPostcard).identifyInput postcardDigest)) :=
  identified_by_current_input postcardDigest_injective insertNote_postcard
    history_identifiedPostcard (.inl (by decide +kernel))

/-- The versions bound are the first ones, each once, up to that of the note. -/
theorem versions_bound (hinjective : ∀ caption, Function.Injective (identifyDigest caption))
    (hstart : Folder.insertNote supported caption now = .ok start)
    (h : History (Step identifyDigest) start commands f) :
    f.bindings.map Prod.fst = List.range' 1 f.note.contentVersion :=
  (good_of_history hinjective hstart h).bindings

theorem versions_bound_postcard :
    let f := postcardAfter (postcardAfter postcard identifiedPostcard) savedPostcard
    f.bindings.map Prod.fst = List.range' 1 f.note.contentVersion :=
  versions_bound postcardDigest_injective insertNote_postcard
    (history_identifiedPostcard.append history_savedPostcard)

/-- A failed image can be retried, and then it waits for its task. -/
theorem failed_image_retried (hinjective : ∀ caption, Function.Injective (identifyDigest caption))
    (hstart : Folder.insertNote supported caption now = .ok start)
    (h : History (Step identifyDigest) start commands f)
    (hget : f.images.get? ordinal = some image) (hfailed : Failed image) (due : Stamp) :
    ∃ f', f.retryImage ordinal due = .ok f' ∧
      ((view f').Waits (.download ordinal) ∨
        ∃ sha256 ∈ image.sha256, (view f').Waits (.ocr ordinal sha256)) := by
  have hv := good_of_history hinjective hstart h
  obtain ⟨r, f', hclear, hfinish⟩ := retryImage_ok hv hget hfailed due
  refine ⟨f', ?_, ?_⟩
  · rw [Folder.retryImage, hclear]
    exact hfinish
  · have hwaits := (good_finish hv hclear hfinish).2
    obtain ⟨-, image', hget', hcases⟩ := clearImage_eq_ok hclear
    obtain rfl := Option.some.inj (hget'.symm.trans hget)
    rcases hcases with ⟨-, -, hsubject, -⟩ | ⟨-, -, -, -, sha256, hsha, hsubject⟩
    · exact .inl (hsubject ▸ hwaits)
    · exact .inr ⟨sha256, hsha, hsubject ▸ hwaits⟩

theorem failed_image_retried_postcard : ∃ image f',
    (postcardAfter postcard identifiedPostcard).images.get? 2 = some image ∧
      (postcardAfter postcard identifiedPostcard).retryImage 2 [] = .ok f' ∧
      ((view f').Waits (.download 2) ∨
        ∃ sha256 ∈ image.sha256, (view f').Waits (.ocr 2 sha256)) := by
  have hfailed : ((postcardAfter postcard identifiedPostcard).images.get? 2).map
      Image.downloadState = some .failed := by decide +kernel
  obtain ⟨image, hget, hfailed⟩ := Option.map_eq_some_iff.1 hfailed
  obtain ⟨f', hretry, hwaits⟩ := failed_image_retried postcardDigest_injective insertNote_postcard
    history_identifiedPostcard hget (.inl hfailed) []
  exact ⟨image, f', hget, hretry, hwaits⟩

/-! ## Later in the run -/

/-- A transcription that a run has reached is there ever after. -/
theorem transcriptions_persist (hinjective : ∀ caption, Function.Injective (identifyDigest caption))
    (hstart : Folder.insertNote supported caption now = .ok start)
    (hearlier : History (Step identifyDigest) start earlier m)
    (hlater : History (Step identifyDigest) m later f) :
    ∀ entry ∈ m.transcriptions, entry ∈ f.transcriptions := by
  intro entry hentry
  have hgrows := grows_of_history hinjective hstart hearlier hlater
  have hm := good_of_history hinjective hstart hearlier
  have hv := good_of_history hinjective hstart (hearlier.append hlater)
  obtain ⟨image, hmem, htranscription⟩ := mem_transcriptions.1 (show entry ∈ (view m).transcriptions
    from hentry)
  obtain ⟨image', hmem', hextends⟩ := hgrows.images image hmem
  obtain ⟨⟨hok, -⟩, -⟩ := Image.settled_of_transcription htranscription
  obtain ⟨sha256, hsha⟩ := Option.isSome_iff_exists.1 ((hm.kept image hmem).fetched.2 hok)
  rw [Image.transcription] at htranscription
  split at htranscription
  · obtain ⟨text, htext, rfl⟩ := Option.map_eq_some_iff.1 htranscription
    have htext' := hextends.text text htext
    have hkept := hv.kept image' hmem'
    refine mem_transcriptions.2 ⟨image', hmem', ?_⟩
    rw [Image.transcription, if_pos ⟨hkept.fetched.1 (by rw [hextends.sha256 sha256 hsha]; rfl),
      hkept.text.1 (by rw [htext']; rfl)⟩, htext', hextends.ordinal]
    rfl
  · cases htranscription

theorem transcriptions_persist_postcard : (1, "t1".toList) ∈
    (postcardAfter (postcardAfter postcard identifiedPostcard) savedPostcard).transcriptions :=
  transcriptions_persist postcardDigest_injective insertNote_postcard history_identifiedPostcard
    history_savedPostcard _ (by decide +kernel)

/-- An input that was identified is never claimed again. -/
theorem identified_once (hinjective : ∀ caption, Function.Injective (identifyDigest caption))
    (hstart : Folder.insertNote supported caption now = .ok start)
    (hearlier : History (Step identifyDigest) start earlier m)
    (hlater : History (Step identifyDigest) m later f) {input : Digest}
    (hknown : (view m).Known (.identify input)) (due : Stamp) :
    .claim (.identify input) due ∉ later := by
  intro hmem
  obtain ⟨after, before, rfl⟩ := List.append_of_mem hmem
  obtain ⟨s, s', hbefore, hclaim, -⟩ := hlater.step_at
  have hgrows := grows_of_history hinjective hstart hearlier hbefore
  obtain ⟨task, hget, hdone, -⟩ := hgrows.known input hknown
  unfold Step at hclaim
  simp only [Folder.perform, Folder.claimTask, bind_eq_ok, orRaise_eq_ok, require_eq_ok] at hclaim
  obtain ⟨claimed, hclaimed, -, hstate, -⟩ := hclaim
  obtain rfl := Option.some.inj (hclaimed.symm.trans hget)
  rw [hdone] at hstate
  rcases hstate with ⟨hstate, -⟩ | ⟨hstate, -⟩ <;> cases hstate

theorem identified_once_postcard : .claim (.identify postcardInput) [] ∉ savedPostcard := by
  have hknown : ((postcardAfter postcard identifiedPostcard).tasks.get?
      (.identify postcardInput)).any (fun task => task.state = .done ∧
        task.answer ≠ some .stale ∧ task.answer ≠ some .skipped) = true := by
    decide +kernel
  obtain ⟨task, hget, hdone⟩ := (Option.any_eq_true _ _).1 hknown
  have hknown : (view (postcardAfter postcard identifiedPostcard)).Known
      (.identify postcardInput) := ⟨task, hget, of_decide_eq_true hdone⟩
  exact identified_once postcardDigest_injective insertNote_postcard history_identifiedPostcard
    history_savedPostcard hknown []

end Cortex.Notes
