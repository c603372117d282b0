import Cortex.Library.History
import Cortex.Notes.Retries

/-!
# The run of a note

A note is inserted by a list page; from there on its drain, in any number of processes, and the
operator give the commands, in any order.  A step is one command that commits.
-/

namespace Cortex.Notes

open Control Time Transaction View
open Fallback (NoteState TaskState)

inductive Command (Digest : Type)
  | claim (k : Subject Digest) (now : Stamp)
  | release (k : Subject Digest) (nextAttemptAt : Stamp)
  | expire (k : Subject Digest) (now : Stamp)
  | fail (k : Subject Digest) (category : Text) (nextAttemptAt now : Stamp)
  | findNothing (k : Subject Digest)
  | skip (k : Subject Digest)
  | detail (detail : Folder.Detail) (now : Stamp)
  | download (ordinal : ℕ) (sha256 : Text) (now : Stamp)
  | ocr (ordinal : ℕ) (sha256 text : Text) (now : Stamp)
  | identify (input : Digest) (stale : Bool) (now : Stamp)
  | save (version : ℕ) (tree : Text) (rootEnabled changed : Bool) (now : Stamp)
  | saveChange (now : Stamp)
  | retryImage (ordinal : ℕ) (now : Stamp)
  | retryFailed (selects : Subject Digest → Bool) (now : Stamp)

variable {Digest : Type} [DecidableEq Digest]

namespace Folder

/-- `_xhs_insert_note`, of an id that is not known -/
def inserted (state : NoteState) (caption : Text) : Folder Digest where
  note := { state, caption, contentVersion := 0, lastError := none, revision := 0 }
  images := .empty
  tasks := .empty
  bindings := []
  idle := []

/-- A new note of `_xhs_apply_list_page`: one that is not supported has no task. -/
def insertNote (supported : Bool) (caption : Text) (now : Stamp) :
    Except StoreError (Folder Digest) :=
  if supported then do
    let (f, _, _) ← (inserted .discovered caption).createTask .detail .none now
    pure f
  else pure (inserted .unsupported caption)

variable (identifyDigest : Text → List (ℕ × Text) → Digest)

def perform (f : Folder Digest) (command : Command Digest) : Except StoreError (Folder Digest) :=
  match command with
  | .claim k now => f.claimTask k now
  | .release k nextAttemptAt => f.releaseTask k nextAttemptAt
  | .expire k now => f.expireTask identifyDigest k now
  | .fail k category nextAttemptAt now => f.failTask identifyDigest k category nextAttemptAt now
  | .findNothing k => f.findNothing identifyDigest k
  | .skip k => f.skipTask k
  | .detail detail now => f.recordDetail identifyDigest detail now
  | .download ordinal sha256 now => f.recordDownload identifyDigest ordinal sha256 now
  | .ocr ordinal sha256 text now => f.recordOcr identifyDigest ordinal sha256 text now
  | .identify input stale now => f.recordIdentify identifyDigest input stale now
  | .save version tree rootEnabled changed now => f.recordSave version tree rootEnabled changed now
  | .saveChange now => f.saveChange now
  | .retryImage ordinal now => f.retryImage ordinal now
  | .retryFailed selects now => f.retryFailed selects now

end Folder

/-- One command that commits. -/
def Step (identifyDigest : Text → List (ℕ × Text) → Digest) (f : Folder Digest)
    (command : Command Digest) (f' : Folder Digest) : Prop :=
  f.perform identifyDigest command = .ok f'

variable {identifyDigest : Text → List (ℕ × Text) → Digest} {f f' start : Folder Digest}
  {k : Subject Digest} {command : Command Digest} {commands : List (Command Digest)}
  {supported : Bool} {caption : Text} {now : Stamp}

/-! ## Every step keeps the stages -/

theorem empty_inserted {state : NoteState} :
    (view (Folder.inserted state caption : Folder Digest)).Empty :=
  ⟨fun image => Table.not_mem_empty image, fun _ hk => absurd rfl hk⟩

theorem good_insertNote (h : Folder.insertNote supported caption now = .ok f) :
    (view f).Good identifyDigest := by
  unfold Folder.insertNote at h
  split at h
  · simp only [bind_eq_ok, pure_eq_ok] at h
    obtain ⟨⟨f₁, task, fresh⟩, hcreate, rfl⟩ := h
    obtain ⟨hsubject, hview, hcases⟩ := createTask_eq_ok hcreate
    have hdue : task.state = .pending := by
      rcases hcases with ⟨-, hold⟩ | ⟨-, -, hdue, -⟩
      · cases hold
      · exact hdue
    have hempty : (view f₁).Empty := by
      rw [hview]
      refine ⟨fun image => Table.not_mem_empty image, fun k hk => ?_⟩
      by_contra hne
      rw [task_put_of_ne fun heq => hne (heq.trans hsubject)] at hk
      exact hk rfl
    rw [hview] at hempty ⊢
    exact ⟨hempty.sound rfl fun hidle => absurd hidle List.not_mem_nil, hempty, waits_put hsubject (.inl hdue)⟩
  · simp only [pure_eq_ok] at h
    subst h
    exact ⟨empty_inserted.sound rfl fun hidle => absurd hidle List.not_mem_nil, empty_inserted, .inl rfl⟩

theorem good_claimTask (hv : (view f).Good identifyDigest) (h : f.claimTask k now = .ok f') :
    (view f').Good identifyDigest := by
  simp only [Folder.claimTask, bind_eq_ok, orRaise_eq_ok, require_eq_ok, pure_eq_ok] at h
  obtain ⟨task, hget, -, hstate, rfl⟩ := h
  have hwaits : (view f).Waits k := ⟨task, hget, hstate.imp And.left And.left⟩
  have hsubject : task.subject = k := (Table.get?_eq_some.1 hget).2
  change ({ view (f.updateTask k _) with idle := _ } : View Digest).Good identifyDigest
  rw [view_updateTask hget]
  refine hv.requeue hwaits hsubject (.inr rfl) fun other hother => ?_
  obtain ⟨hmem, hne⟩ := List.mem_filter.1 hother
  exact ⟨hmem, fun heq => absurd heq (of_decide_eq_true hne)⟩

/-- A task that its worker hands back waits again. -/
theorem good_handedBack {g : Task Digest → Task Digest}
    {hg : ∀ task, (g task).subject = task.subject} (hv : (view f).Good identifyDigest)
    (hrunning : (view f).In k .running) (hg' : ∀ task, (g task).state = .pending) :
    (view (f.updateTask k g hg)).Good identifyDigest := by
  obtain ⟨task, hget, hstate⟩ := hrunning
  have hsubject : task.subject = k := (Table.get?_eq_some.1 hget).2
  rw [view_updateTask hget]
  refine hv.requeue ⟨task, hget, .inr hstate⟩ ((hg task).trans hsubject) (.inl (hg' task))
    fun other hother => ⟨hother, fun _ hrun => ?_⟩
  rw [hg'] at hrun
  cases hrun

/-- A task that fails for good. -/
theorem good_givenUp {g : Task Digest → Task Digest}
    {hg : ∀ task, (g task).subject = task.subject} {category : Text}
    (hv : (view f).Good identifyDigest) (hrunning : (view f).In k .running)
    (hfailed : ∀ task, (g task).state = .failed)
    (hcategory : ∀ task, (g task).lastError = some category)
    (h : (f.updateTask k g hg).applyFailure identifyDigest k category now = .ok f') :
    (view f').Good identifyDigest := by
  obtain ⟨task, hget, hstate⟩ := hrunning
  have hsubject : task.subject = k := (Table.get?_eq_some.1 hget).2
  exact good_applyFailure hv ⟨task, hget, hstate⟩ ((hg task).trans hsubject) (hfailed task)
    (hcategory task) (view_updateTask hget) h

theorem good_saveChange (hv : (view f).Good identifyDigest) (h : f.saveChange now = .ok f') :
    (view f').Good identifyDigest := by
  unfold Folder.saveChange at h
  split at h
  · rename_i hstate
    obtain ⟨task, hsubject, hopens, hrunning, hview⟩ := queueSave_opens h
    have hlate : ¬Early (view f).state := by
      have hstate : (view f).state = .identified ∨ (view f).state = .saved := hstate
      rintro (h | h | h) <;> rw [h] at hstate <;> rcases hstate with hstate | hstate <;>
        cases hstate
    rw [hview]
    exact hv.put_save hsubject hlate (fun hrun => hsubject ▸ hrunning hrun) fun _ _ => .inl hopens
  · simp only [pure_eq_ok] at h
    exact h ▸ hv

theorem good_step (hinjective : ∀ caption, Function.Injective (identifyDigest caption))
    (hv : (view f).Good identifyDigest) (h : Step identifyDigest f command f') :
    (view f').Good identifyDigest := by
  unfold Step at h
  cases command with
  | claim k now => exact good_claimTask hv h
  | release k nextAttemptAt =>
      simp only [Folder.perform, Folder.releaseTask, bind_eq_ok, pure_eq_ok] at h
      obtain ⟨_, hrunning, rfl⟩ := h
      exact good_handedBack hv (in_of_runningTask hrunning) fun _ => rfl
  | expire k now =>
      simp only [Folder.perform, Folder.expireTask, bind_eq_ok] at h
      obtain ⟨_, hrunning, -, -, h⟩ := h
      exact good_givenUp hv (in_of_runningTask hrunning) (fun _ => rfl) (fun _ => rfl) h
  | fail k category nextAttemptAt now =>
      simp only [Folder.perform, Folder.failTask, bind_eq_ok] at h
      obtain ⟨-, -, _, hrunning, h⟩ := h
      split at h
      · simp only [pure_eq_ok] at h
        subst h
        exact good_handedBack hv (in_of_runningTask hrunning) fun _ => rfl
      · exact good_givenUp hv (in_of_runningTask hrunning) (fun _ => rfl) (fun _ => rfl) h
  | findNothing k => exact good_findNothing hv h
  | skip k => exact good_skipTask hv h
  | detail detail now => exact good_recordDetail hv h
  | download ordinal sha256 now => exact good_recordDownload hv h
  | ocr ordinal sha256 text now => exact good_recordOcr hinjective hv h
  | identify input stale now => exact good_recordIdentify hv h
  | save version tree rootEnabled changed now => exact good_recordSave hv h
  | saveChange now => exact good_saveChange hv h
  | retryImage ordinal now =>
      simp only [Folder.perform, Folder.retryImage, bind_eq_ok] at h
      obtain ⟨r, hclear, hfinish⟩ := h
      exact (good_finish hv hclear hfinish).1
  | retryFailed selects now =>
      obtain ⟨f₁, hretry, hgood, -⟩ := retryAll_ok hv ((f.tasks.rows.filter fun task =>
        task.state = .failed ∧ selects task.subject = true).map Task.subject) now
      obtain rfl := Except.ok.inj (hretry.symm.trans h)
      exact hgood

theorem good_of_history (hinjective : ∀ caption, Function.Injective (identifyDigest caption))
    (hstart : Folder.insertNote supported caption now = .ok start)
    (h : History (Step identifyDigest) start commands f) : (view f).Good identifyDigest :=
  h.invariant (P := fun f => (view f).Good identifyDigest) (good_insertNote hstart)
    (good_step hinjective)

/-! ### A note with two images, the second without a URL -/

abbrev Input := Text × List (ℕ × Text)

def postcardDigest (caption : Text) (transcriptions : List (ℕ × Text)) : Input :=
  (caption, transcriptions)

theorem postcardDigest_injective (caption : Text) : Function.Injective (postcardDigest caption) :=
  fun _ _ h => congrArg Prod.snd h

def postcard : Folder Input :=
  (Folder.insertNote true [] []).toOption.getD (Folder.inserted .discovered [])

theorem insertNote_postcard : Folder.insertNote true [] [] = .ok postcard := rfl

def postcardDetail : Folder.Detail where
  normal := true
  caption := "Greetings".toList
  images := [⟨1, "f1".toList, some "https://a.example".toList⟩, ⟨2, "f2".toList, none⟩]

def postcardInput : Input := ("Greetings".toList, [(1, "t1".toList)])

/-- The first image is transcribed, the second is shown failed, and the note is identified. -/
def identifiedPostcard : List (Command Input) :=
  [.identify postcardInput false [], .claim (.identify postcardInput) [],
    .ocr 1 "s1".toList "t1".toList [], .claim (.ocr 1 "s1".toList) [],
    .download 1 "s1".toList [], .claim (.download 1) [],
    .detail postcardDetail [], .claim .detail []]

def savedPostcard : List (Command Input) :=
  [.save 1 "tree".toList true false [], .claim (.save 1) []]

def postcardAfter (f : Folder Input) (commands : List (Command Input)) : Folder Input :=
  after (Folder.perform postcardDigest) f commands

theorem history_identifiedPostcard : History (Step postcardDigest) postcard identifiedPostcard
    (postcardAfter postcard identifiedPostcard) :=
  history_after (Folder.perform postcardDigest) (by decide +kernel)

theorem history_savedPostcard :
    History (Step postcardDigest) (postcardAfter postcard identifiedPostcard) savedPostcard
      (postcardAfter (postcardAfter postcard identifiedPostcard) savedPostcard) :=
  history_after (Folder.perform postcardDigest) (by decide +kernel)

end Cortex.Notes
