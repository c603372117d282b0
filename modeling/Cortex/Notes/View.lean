import Cortex.Notes.Folder
import Mathlib.Logic.Function.Basic

/-!
# What the stages depend on

`view f` forgets how the tasks are stored: a task is found under its subject, and `put` files it
there.  Each function that creates, resets or queues a task files one (`createTask_eq_ok` and the
lemmas after it), and `Advance` says what becomes of a note that is moved on.
-/

namespace Cortex.Notes

open Control Time Transaction
open Fallback (NoteState TaskState)

variable {Digest : Type}

structure View (Digest : Type) where
  state : NoteState
  caption : Text
  contentVersion : ℕ
  images : Table Image
  task : Subject Digest → Option (Task Digest)
  bindings : List (ℕ × Text)
  idle : List (Subject Digest)

def view [DecidableEq Digest] (f : Folder Digest) : View Digest where
  state := f.note.state
  caption := f.note.caption
  contentVersion := f.note.contentVersion
  images := f.images
  task := f.tasks.get?
  bindings := f.bindings
  idle := f.idle

namespace View

variable {v v' : View Digest} {task task' : Task Digest} {k : Subject Digest} {image image' : Image}

/-- An image is filed under its ordinal. -/
def putImage (v : View Digest) (image : Image) : View Digest :=
  let g (r : Image) : Image := { image with ordinal := r.ordinal }
  { v with images := v.images.update (fun r => r.ordinal = image.ordinal) g }

@[simp] theorem state_putImage : (v.putImage image).state = v.state := rfl
@[simp] theorem caption_putImage : (v.putImage image).caption = v.caption := rfl
@[simp] theorem contentVersion_putImage :
    (v.putImage image).contentVersion = v.contentVersion := rfl
@[simp] theorem task_putImage : (v.putImage image).task = v.task := rfl
@[simp] theorem bindings_putImage : (v.putImage image).bindings = v.bindings := rfl
@[simp] theorem idle_putImage : (v.putImage image).idle = v.idle := rfl

/-- The images are those that were there, with the new one in its place. -/
theorem mem_putImage (h : v.images.get? image.ordinal ≠ none) :
    image' ∈ (v.putImage image).images ↔
      image' = image ∨ image' ∈ v.images ∧ image'.ordinal ≠ image.ordinal := by
  rw [putImage, Table.mem_update]
  constructor
  · rintro ⟨r, hr, rfl⟩
    split
    · rename_i hordinal
      left
      rw [hordinal]
    · exact .inr ⟨hr, ‹_›⟩
  · rintro (rfl | ⟨hmem, hne⟩)
    · obtain ⟨r, hr⟩ := Option.ne_none_iff_exists'.1 h
      obtain ⟨hmem, hordinal⟩ := Table.get?_eq_some.1 hr
      have hordinal : r.ordinal = image'.ordinal := hordinal
      refine ⟨r, hmem, ?_⟩
      rw [if_pos hordinal, hordinal]
    · exact ⟨image', hmem, if_neg hne⟩

theorem get?_putImage (h : v.images.get? image.ordinal ≠ none) :
    (v.putImage image).images.get? image.ordinal = some image :=
  Table.get?_eq_some.2 ⟨(mem_putImage h).2 (.inl rfl), rfl⟩

theorem get?_putImage_of_ne {ordinal : ℕ} (h : v.images.get? image.ordinal ≠ none)
    (hne : ordinal ≠ image.ordinal) :
    (v.putImage image).images.get? ordinal = v.images.get? ordinal := by
  ext r
  rw [Table.get?_eq_some, Table.get?_eq_some, mem_putImage h]
  constructor
  · rintro ⟨rfl | ⟨hmem, -⟩, rfl⟩
    · exact absurd rfl hne
    · exact ⟨hmem, rfl⟩
  · rintro ⟨hmem, rfl⟩
    exact ⟨.inr ⟨hmem, hne⟩, rfl⟩

/-- The note is in another state. -/
def moved (v : View Digest) (state : NoteState) : View Digest := { v with state }

def transcriptions (v : View Digest) : List (ℕ × Text) :=
  (Keyset.orderBy Image.ordinal v.images.rows).filterMap Image.transcription

theorem mem_transcriptions {entry : ℕ × Text} :
    entry ∈ v.transcriptions ↔ ∃ image ∈ v.images, image.transcription = some entry := by
  rw [transcriptions, List.mem_filterMap]
  simp only [Keyset.mem_orderBy]
  rfl

def AllFetched (v : View Digest) : Prop := ∀ image ∈ v.images, image.downloadState ≠ .pending

def AllRead (v : View Digest) : Prop :=
  ∀ image ∈ v.images, image.downloadState = .failed ∨ image.ocrState ≠ .pending

/-- The task is pending, or it is running as it was. -/
def Opens (v : View Digest) (task : Task Digest) : Prop :=
  task.state = .pending ∨ task.state = .running ∧ v.task task.subject = some task

/-- The task waits to run, or runs. -/
def Waits (v : View Digest) (k : Subject Digest) : Prop :=
  ∃ task, v.task k = some task ∧ (task.state = .pending ∨ task.state = .running)

/-- There is such a task, in the state. -/
def In (v : View Digest) (k : Subject Digest) (state : TaskState) : Prop :=
  ∃ task, v.task k = some task ∧ task.state = state

/-- The task was done, for what it was asked. -/
def Known (v : View Digest) (k : Subject Digest) : Prop :=
  ∃ task, v.task k = some task ∧ task.state = .done ∧
    task.answer ≠ some .stale ∧ task.answer ≠ some .skipped

variable [DecidableEq Digest]

/-- A task is filed under its subject. -/
def put (v : View Digest) (task : Task Digest) : View Digest :=
  { v with task := Function.update v.task task.subject (some task) }

@[simp] theorem state_put : (v.put task).state = v.state := rfl
@[simp] theorem caption_put : (v.put task).caption = v.caption := rfl
@[simp] theorem contentVersion_put : (v.put task).contentVersion = v.contentVersion := rfl
@[simp] theorem images_put : (v.put task).images = v.images := rfl
@[simp] theorem bindings_put : (v.put task).bindings = v.bindings := rfl
@[simp] theorem idle_put : (v.put task).idle = v.idle := rfl

@[simp] theorem task_put_self : (v.put task).task task.subject = some task :=
  Function.update_self ..

theorem task_put (h : task.subject = k) : (v.put task).task k = some task := h ▸ task_put_self

theorem task_put_of_ne (h : k ≠ task.subject) : (v.put task).task k = v.task k :=
  Function.update_of_ne h ..

theorem put_eq_self (h : v.task task.subject = some task) : v.put task = v := by
  rw [put, ← h, Function.update_eq_self]

theorem put_put (h : task.subject = task'.subject) : (v.put task).put task' = v.put task' := by
  simp only [put, h, Function.update_idem]

theorem put_comm (h : task.subject ≠ task'.subject) :
    (v.put task).put task' = (v.put task').put task := by
  simp only [put, Function.update_comm h]

variable (identifyDigest : Text → List (ℕ × Text) → Digest)

def input (v : View Digest) : Digest := identifyDigest v.caption v.transcriptions

/-- What becomes of a note that is moved on. -/
inductive Advance (v : View Digest) : View Digest → Prop
  | stays : ¬(v.state = .detailOk ∧ v.AllFetched) → ¬(v.state = .assetsDone ∧ v.AllRead) →
      Advance v v
  | fetched : v.state = .detailOk → v.AllFetched → ¬v.AllRead → Advance v (v.moved .assetsDone)
  | read {t : Task Digest} : v.state = .detailOk ∧ v.AllFetched ∨ v.state = .assetsDone →
      v.AllRead → t.subject = .identify (v.input identifyDigest) → v.Opens t →
      ¬v.Known t.subject → Advance v ((v.moved .ocrDone).put t)
  | known {t : Task Digest} : v.state = .detailOk ∧ v.AllFetched ∨ v.state = .assetsDone →
      v.AllRead → v.Known (.identify (v.input identifyDigest)) →
      t.subject = .save (v.contentVersion + 1) → v.Opens t →
      Advance v ((v.moved .identified).put t)

end View

open View

variable [DecidableEq Digest] {identifyDigest : Text → List (ℕ × Text) → Digest}
  {f f' : Folder Digest}
  {subject : Subject Digest} {task : Task Digest} {image : Image} {download : Download}
  {now : Stamp}

/-! ## Rows -/

theorem image_eq_ok {ordinal : ℕ} :
    f.image ordinal = .ok image ↔ (view f).images.get? ordinal = some image := orRaise_eq_ok

theorem ordinal_of_image {ordinal : ℕ} (h : f.image ordinal = .ok image) :
    image ∈ (view f).images ∧ image.ordinal = ordinal :=
  Table.get?_eq_some.1 (image_eq_ok.1 h)

/-- A task that is updated is filed again. -/
theorem view_updateTask {g : Task Digest → Task Digest}
    {hg : ∀ task, (g task).subject = task.subject} (h : f.tasks.get? subject = some task) :
    view (f.updateTask subject g hg) = (view f).put (g task) := by
  have hsubject : task.subject = subject := (Table.get?_eq_some.1 h).2
  have htask : (f.tasks.update (fun t => t.subject = subject) g hg).get? =
      Function.update f.tasks.get? (g task).subject (some (g task)) := by
    funext k
    rw [Table.get?_update]
    by_cases hk : k = subject
    · rw [hg, hsubject, hk, Function.update_self, h, Option.map_some, if_pos hsubject]
    · rw [hg, hsubject, Function.update_of_ne hk]
      cases hget : f.tasks.get? k with
      | none => rfl
      | some t =>
          have hsubject' : t.subject = k := (Table.get?_eq_some.1 hget).2
          rw [Option.map_some, if_neg fun heq => hk (hsubject'.symm.trans heq)]
  rw [view, Folder.updateTask, htask]
  rfl

/-- So is an image. -/
theorem view_updateImage {ordinal : ℕ} {g : Image → Image}
    {hg : ∀ image, (g image).ordinal = image.ordinal} (h : f.image ordinal = .ok image) :
    view (f.updateImage ordinal g hg) = (view f).putImage (g image) := by
  obtain ⟨hmem, rfl⟩ := ordinal_of_image h
  have hrows : (f.images.update (fun r => r.ordinal = image.ordinal) g hg).rows =
      ((view f).putImage (g image)).images.rows := by
    refine List.map_congr_left fun r hr => ?_
    by_cases hordinal : r.ordinal = image.ordinal
    · obtain rfl : r = image := Table.eq_of_key hr hmem hordinal
      rw [if_pos rfl, hg, if_pos rfl]
      change g r = { g r with ordinal := r.ordinal }
      rw [← hg r]
    · rw [if_neg hordinal, hg, if_neg hordinal]
  have himages : f.images.update (fun r => r.ordinal = image.ordinal) g hg =
      ((view f).putImage (g image)).images := by
    cases hleft : f.images.update (fun r => r.ordinal = image.ordinal) g hg
    cases hright : ((view f).putImage (g image)).images
    rw [hleft, hright] at hrows
    cases hrows
    rfl
  rw [view, Folder.updateImage, himages]
  rfl

/-- A task is there afterwards: the one that was, or a new one that waits. -/
theorem createTask_eq_ok {fresh : Bool}
    (h : f.createTask subject download now = .ok (f', task, fresh)) :
    task.subject = subject ∧ view f' = (view f).put task ∧
      (fresh = false ∧ (view f).task subject = some task ∨
        fresh = true ∧ (view f).task subject = none ∧ task.state = .pending ∧
          task.download = download) := by
  unfold Folder.createTask at h
  split at h
  · rename_i existing hget
    simp only [pure_eq_ok, Prod.mk.injEq] at h
    obtain ⟨rfl, rfl, rfl⟩ := h
    have hsubject : existing.subject = subject := (Table.get?_eq_some.1 hget).2
    refine ⟨hsubject, (put_eq_self ?_).symm, .inl ⟨rfl, hget⟩⟩
    rw [hsubject]
    exact hget
  · rename_i hnone
    simp only [bind_eq_ok, orRaise_eq_ok, pure_eq_ok, Prod.mk.injEq] at h
    obtain ⟨tasks, hinsert, rfl, rfl, rfl⟩ := h
    refine ⟨rfl, ?_, .inr ⟨rfl, hnone, rfl, rfl⟩⟩
    rw [view, View.put]
    congr 1
    funext k
    rw [Table.get?_insert hinsert]
    by_cases hk : k = subject
    · subst hk
      rw [Function.update_self]
      exact if_pos rfl
    · rw [Function.update_of_ne hk]
      exact if_neg fun heq => hk heq

/-- A task that was not running waits again. -/
theorem resetTask_eq_ok {download : Option Download}
    (h : f.resetTask subject download now = .ok f') :
    ∃ old task, (view f).task subject = some old ∧ old.state ≠ .running ∧
      task.subject = subject ∧ task.state = .pending ∧ view f' = (view f).put task ∧
      task.download = download.getD old.download := by
  simp only [Folder.resetTask, bind_eq_ok, orRaise_eq_ok, require_eq_ok] at h
  obtain ⟨old, hold, -, hstate, h⟩ := h
  have hsubject : old.subject = subject := (Table.get?_eq_some.1 hold).2
  split at h
  · rename_i hpending
    simp only [pure_eq_ok] at h
    subst h
    refine ⟨old, old, hold, hstate, hsubject, hpending.1, (put_eq_self ?_).symm, ?_⟩
    · rw [hsubject]
      exact hold
    · rw [hpending.2]
      rfl
  · simp only [pure_eq_ok] at h
    subst h
    exact ⟨old, { old with
      state := .pending, attempts := 0, nextAttemptAt := now, lastError := none, answer := none
      download := download.getD old.download }, hold, hstate, hsubject, rfl,
      view_updateTask hold, rfl⟩

/-- The save of the next version waits to run, or runs. -/
theorem queueSave_eq_ok (h : f.queueSave now = .ok f') :
    ∃ task, task.subject = .save (f.note.contentVersion + 1) ∧ (view f).Opens task ∧
      view f' = (view f).put task := by
  simp only [Folder.queueSave, bind_eq_ok] at h
  obtain ⟨⟨f₁, task, fresh⟩, hcreate, h⟩ := h
  obtain ⟨hsubject, hview, hcases⟩ := createTask_eq_ok hcreate
  simp only at h
  split at h
  · obtain ⟨-, task', -, -, hsubject', hpending, hview', -⟩ := resetTask_eq_ok h
    refine ⟨task', hsubject', .inl hpending, ?_⟩
    rw [hview', hview, put_put (hsubject.trans hsubject'.symm)]
  · rename_i hopen
    simp only [pure_eq_ok] at h
    subst h
    refine ⟨task, hsubject, ?_, hview⟩
    rcases hcases with ⟨rfl, hold⟩ | ⟨-, -, hpending, -⟩
    · rw [Opens, hsubject]
      cases hstate : task.state with
      | pending => exact .inl rfl
      | running => exact .inr ⟨rfl, hold⟩
      | done | failed | canceled => simp [hstate] at hopen
    · exact .inl hpending

/-- The identification of the input waits to run, or runs, unless it was done. -/
theorem queueIdentify_eq_ok (h : f.queueIdentify identifyDigest now = .ok f') :
    (∃ task, task.subject = .identify ((view f).input identifyDigest) ∧ (view f).Opens task ∧
        ¬(view f).Known task.subject ∧ view f' = (view f).put task) ∨
      (view f).Known (.identify ((view f).input identifyDigest)) ∧
        ∃ task, task.subject = .save (f.note.contentVersion + 1) ∧ (view f).Opens task ∧
          view f' = ((view f).moved .identified).put task := by
  simp only [Folder.queueIdentify, bind_eq_ok] at h
  obtain ⟨⟨f₁, task, fresh⟩, hcreate, h⟩ := h
  obtain ⟨hsubject, hview, hcases⟩ := createTask_eq_ok hcreate
  simp only at h
  split at h
  · rename_i hopen
    simp only [pure_eq_ok] at h
    subst h
    rcases hcases with ⟨rfl, hold⟩ | ⟨-, hnone, hpending, -⟩
    · have hstate : task.state = .pending ∨ task.state = .running := hopen.resolve_left Bool.false_ne_true
      refine .inl ⟨task, hsubject, hstate.imp_right fun hrunning => ⟨hrunning, ?_⟩, ?_, hview⟩
      · rw [hsubject]
        exact hold
      · rintro ⟨other, hother, hdone, -⟩
        rw [hsubject, hold] at hother
        obtain rfl := Option.some.inj hother
        rw [hdone] at hstate
        rcases hstate with hstate | hstate <;> cases hstate
    · refine .inl ⟨task, hsubject, .inl hpending, ?_, hview⟩
      rintro ⟨other, hother, -⟩
      rw [hsubject, hnone] at hother
      cases hother
  · rename_i hclosed
    -- the task is not fresh, so it is the one that was there
    have hold : (view f).task (.identify ((view f).input identifyDigest)) = some task := by
      rcases hcases with ⟨-, hold⟩ | ⟨hfresh, -⟩
      · exact hold
      · exact absurd (.inl hfresh) hclosed
    have hview : view f₁ = view f := by
      rw [hview, put_eq_self]
      rw [hsubject]
      exact hold
    split at h
    · rename_i hdone
      obtain ⟨task', hsubject', hopens, hview'⟩ := queueSave_eq_ok h
      have hmoved : view (f₁.updateNote fun note => { note with state := .identified }) =
          (view f).moved .identified := by
        rw [← hview]
        rfl
      rw [hmoved] at hview' hopens
      have hversion : f₁.note.contentVersion = f.note.contentVersion :=
        congrArg View.contentVersion hview
      refine .inr ⟨⟨task, hold, hdone⟩, task', ?_, hopens, hview'⟩
      rw [hsubject', ← hversion]
      rfl
    · rename_i hnotDone
      obtain ⟨-, task', -, -, hsubject', hpending, hview', -⟩ := resetTask_eq_ok h
      refine .inl ⟨task', hsubject', .inl hpending, ?_, by rw [hview', hview]⟩
      rintro ⟨other, hother, hdone⟩
      rw [hsubject'] at hother
      obtain rfl := Option.some.inj (hother.symm.trans hold)
      exact hnotDone hdone

/-- All images are read: the note goes on to its identification, or past it. -/
private theorem advance_of_read {f₁ : Folder Digest} (hview : view f₁ = (view f).moved .ocrDone)
    (hstate : (view f).state = .detailOk ∧ (view f).AllFetched ∨ (view f).state = .assetsDone)
    (hread : (view f).AllRead) (h : f₁.queueIdentify identifyDigest now = .ok f') :
    Advance identifyDigest (view f) (view f') := by
  have hversion : f₁.note.contentVersion = f.note.contentVersion :=
    congrArg View.contentVersion hview
  rcases queueIdentify_eq_ok h with ⟨task, hsubject, hopens, hnot, hview'⟩ |
    ⟨hdone, task, hsubject, hopens, hview'⟩
  · rw [hview] at hsubject hopens hnot hview'
    rw [hview']
    exact .read hstate hread hsubject hopens hnot
  · rw [hview] at hdone hopens hview'
    rw [hversion] at hsubject
    rw [hview']
    exact .known hstate hread hdone hsubject hopens

/-- A note is moved on once every image is final for its stage. -/
theorem advanceNote_eq_ok (h : f.advanceNote identifyDigest now = .ok f') :
    Advance identifyDigest (view f) (view f') := by
  simp only [Folder.advanceNote] at h
  by_cases hfetched : f.note.state = .detailOk ∧ f.AllFetched
  · rw [if_pos hfetched] at h
    by_cases hread : f.AllRead
    · rw [if_pos ⟨rfl, hread⟩] at h
      exact advance_of_read rfl (.inl hfetched) hread h
    · rw [if_neg fun hstate => hread hstate.2, pure_eq_ok] at h
      subst h
      exact .fetched hfetched.1 hfetched.2 hread
  · rw [if_neg hfetched] at h
    by_cases hread : f.note.state = .assetsDone ∧ f.AllRead
    · rw [if_pos hread] at h
      exact advance_of_read rfl (.inr hread.1) hread.2 h
    · rw [if_neg hread, pure_eq_ok] at h
      subst h
      exact .stays hfetched hread

end Cortex.Notes
