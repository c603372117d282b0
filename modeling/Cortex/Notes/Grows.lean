import Cortex.Notes.Pipeline

/-!
# What a run keeps

The bytes of an image, its transcription, the caption of a note that has been read, the answer to
an identification and the versions that were bound are written once: no later command, and no
retry, replaces one.  Only the states go back and forth.
-/

namespace Cortex.Notes

open Control Time Transaction View
open Fallback (NoteState TaskState)

variable {Digest : Type} [DecidableEq Digest] {identifyDigest : Text → List (ℕ × Text) → Digest}
  {f f' start : Folder Digest} {v v' v'' : View Digest} {k : Subject Digest} {task : Task Digest}
  {image : Image} {ordinal : ℕ} {command : Command Digest} {commands : List (Command Digest)}
  {supported : Bool} {caption : Text} {now : Stamp}

/-- The note has been read by its detail. -/
def Read (state : NoteState) : Prop := state ≠ .discovered ∧ state ≠ .failed

instance (state : NoteState) : Decidable (Read state) := by unfold Read; infer_instance

/-- The image has what the earlier one had. -/
structure Extends (image image' : Image) : Prop where
  ordinal : image'.ordinal = image.ordinal
  fileid : image'.fileid = image.fileid
  sha256 : ∀ sha256 ∈ image.sha256, image'.sha256 = some sha256
  text : ∀ text ∈ image.ocrTextSha256, image'.ocrTextSha256 = some text

/-- Nothing that was written is written again. -/
structure Grows (v v' : View Digest) : Prop where
  images : ∀ image ∈ v.images, ∃ image' ∈ v'.images, Extends image image'
  read : Read v.state → Read v'.state
  caption : Read v.state → v'.caption = v.caption
  known : ∀ input, v.Known (.identify input) → v'.Known (.identify input)
  bindings : v.bindings <+: v'.bindings

theorem Extends.refl (image : Image) : Extends image image := ⟨rfl, rfl, fun _ h => h, fun _ h => h⟩

theorem Extends.trans {image₁ image₂ image₃ : Image} (h : Extends image₁ image₂)
    (h' : Extends image₂ image₃) : Extends image₁ image₃ :=
  ⟨h'.ordinal.trans h.ordinal, h'.fileid.trans h.fileid,
    fun sha256 hsha => h'.sha256 sha256 (h.sha256 sha256 hsha),
    fun text htext => h'.text text (h.text text htext)⟩

namespace Grows

omit [DecidableEq Digest] in
theorem refl (v : View Digest) : Grows v v :=
  ⟨fun image himage => ⟨image, himage, .refl image⟩, fun h => h, fun _ => rfl, fun _ h => h,
    List.prefix_rfl⟩

omit [DecidableEq Digest] in
theorem trans (h : Grows v v') (h' : Grows v' v'') : Grows v v'' where
  images image himage := by
    obtain ⟨image', himage', hextends⟩ := h.images image himage
    obtain ⟨image'', himage'', hextends'⟩ := h'.images image' himage'
    exact ⟨image'', himage'', hextends.trans hextends'⟩
  read hread := h'.read (h.read hread)
  caption hread := (h'.caption (h.read hread)).trans (h.caption hread)
  known input hknown := h'.known input (h.known input hknown)
  bindings := h.bindings.trans h'.bindings

omit [DecidableEq Digest] in
/-- The tasks of images, the detail and the saves make no difference. -/
theorem of_eq (himages : v'.images = v.images) (hstate : v'.state = v.state)
    (hcaption : v'.caption = v.caption)
    (hknown : ∀ input, v.Known (.identify input) → v'.Known (.identify input))
    (hbindings : v'.bindings = v.bindings) : Grows v v' where
  images image himage := ⟨image, himages ▸ himage, .refl image⟩
  read hread := hstate ▸ hread
  caption _ := hcaption
  known := hknown
  bindings := hbindings ▸ List.prefix_rfl

/-- A task is filed; an identification that was answered is not. -/
theorem put (h : ¬v.Known task.subject ∨ ∀ input, task.subject ≠ .identify input) :
    Grows v (v.put task) := by
  refine of_eq rfl rfl rfl (fun input hknown => ?_) rfl
  refine hknown.steady (.inl (task_put_of_ne fun heq => ?_))
  rcases h with hnot | hother
  · exact hnot (heq ▸ hknown)
  · exact hother input heq.symm

omit [DecidableEq Digest] in
/-- The note is moved on, or back. -/
theorem moved (v : View Digest) {state : NoteState} (h : Read v.state → Read state) :
    Grows v (v.moved state) :=
  { refl v with read := h }

omit [DecidableEq Digest] in
/-- An image is filed that has what the earlier one had. -/
theorem putImage {new : Image} (hget : v.images.get? ordinal = some image)
    (h : Extends image new) : Grows v (v.putImage new) := by
  obtain ⟨hmem, rfl⟩ := mem_of_get? hget
  have hne : v.images.get? new.ordinal ≠ none := by
    rw [h.ordinal, hget]
    exact Option.some_ne_none _
  refine { refl v with images := fun other hother => ?_ }
  by_cases hordinal : other.ordinal = image.ordinal
  · rw [eq_of_ordinal hget hother hordinal]
    exact ⟨new, (mem_putImage hne).2 (.inl rfl), h⟩
  · refine ⟨other, (mem_putImage hne).2 (.inr ⟨hother, ?_⟩), .refl other⟩
    rwa [h.ordinal]

theorem advance (h : Advance identifyDigest v v') : Grows v v' := by
  cases h with
  | stays => exact refl v
  | fetched => exact moved v fun _ => by decide
  | read hstate hread hsubject hopens hnot =>
      exact (moved v fun _ => by decide).trans (put (.inl hnot))
  | known hstate hread hdone hsubject hopens =>
      exact (moved v fun _ => by decide).trans (put (.inr (by rw [hsubject]; exact nofun)))

end Grows

/-! ## Functions of the store -/

omit [DecidableEq Digest] in
theorem not_known {state : TaskState} (h : v.In k state) (hstate : state ≠ .done) : ¬v.Known k :=
  fun hknown => hstate (h.unique hknown.done)

theorem grows_resetTask {download : Option Download} (h : f.resetTask k download now = .ok f')
    (hk : ¬(view f).Known k ∨ ∀ input, k ≠ .identify input) : Grows (view f) (view f') := by
  obtain ⟨-, task, -, -, hsubject, -, hview, -⟩ := resetTask_eq_ok h
  exact hview ▸ .put (hsubject ▸ hk)

theorem grows_createTask {download : Download} {fresh : Bool}
    (h : f.createTask k download now = .ok (f', task, fresh)) : Grows (view f) (view f') := by
  obtain ⟨hsubject, hview, hcases⟩ := createTask_eq_ok h
  rcases hcases with ⟨-, hold⟩ | ⟨-, hnone, -⟩
  · rw [hview, put_eq_self (by rw [hsubject]; exact hold)]
    exact .refl _
  · refine hview ▸ .put (.inl fun hknown => hknown.done.ne_none ?_)
    rw [hsubject]
    exact hnone

theorem grows_queueSave (h : f.queueSave now = .ok f') : Grows (view f) (view f') := by
  obtain ⟨task, hsubject, -, hview⟩ := queueSave_eq_ok h
  exact hview ▸ .put (.inr (by rw [hsubject]; exact nofun))

theorem grows_completeTask {answer : Answer} (h : f.completeTask k answer = .ok f') :
    Grows (view f) (view f') := by
  have hrunning : (view f).In k .running := by
    simp only [Folder.completeTask, bind_eq_ok] at h
    obtain ⟨_, hrunning, -⟩ := h
    exact in_of_runningTask hrunning
  obtain ⟨task, hsubject, -, -, hview⟩ := completeTask_eq_ok h
  refine hview ▸ .put (.inl ?_)
  rw [hsubject]
  exact not_known hrunning (by decide)

theorem grows_advanceNote (h : f.advanceNote identifyDigest now = .ok f') :
    Grows (view f) (view f') :=
  .advance (advanceNote_eq_ok h)

theorem grows_updateTask {g : Task Digest → Task Digest} {state : TaskState}
    {hg : ∀ task, (g task).subject = task.subject} (h : (view f).In k state)
    (hk : state ≠ .done ∨ ∀ input, k ≠ .identify input) :
    Grows (view f) (view (f.updateTask k g hg)) := by
  obtain ⟨task, hget, hstate⟩ := h
  rw [view_updateTask hget]
  have hsubject : (g task).subject = k := (hg task).trans (Table.get?_eq_some.1 hget).2
  exact .put (hsubject ▸ hk.imp_left (not_known ⟨task, hget, hstate⟩))

theorem grows_updateImage {g : Image → Image} {hg : ∀ image, (g image).ordinal = image.ordinal}
    (h : f.image ordinal = .ok image) (hextends : Extends image (g image)) :
    Grows (view f) (view (f.updateImage ordinal g hg)) := by
  rw [view_updateImage h]
  exact .putImage (image_eq_ok.1 h) hextends

theorem grows_failImageDownload {category : Text}
    (h : f.failImageDownload ordinal category = .ok f') : Grows (view f) (view f') := by
  obtain ⟨image, hget, hview⟩ := failImageDownload_eq_ok h
  exact hview ▸ .putImage hget ⟨rfl, rfl, fun _ h => h, fun _ h => h⟩

/-- What the commands of a loop keep, the loop does. -/
theorem grows_foldlM {α : Type*} {step : Folder Digest → α → Except StoreError (Folder Digest)}
    (hstep : ∀ {f f' a}, step f a = .ok f' → Grows (view f) (view f')) {l : List α}
    (h : l.foldlM step f = .ok f') : Grows (view f) (view f') := by
  induction l generalizing f with
  | nil =>
      simp only [List.foldlM_nil, pure_eq_ok] at h
      exact h ▸ .refl _
  | cons a rest ih =>
      simp only [List.foldlM_cons, bind_eq_ok] at h
      obtain ⟨f₁, hhead, hrest⟩ := h
      exact (hstep hhead).trans (ih hrest)

theorem grows_refreshDownload {images : List Folder.DetailImage}
    (h : Folder.refreshDownload images now f ordinal = .ok f') : Grows (view f) (view f') := by
  rcases refreshDownload_eq_ok h with hfail | ⟨task, hsubject, -, hview⟩
  · exact grows_failImageDownload hfail
  · exact hview ▸ .put (.inr (by rw [hsubject]; exact nofun))

theorem grows_upsertImage {fileid : Text} (h : f.upsertImage ordinal fileid = .ok f') :
    Grows (view f) (view f') := by
  simp only [Folder.upsertImage, bind_eq_ok] at h
  obtain ⟨-, -, -, -, h⟩ := h
  split at h
  · simp only [bind_eq_ok, orRaise_eq_ok, pure_eq_ok] at h
    obtain ⟨images, hinsert, rfl⟩ := h
    refine { Grows.refl (view f) with images := fun image himage => ?_ }
    exact ⟨image, (Table.mem_insert hinsert).2 (.inl himage), .refl image⟩
  · simp only [bind_eq_ok, pure_eq_ok] at h
    obtain ⟨-, -, rfl⟩ := h
    exact .refl _

theorem grows_storeImage {image : Folder.DetailImage} (h : Folder.storeImage now f image = .ok f') :
    Grows (view f) (view f') := by
  simp only [Folder.storeImage, bind_eq_ok] at h
  obtain ⟨f₁, hupsert, ⟨f₂, task, fresh⟩, hcreate, h⟩ := h
  refine (grows_upsertImage hupsert).trans ((grows_createTask hcreate).trans ?_)
  simp only at h
  split at h
  · have htask : (view f₂).In (.download image.ordinal) task.state := by
      obtain ⟨hsubject, hview, -⟩ := createTask_eq_ok hcreate
      rw [hview]
      exact ⟨task, task_put hsubject, rfl⟩
    exact (grows_updateTask htask (.inr (by simp))).trans (grows_failImageDownload h)
  · simp only [pure_eq_ok] at h
    exact h ▸ .refl _

/-! ## Commands -/

theorem grows_applyDetail {detail : Folder.Detail}
    (h : f.applyDetail identifyDigest detail now = .ok f') : Grows (view f) (view f') := by
  unfold Folder.applyDetail at h
  split at h
  · simp only [bind_eq_ok] at h
    obtain ⟨l, -, f₁, hfold, hadvance⟩ := h
    exact (grows_foldlM grows_refreshDownload hfold).trans (grows_advanceNote hadvance)
  · rename_i hdiscovered
    have hdiscovered : f.note.state = .discovered := not_not.1 hdiscovered
    have hread : ∀ state, Grows (view f) (view (f.updateNote fun note =>
        { note with state, caption := detail.caption })) := fun state =>
      { Grows.refl (view f) with
        read := fun hread => absurd hdiscovered hread.1
        caption := fun hread => absurd hdiscovered hread.1 }
    split at h
    · simp only [pure_eq_ok] at h
      exact h ▸ hread .unsupported
    · simp only [bind_eq_ok] at h
      obtain ⟨f₁, hfold, hadvance⟩ := h
      exact (hread .detailOk).trans ((grows_foldlM grows_storeImage hfold).trans
        (grows_advanceNote hadvance))

theorem grows_applyFailure {category : Text}
    (h : f.applyFailure identifyDigest k category now = .ok f') : Grows (view f) (view f') := by
  cases k with
  | detail =>
      simp only [Folder.applyFailure] at h
      split at h
      · rename_i hdiscovered
        simp only [pure_eq_ok] at h
        subst h
        exact .moved (view f) fun hread => absurd hdiscovered hread.1
      · simp only [bind_eq_ok] at h
        obtain ⟨l, -, f₁, hfold, hadvance⟩ := h
        exact (grows_foldlM grows_failImageDownload hfold).trans (grows_advanceNote hadvance)
  | download ordinal =>
      simp only [Folder.applyFailure, bind_eq_ok] at h
      obtain ⟨image, -, h⟩ := h
      split at h
      · simp only [pure_eq_ok] at h
        exact h ▸ .refl _
      · simp only [bind_eq_ok] at h
        obtain ⟨task, -, h⟩ := h
        split at h
        · unfold Folder.requestRefresh at h
          cases hreset : f.resetTask .detail none now with
          | error error =>
              rw [hreset] at h
              simp only [Bool.false_eq_true, if_false, bind_eq_ok] at h
              obtain ⟨f₁, hfail, hadvance⟩ := h
              exact (grows_failImageDownload hfail).trans (grows_advanceNote hadvance)
          | ok f₁ =>
              rw [hreset] at h
              simp only [if_true, pure_eq_ok] at h
              exact h ▸ grows_resetTask hreset (.inr (by simp))
        · simp only [bind_eq_ok] at h
          obtain ⟨f₁, hfail, hadvance⟩ := h
          exact (grows_failImageDownload hfail).trans (grows_advanceNote hadvance)
  | ocr ordinal sha256 =>
      simp only [Folder.applyFailure, bind_eq_ok] at h
      obtain ⟨image, himage, h⟩ := h
      split at h
      · simp only [pure_eq_ok] at h
        exact h ▸ .refl _
      · exact (grows_updateImage himage ⟨rfl, rfl, fun _ h => h, fun _ h => h⟩).trans
          (grows_advanceNote h)
  | identify input | save version =>
      simp only [Folder.applyFailure, pure_eq_ok] at h
      exact h ▸ .of_eq rfl rfl rfl (fun _ h => h) rfl

/-- A download finds an image without bytes, so it replaces none. -/
theorem grows_recordDownload {sha256 : Text} (hv : (view f).Good identifyDigest)
    (h : f.recordDownload identifyDigest ordinal sha256 now = .ok f') :
    Grows (view f) (view f') := by
  simp only [Folder.recordDownload, Folder.applyDownload, bind_eq_ok] at h
  obtain ⟨_, hrunning, f₃, ⟨current, hcurrent, ⟨f₂, ocr, fresh⟩, hcreate, hadvance⟩, h⟩ := h
  obtain ⟨image, hget, hpending⟩ := hv.toSound.pending_of_running (in_of_runningTask hrunning)
  obtain rfl := Option.some.inj ((image_eq_ok.1 hcurrent).symm.trans hget)
  have hblank := (hv.kept current (mem_of_get? hget).1).blank (by rw [hpending]; decide)
  have hextends : Extends current (fetched current sha256) := by
    refine ⟨rfl, rfl, fun sha hsha => ?_, fun text htext => ?_⟩
    · rw [hblank.sha256] at hsha
      cases hsha
    · rw [hblank.text] at htext
      cases htext
  have hother : current.sha256 ≠ some sha256 := by
    rw [hblank.sha256]
    exact (Option.some_ne_none _).symm
  refine Grows.trans (grows_updateImage hcurrent ?_) ((grows_createTask hcreate).trans
    ((grows_advanceNote hadvance).trans (grows_completeTask h)))
  simp only [if_pos hother]
  exact hextends

/-- A transcription finds an image without text. -/
theorem grows_recordOcr {sha256 text : Text} (hv : (view f).Good identifyDigest)
    (h : f.recordOcr identifyDigest ordinal sha256 text now = .ok f') :
    Grows (view f) (view f') := by
  simp only [Folder.recordOcr, Folder.applyOcr, bind_eq_ok] at h
  obtain ⟨_, -, ⟨f₂, answer⟩, ⟨current, hcurrent, happly⟩, h⟩ := h
  refine Grows.trans ?_ (grows_completeTask h)
  split at happly
  · simp only [pure_eq_ok, Prod.mk.injEq] at happly
    exact happly.1 ▸ .refl _
  · rename_i hcause
    simp only [bind_eq_ok, pure_eq_ok, Prod.mk.injEq] at happly
    obtain ⟨f₃, hadvance, rfl, -⟩ := happly
    have hpending : current.ocrState = .pending := not_not.1 fun hnot => hcause (.inr hnot)
    have hkept := hv.kept current (ordinal_of_image hcurrent).1
    refine (grows_updateImage hcurrent ⟨rfl, rfl, fun _ h => h, fun text htext => ?_⟩).trans
      (grows_advanceNote hadvance)
    have hok := hkept.text.1 (by rw [htext]; rfl)
    rw [hpending] at hok
    cases hok

theorem grows_recordIdentify {input : Digest} {stale : Bool}
    (h : f.recordIdentify identifyDigest input stale now = .ok f') : Grows (view f) (view f') := by
  simp only [Folder.recordIdentify, Folder.applyIdentify, bind_eq_ok] at h
  obtain ⟨_, -, -, -, ⟨f₂, answer⟩, happly, h⟩ := h
  refine Grows.trans ?_ (grows_completeTask h)
  split at happly
  · simp only [pure_eq_ok, Prod.mk.injEq] at happly
    exact happly.1 ▸ .refl _
  · simp only [bind_eq_ok, pure_eq_ok, Prod.mk.injEq] at happly
    obtain ⟨f₃, hqueue, rfl, -⟩ := happly
    have hmoved : Grows (view f) (view (f.updateNote fun note =>
        { note with state := .identified, lastError := none })) :=
      .moved (view f) fun _ => (by decide : Read .identified)
    exact hmoved.trans (grows_queueSave hqueue)

theorem grows_recordSave {version : ℕ} {tree : Text} {rootEnabled changed : Bool}
    (h : f.recordSave version tree rootEnabled changed now = .ok f') :
    Grows (view f) (view f') := by
  simp only [Folder.recordSave, Folder.applySave, bind_eq_ok] at h
  obtain ⟨_, -, ⟨f₂, answer⟩, happly, h⟩ := h
  refine Grows.trans ?_ (grows_completeTask h)
  split at happly
  · simp only [pure_eq_ok, Prod.mk.injEq] at happly
    exact happly.1 ▸ .refl _
  · simp only [bind_eq_ok] at happly
    obtain ⟨f₁, hbind, happly⟩ := happly
    have hbound : Grows (view f) (view f₁) := by
      simp only [Folder.appendContentBinding, bind_eq_ok] at hbind
      obtain ⟨-, -, hbind⟩ := hbind
      split at hbind
      · simp only [bind_eq_ok, pure_eq_ok] at hbind
        obtain ⟨-, -, rfl⟩ := hbind
        exact .refl _
      · simp only [bind_eq_ok, pure_eq_ok] at hbind
        obtain ⟨-, -, -, -, rfl⟩ := hbind
        exact { Grows.refl (view f) with bindings := List.prefix_append _ _ }
    have hsaved : Grows (view f₁) (view (f₁.updateNote fun note =>
        { note with state := .saved, contentVersion := version, lastError := none })) :=
      { Grows.refl (view f₁) with read := fun _ => (by decide : Read .saved) }
    refine hbound.trans (hsaved.trans ?_)
    split at happly
    · simp only [bind_eq_ok, pure_eq_ok, Prod.mk.injEq] at happly
      obtain ⟨f₃, hqueue, rfl, -⟩ := happly
      exact grows_queueSave hqueue
    · simp only [pure_eq_ok, Prod.mk.injEq] at happly
      exact happly.1 ▸ .refl _

/-- A retried image has no text that it could lose. -/
theorem grows_clearImage {r : Folder.Retry Digest} (hv : (view f).Good identifyDigest)
    (h : f.clearImage ordinal = .ok r) : Grows (view f) (view r.folder) := by
  obtain ⟨-, image, hget, hcases⟩ := clearImage_eq_ok h
  have hkept := hv.kept image (mem_of_get? hget).1
  rcases hcases with ⟨hfailed, hview, -⟩ | ⟨-, hfailed, hview, -⟩
  · have hblank := hkept.blank (by rw [hfailed]; decide)
    refine hview ▸ .putImage hget ⟨rfl, rfl, fun _ h => h, fun text htext => ?_⟩
    rw [hblank.text] at htext
    cases htext
  · refine hview ▸ .putImage hget ⟨rfl, rfl, fun _ h => h, fun text htext => ?_⟩
    have hok := hkept.text.1 (by rw [htext]; rfl)
    rw [hfailed] at hok
    cases hok

theorem grows_finish {r : Folder.Retry Digest} (hclear : f.clearImage ordinal = .ok r)
    (h : r.finish now = .ok f') : Grows (view r.folder) (view f') := by
  obtain ⟨-, image, -, hcases⟩ := clearImage_eq_ok hclear
  have hstage : Read r.stage := by
    rcases hcases with ⟨-, -, -, hstage⟩ | ⟨-, -, -, hstage, -⟩ <;> rw [hstage] <;> decide
  obtain ⟨task, hsubject, -, hfinish⟩ := finish_eq_ok h
  have hk : ¬(view r.folder).Known task.subject ∨ ∀ input, task.subject ≠ .identify input := by
    rw [hsubject]
    rcases hcases with ⟨-, -, hsub, -⟩ | ⟨-, -, -, -, _, -, hsub⟩ <;> rw [hsub] <;> exact .inr nofun
  rcases hfinish with ⟨-, hview⟩ | ⟨-, hview⟩
  · exact hview ▸ (Grows.put hk).trans (.moved _ fun _ => hstage)
  · exact hview ▸ .put hk

theorem grows_retryByTask {retried : Bool} (hv : (view f).Good identifyDigest)
    (h : f.retryByTask ordinal now = .ok (f', retried)) : Grows (view f) (view f') := by
  unfold Folder.retryByTask at h
  split at h
  · rename_i r hclear
    have hcleared := grows_clearImage hv hclear
    split at h
    · rename_i f₁ hfinish
      simp only [pure_eq_ok, Prod.mk.injEq] at h
      obtain ⟨rfl, -⟩ := h
      exact hcleared.trans (grows_finish hclear hfinish)
    · simp only [pure_eq_ok, Prod.mk.injEq] at h
      exact h.1 ▸ hcleared
    · cases h
  · simp only [pure_eq_ok, Prod.mk.injEq] at h
    exact h.1 ▸ .refl _
  · cases h

theorem grows_retryTask {retried : Bool} (hv : (view f).Good identifyDigest)
    (hk : (view f).In k .failed) (h : f.retryTask k now = .ok (f', retried)) :
    Grows (view f) (view f') := by
  have hrefused : ∀ {f'}, (pure (f, false) : Except StoreError (Folder Digest × Bool)) =
      .ok (f', retried) → Grows (view f) (view f') := by
    intro f' h
    simp only [pure_eq_ok, Prod.mk.injEq] at h
    exact h.1 ▸ .refl _
  cases k with
  | download ordinal | ocr ordinal sha256 =>
      simp only [Folder.retryTask, bind_eq_ok] at h
      obtain ⟨image, -, h⟩ := h
      split at h
      · exact hrefused h
      · exact grows_retryByTask hv h
  | detail =>
      simp only [Folder.retryTask] at h
      split at h
      · exact hrefused h
      · rename_i hfailed
        simp only [bind_eq_ok, pure_eq_ok, Prod.mk.injEq] at h
        obtain ⟨f₁, hreset, rfl, -⟩ := h
        have hmoved : Grows (view f) (view (f.updateNote fun note =>
            { note with state := .discovered, lastError := none })) :=
          .moved (view f) fun hread => absurd (not_not.1 hfailed) hread.2
        exact hmoved.trans (grows_resetTask hreset (.inr (by simp)))
  | identify input | save version =>
      simp only [Folder.retryTask] at h
      split at h
      · exact hrefused h
      · simp only [bind_eq_ok, pure_eq_ok, Prod.mk.injEq] at h
        obtain ⟨f₁, hreset, rfl, -⟩ := h
        have hsame : Grows (view f) (view (f.updateNote fun note =>
            { note with lastError := none })) := .of_eq rfl rfl rfl (fun _ h => h) rfl
        exact hsame.trans (grows_resetTask hreset (.inl (not_known hk (by decide))))

theorem grows_retryAll {l : List (Subject Digest)} (hv : (view f).Good identifyDigest)
    (h : l.foldlM (Folder.retryIfFailed now) f = .ok f') : Grows (view f) (view f') := by
  induction l generalizing f with
  | nil =>
      simp only [List.foldlM_nil, pure_eq_ok] at h
      exact h ▸ .refl _
  | cons k rest ih =>
      simp only [List.foldlM_cons, bind_eq_ok] at h
      obtain ⟨f₁, hretry, hrest⟩ := h
      have hgood : (view f₁).Good identifyDigest := by
        obtain ⟨f₂, hretry', hgood, -⟩ := retryIfFailed_ok hv k now
        rwa [← Except.ok.inj (hretry'.symm.trans hretry)]
      refine Grows.trans ?_ (ih hgood hrest)
      unfold Folder.retryIfFailed at hretry
      split at hretry
      · rename_i hany
        obtain ⟨⟨f₂, retried⟩, htask, rfl⟩ := map_eq_ok.1 hretry
        obtain ⟨task, hget, hfailed⟩ := (Option.any_eq_true _ _).1 hany
        exact grows_retryTask hv ⟨task, hget, of_decide_eq_true hfailed⟩ htask
      · simp only [pure_eq_ok] at hretry
        exact hretry ▸ .refl _

theorem grows_step (hv : (view f).Good identifyDigest) (h : Step identifyDigest f command f') :
    Grows (view f) (view f') := by
  unfold Step at h
  cases command with
  | claim k now =>
      simp only [Folder.perform, Folder.claimTask, bind_eq_ok, orRaise_eq_ok, require_eq_ok,
        pure_eq_ok] at h
      obtain ⟨task, hget, -, hstate, rfl⟩ := h
      have hclosed : task.state ≠ .done := fun hdone => by
        rw [hdone] at hstate
        rcases hstate with ⟨hstate, -⟩ | ⟨hstate, -⟩ <;> cases hstate
      have hclaimed : Grows (view f) (view (f.updateTask k fun task =>
          { task with state := .running, attempts := task.attempts + 1 })) :=
        grows_updateTask ⟨task, hget, rfl⟩ (.inl hclosed)
      exact hclaimed.trans (.of_eq rfl rfl rfl (fun _ h => h) rfl)
  | release k nextAttemptAt =>
      simp only [Folder.perform, Folder.releaseTask, bind_eq_ok, pure_eq_ok] at h
      obtain ⟨task, hrunning, rfl⟩ := h
      exact grows_updateTask (in_of_runningTask hrunning) (.inl (by decide))
  | expire k now =>
      simp only [Folder.perform, Folder.expireTask, bind_eq_ok] at h
      obtain ⟨task, hrunning, -, -, h⟩ := h
      exact (grows_updateTask (in_of_runningTask hrunning) (.inl (by decide))).trans
        (grows_applyFailure h)
  | fail k category nextAttemptAt now =>
      simp only [Folder.perform, Folder.failTask, bind_eq_ok] at h
      obtain ⟨-, -, task, hrunning, h⟩ := h
      have hrunning := in_of_runningTask hrunning
      split at h
      · simp only [pure_eq_ok] at h
        exact h ▸ grows_updateTask hrunning (.inl (by decide))
      · exact (grows_updateTask hrunning (.inl (by decide))).trans (grows_applyFailure h)
  | findNothing k =>
      simp only [Folder.perform, Folder.findNothing, bind_eq_ok, pure_eq_ok] at h
      obtain ⟨_, -, _, -, -, -, rfl⟩ := h
      exact .of_eq rfl rfl rfl (fun _ h => h) rfl
  | skip k =>
      simp only [Folder.perform, Folder.skipTask, bind_eq_ok] at h
      obtain ⟨-, -, h⟩ := h
      exact grows_completeTask h
  | detail detail now =>
      simp only [Folder.perform, Folder.recordDetail, bind_eq_ok] at h
      obtain ⟨_, -, f₁, happly, h⟩ := h
      exact (grows_applyDetail happly).trans (grows_completeTask h)
  | download ordinal sha256 now => exact grows_recordDownload hv h
  | ocr ordinal sha256 text now => exact grows_recordOcr hv h
  | identify input stale now => exact grows_recordIdentify h
  | save version tree rootEnabled changed now => exact grows_recordSave h
  | saveChange now =>
      simp only [Folder.perform, Folder.saveChange] at h
      split at h
      · exact grows_queueSave h
      · simp only [pure_eq_ok] at h
        exact h ▸ .refl _
  | retryImage ordinal now =>
      simp only [Folder.perform, Folder.retryImage, bind_eq_ok] at h
      obtain ⟨r, hclear, hfinish⟩ := h
      exact (grows_clearImage hv hclear).trans (grows_finish hclear hfinish)
  | retryFailed selects now => exact grows_retryAll hv h

/-! ## Every run -/

theorem grows_of_history {later earlier : List (Command Digest)} {m : Folder Digest}
    (hinjective : ∀ caption, Function.Injective (identifyDigest caption))
    (hstart : Folder.insertNote supported caption now = .ok start)
    (hearlier : History (Step identifyDigest) start earlier m)
    (hlater : History (Step identifyDigest) m later f) : Grows (view m) (view f) := by
  have hm := good_of_history hinjective hstart hearlier
  have hboth : (view f).Good identifyDigest ∧ Grows (view m) (view f) :=
    hlater.invariant (P := fun f => (view f).Good identifyDigest ∧ Grows (view m) (view f))
      ⟨hm, .refl _⟩ fun ⟨hv, hgrows⟩ hstep =>
        ⟨good_step hinjective hv hstep, hgrows.trans (grows_step hv hstep)⟩
  exact hboth.2

/-- Nothing that a run has written is written again by the commands after it: the bytes and the
transcription of an image, the caption once the note is read, and the versions. -/
theorem written_once {later earlier : List (Command Digest)} {m : Folder Digest}
    (hinjective : ∀ caption, Function.Injective (identifyDigest caption))
    (hstart : Folder.insertNote supported caption now = .ok start)
    (hearlier : History (Step identifyDigest) start earlier m)
    (hlater : History (Step identifyDigest) m later f) :
    (∀ image ∈ m.images, ∃ image' ∈ f.images, Extends image image') ∧
      (Read m.note.state → f.note.caption = m.note.caption) ∧ m.bindings <+: f.bindings :=
  have hgrows := grows_of_history hinjective hstart hearlier hlater
  ⟨hgrows.images, hgrows.caption, hgrows.bindings⟩

theorem written_once_postcard :
    let m := postcardAfter postcard identifiedPostcard
    let f := postcardAfter m savedPostcard
    (∀ image ∈ m.images, ∃ image' ∈ f.images, Extends image image') ∧
      (Read m.note.state → f.note.caption = m.note.caption) ∧ m.bindings <+: f.bindings :=
  written_once postcardDigest_injective insertNote_postcard history_identifiedPostcard
    history_savedPostcard

end Cortex.Notes
