import Cortex.Notes.Failures

/-!
# Details that are recorded

An answer changes the rows of its task, moves the note on and completes the task, in this order.
The order does not matter: the note is moved on beside the completed task (`Advance.put`), so it
is enough that the rows and the completed task agree.  The first detail stores the images, a later
one leaves none that waits for its URL.
-/

namespace Cortex.Notes

open Control Time Transaction View
open Fallback (NoteState TaskState)

variable {Digest : Type} [DecidableEq Digest] {identifyDigest : Text → List (ℕ × Text) → Digest}
  {f f₁ f' : Folder Digest} {v : View Digest} {k : Subject Digest} {task : Task Digest}
  {image : Image} {ordinal : ℕ} {sha256 : Text} {answer : Answer} {now : Stamp}

theorem runningTask_eq_ok (h : f.runningTask k = .ok task) :
    (view f).task k = some task ∧ task.state = .running := by
  simp only [Folder.runningTask, bind_eq_ok, orRaise_eq_ok, require_eq_ok, pure_eq_ok] at h
  obtain ⟨running, hget, -, hstate, rfl⟩ := h
  exact ⟨hget, hstate⟩

theorem in_of_runningTask (h : f.runningTask k = .ok task) : (view f).In k .running :=
  ⟨task, runningTask_eq_ok h⟩

theorem completeTask_eq_ok (h : f.completeTask k answer = .ok f') :
    ∃ task : Task Digest, task.subject = k ∧ task.state = .done ∧ task.answer = some answer ∧
      view f' = (view f).put task := by
  simp only [Folder.completeTask, bind_eq_ok, pure_eq_ok] at h
  obtain ⟨running, hrunning, rfl⟩ := h
  have hget := (runningTask_eq_ok hrunning).1
  exact ⟨{ running with state := .done, lastError := none, answer := some answer },
    (Table.get?_eq_some.1 hget).2, rfl, rfl, view_updateTask hget⟩

/-! ## Refreshed downloads -/

/-- A failed download is made due again. -/
theorem sound_refreshed (hv : v.Sound identifyDigest)
    (hget : v.images.get? image.ordinal = some image) (hblank : Blank image)
    (hpending : image.downloadState = .pending) (hsubject : task.subject = .download image.ordinal)
    (hdue : task.state = .pending) : (v.put task).Sound identifyDigest := by
  have hfiles : Files v (v.put task) image := (Files.self hget).put (by rw [hsubject]; rfl)
  have hwaits : (v.put task).Waits (.download image.ordinal) := waits_put hsubject (.inl hdue)
  refine hv.file_blank hfiles (fun other hother hordinal => ?_) hblank
    (fun sha256 => task_put_of_ne (by rw [hsubject]; exact nofun)) (.inl ?_) (fun hin => ?_)
    fun _ _ => hwaits
  · rwa [eq_of_ordinal hget hother hordinal]
  · rw [hpending]
    exact hwaits
  · obtain ⟨other, hother, hstate⟩ := hin
    rw [task_put hsubject] at hother
    obtain rfl := Option.some.inj hother
    rw [hdue] at hstate
    cases hstate

/-- What one refresh comes to: the image fails, or its download is made due again. -/
theorem refreshDownload_eq_ok {images : List Folder.DetailImage}
    (h : Folder.refreshDownload images now f ordinal = .ok f') :
    f.failImageDownload ordinal notFound = .ok f' ∨
      ∃ task : Task Digest, task.subject = .download ordinal ∧ task.state = .pending ∧
        view f' = (view f).put task := by
  simp only [Folder.refreshDownload, bind_eq_ok] at h
  obtain ⟨task, -, h⟩ := h
  split at h
  · exact .inl h
  · obtain ⟨-, due, -, -, hsubject, hpending, hview, -⟩ := resetTask_eq_ok h
    exact .inr ⟨due, hsubject, hpending, hview⟩

/-- One refresh changes the image and its download only, and leaves no image that waits for
its URL. -/
theorem refresh_step {images : List Folder.DetailImage} (hv : (view f).Sound identifyDigest)
    (hfailed : (view f).In (.download ordinal) .failed)
    (hget : (view f).images.get? ordinal = some image) (hpending : image.downloadState = .pending)
    (h : Folder.refreshDownload images now f ordinal = .ok f') :
    (view f').Sound identifyDigest ∧ (view f').state = (view f).state ∧
      (view f').task .detail = (view f).task .detail ∧
      (∀ other ≠ ordinal, (view f').images.get? other = (view f).images.get? other ∧
        (view f').task (.download other) = (view f).task (.download other)) ∧
      ∀ image, (view f').images.get? ordinal = some image → image.downloadState = .pending →
        (view f').Waits (.download ordinal) := by
  obtain ⟨hmem, rfl⟩ := mem_of_get? hget
  have hblank : Blank image := (hv.kept image hmem).blank (by rw [hpending]; decide)
  rcases refreshDownload_eq_ok h with hfail | ⟨task, hsubject, hdue, hview⟩
  · obtain ⟨image', hget', hview⟩ := failImageDownload_eq_ok hfail
    obtain rfl := Option.some.inj (hget'.symm.trans hget)
    have hne : (view f).images.get? (unfetched image' notFound).ordinal ≠ none := by
      rw [unfetched, hget]
      exact Option.some_ne_none _
    rw [hview]
    refine ⟨sound_unfetched hv hget hblank hfailed, rfl, rfl,
      fun other hother => ⟨get?_putImage_of_ne hne hother, rfl⟩, fun image himage hwaiting => ?_⟩
    have hsame := get?_putImage hne
    rw [show (unfetched image' notFound).ordinal = image'.ordinal from rfl, himage] at hsame
    obtain rfl := Option.some.inj hsame
    cases hwaiting
  · rw [hview]
    refine ⟨sound_refreshed hv hget hblank hpending hsubject hdue, rfl,
      task_put_of_ne (by simp [hsubject]), fun other hother =>
        ⟨rfl, task_put_of_ne (by rw [hsubject]; exact fun heq => hother (by injection heq))⟩,
      fun _ _ _ => waits_put hsubject (.inl hdue)⟩

/-- After the refresh no image of the list waits for its URL. -/
theorem refreshAll {images : List Folder.DetailImage} {l : List ℕ}
    (hv : (view f).Sound identifyDigest) (hnodup : l.Nodup)
    (hl : ∀ ordinal ∈ l, (view f).In (.download ordinal) .failed ∧
      ∃ image, (view f).images.get? ordinal = some image ∧ image.downloadState = .pending)
    (h : l.foldlM (Folder.refreshDownload images now) f = .ok f') :
    (view f').Sound identifyDigest ∧ (view f').state = (view f).state ∧
      (view f').task .detail = (view f).task .detail ∧ (l = [] → view f' = view f) ∧
      ∀ ordinal image, (view f').images.get? ordinal = some image →
        image.downloadState = .pending → (view f').Waits (.download ordinal) ∨
          ordinal ∉ l ∧ (view f).images.get? ordinal = some image ∧
            (view f').task (.download ordinal) = (view f).task (.download ordinal) := by
  induction l generalizing f with
  | nil =>
      simp only [List.foldlM_nil, pure_eq_ok] at h
      subst h
      exact ⟨hv, rfl, rfl, fun _ => rfl, fun _ _ hget _ => .inr ⟨List.not_mem_nil, hget, rfl⟩⟩
  | cons ordinal rest ih =>
      simp only [List.foldlM_cons, bind_eq_ok] at h
      obtain ⟨f₁, hrefresh, h⟩ := h
      obtain ⟨hnot, hnodup⟩ := List.nodup_cons.1 hnodup
      obtain ⟨hfailed, image, hget, hpending⟩ := hl ordinal (.head _)
      obtain ⟨hsound, hstate, hdetail, hothers, hdue⟩ :=
        refresh_step hv hfailed hget hpending hrefresh
      have hrest : ∀ ordinal ∈ rest, (view f₁).In (.download ordinal) .failed ∧
          ∃ image, (view f₁).images.get? ordinal = some image ∧
            image.downloadState = .pending := by
        intro other hmem
        obtain ⟨hfailed, hother⟩ := hl other (.tail _ hmem)
        have hne : other ≠ ordinal := fun heq => hnot (heq ▸ hmem)
        rw [(hothers other hne).1]
        exact ⟨hfailed.congr (hothers other hne).2, hother⟩
      obtain ⟨hsound', hstate', hdetail', -, hwaits⟩ := ih hsound hnodup hrest h
      refine ⟨hsound', hstate'.trans hstate, hdetail'.trans hdetail,
        fun hnil => absurd hnil (List.cons_ne_nil _ _),
        fun other image hget hpending => ?_⟩
      rcases hwaits other image hget hpending with hwaits | ⟨hnotRest, hget₁, htask⟩
      · exact .inl hwaits
      · by_cases hother : other = ordinal
        · subst hother
          exact .inl ((hdue image hget₁ hpending).congr htask)
        · obtain ⟨himages, htask₁⟩ := hothers other hother
          exact .inr ⟨fun hmem => (List.mem_cons.1 hmem).elim hother hnotRest,
            himages ▸ hget₁, htask.trans htask₁⟩

/-- A detail that refreshes URLs. -/
theorem good_refreshed {detail : Folder.Detail} {l : List ℕ} {f₂ : Folder Digest}
    (hv : (view f).Good identifyDigest) (hrunning : (view f).In .detail .running)
    (hstate : (view f).state ≠ .discovered) (hl : f.awaitingRefresh = .ok l)
    (hfold : l.foldlM (Folder.refreshDownload detail.images now) f = .ok f₁)
    (hadvance : f₁.advanceNote identifyDigest now = .ok f₂)
    (h : f₂.completeTask .detail answer = .ok f') : (view f').Good identifyDigest := by
  obtain ⟨task, hsubject, hdone, -, hview⟩ := completeTask_eq_ok h
  have hlate := hv.staged.not_early hrunning hstate
  have hwaiting : ∀ ordinal ∈ l, (view f).In (.download ordinal) .failed ∧
      ∃ image, (view f).images.get? ordinal = some image ∧ image.downloadState = .pending := by
    intro ordinal hmem
    obtain ⟨⟨task, hget, hexpired⟩, himage⟩ := (mem_awaitingRefresh hl).1 hmem
    exact ⟨⟨task, hget, hexpired.1⟩, himage⟩
  obtain ⟨hsound, hstate₁, -, hsame, hwaits⟩ :=
    refreshAll hv.toSound (nodup_awaitingRefresh hl) hwaiting hfold
  have hnone : (view f₁).NoneExpired := by
    intro image himage hpending
    rcases hwaits _ image (Table.get?_key himage) hpending with hwaits | ⟨hnot, hget, htask⟩
    · exact hwaits
    · rcases (hv.kept image (mem_of_get? hget).1).fetch with hmatches | ⟨-, hexpired, -⟩
      · rw [hpending] at hmatches
        exact Waits.congr hmatches htask
      · exact absurd ((mem_awaitingRefresh hl).2 ⟨hexpired, image, hget, hpending⟩) hnot
  have hsound : ((view f₁).put task).Sound identifyDigest := by
    refine hsound.put (by rw [hsubject]; rfl) (fun _ => .inr hnone) (fun input hinput => ?_)
      fun hrun => ?_
    · rw [hsubject] at hinput
      cases hinput
    · rw [hdone] at hrun
      cases hrun
  rw [hview]
  refine ((advanceNote_eq_ok hadvance).put (by simp [hsubject]) (by simp [hsubject])).good hsound ?_
  cases l with
  | nil =>
      rw [hsame rfl]
      exact .inr (hv.staged.put_detail hsubject hlate)
  | cons ordinal rest =>
      obtain ⟨-, image, hget, hpending⟩ := hwaiting ordinal (.head _)
      refine .inl (.inl ?_)
      rw [state_put, hstate₁]
      exact hv.staged.detailOk_of_pending (mem_of_get? hget).1 hpending

/-! ## The first detail -/

/-- No image has been fetched, and no download runs. -/
structure Unfetched (v : View Digest) : Prop where
  images : ∀ image ∈ v.images, image.downloadState ≠ .ok
  noneExpired : v.NoneExpired
  idle : ∀ ordinal, ¬v.In (.download ordinal) .running

/-- What one image of the first detail leaves as it was. -/
structure Stores (v v' : View Digest) : Prop where
  state : v'.state = v.state
  detail : v'.task .detail = v.task .detail

omit [DecidableEq Digest] in
theorem Unfetched.download (hv : v.Sound identifyDigest) (h : Unfetched v)
    (himage : image ∈ v.images) :
    v.Waits (.download image.ordinal) ∨ v.In (.download image.ordinal) .failed := by
  cases hstate : image.downloadState with
  | pending => exact .inl (h.noneExpired image himage hstate)
  | ok => exact absurd hstate (h.images image himage)
  | failed =>
      rcases (hv.kept image himage).fetch with hmatches | ⟨hpending, -⟩
      · rw [hstate] at hmatches
        exact .inr hmatches
      · rw [hstate] at hpending
        cases hpending

/-- A new image waits for its download. -/
theorem sound_stored (hv : v.Sound identifyDigest) (hunfetched : Unfetched v)
    (hnone : v.images.get? image.ordinal = none) (hblank : Blank image)
    (hpending : image.downloadState = .pending) {images : Table Image}
    (hinsert : ∀ other, other ∈ images ↔ other ∈ v.images ∨ other = image)
    (hsubject : task.subject = .download image.ordinal) (hdue : task.state = .pending) :
    ({ v with images }.put task).Sound identifyDigest ∧ Unfetched ({ v with images }.put task) := by
  have hnew : ∀ other ∈ v.images, other.ordinal ≠ image.ordinal := fun other hother hordinal =>
    Table.get?_eq_none.1 hnone other hother hordinal
  have hfiles : Files v ({ v with images }.put task) image := by
    refine Files.put ⟨fun other => ?_, fun _ _ => rfl, fun h => h, rfl, rfl, rfl, rfl⟩
      (by rw [hsubject]; rfl)
    rw [hinsert]
    constructor
    · rintro (hother | rfl)
      · exact .inr ⟨hother, hnew other hother⟩
      · exact .inl rfl
    · rintro (rfl | ⟨hother, -⟩)
      · exact .inr rfl
      · exact .inl hother
  have hwaits : ({ v with images }.put task).Waits (.download image.ordinal) :=
    waits_put hsubject (.inl hdue)
  have hidle : ¬({ v with images }.put task).In (.download image.ordinal) .running := by
    rintro ⟨other, hother, hstate⟩
    rw [task_put hsubject] at hother
    obtain rfl := Option.some.inj hother
    rw [hdue] at hstate
    cases hstate
  refine ⟨hv.file_blank hfiles (fun other hother hordinal => absurd hordinal (hnew other hother))
    hblank (fun sha256 => task_put_of_ne (by rw [hsubject]; exact nofun)) (.inl ?_)
    (fun hin => absurd hin hidle) fun _ _ => hwaits, ?_, ?_, fun ordinal hin => ?_⟩
  · rw [hpending]
    exact hwaits
  · intro other hother
    rcases (hfiles.images other).1 hother with rfl | ⟨hother, -⟩
    · rw [hpending]
      decide
    · exact hunfetched.images other hother
  · intro other hother hstate
    rcases (hfiles.images other).1 hother with rfl | ⟨hother, hne⟩
    · exact hwaits
    · exact (hunfetched.noneExpired other hother hstate).congr (hfiles.download hne)
  · by_cases hordinal : ordinal = image.ordinal
    · exact hidle (hordinal ▸ hin)
    · exact hunfetched.idle ordinal (hin.congr (hfiles.download hordinal).symm)

/-- The image is there, with its download. -/
theorem upsert_eq_ok {fileid : Text} {download : Download} {fresh : Bool} {f₂ : Folder Digest}
    (hv : (view f).Sound identifyDigest) (hunfetched : Unfetched (view f))
    (hupsert : f.upsertImage ordinal fileid = .ok f₁)
    (hcreate : f₁.createTask (.download ordinal) download now = .ok (f₂, task, fresh)) :
    (view f₂).Sound identifyDigest ∧ Unfetched (view f₂) ∧ Stores (view f) (view f₂) ∧
      (view f₂).task (.download ordinal) = some task := by
  obtain ⟨hsubject, hview, hcases⟩ := createTask_eq_ok hcreate
  have hdetail : ((view f₁).put task).task .detail = (view f₁).task .detail :=
    task_put_of_ne (by simp [hsubject])
  simp only [Folder.upsertImage, bind_eq_ok] at hupsert
  obtain ⟨-, -, -, -, hupsert⟩ := hupsert
  rw [hview]
  split at hupsert
  · rename_i hnone
    simp only [bind_eq_ok, orRaise_eq_ok, pure_eq_ok] at hupsert
    obtain ⟨images, hinsert, rfl⟩ := hupsert
    have hdue : task.state = .pending := by
      rcases hcases with ⟨-, hold⟩ | ⟨-, -, hpending, -⟩
      · have hold : (view f).task (.download ordinal) = some task := hold
        exact absurd hnone (hv.downloads ordinal (by rw [hold]; exact Option.some_ne_none _))
      · exact hpending
    set image : Image :=
      { ordinal, fileid, downloadState := .pending, downloadError := none, sha256 := none
        ocrState := .pending, ocrError := none, ocrTextSha256 := none }
    have hnone : (view f).images.get? image.ordinal = none := hnone
    have hblank : ImageState.pending ≠ .ok := by decide
    obtain ⟨hsound, hunfetched⟩ := sound_stored hv hunfetched hnone ⟨hblank, rfl, rfl, rfl⟩ rfl
      (fun _ => Table.mem_insert hinsert) hsubject hdue
    exact ⟨hsound, hunfetched, ⟨rfl, hdetail⟩, task_put hsubject⟩
  · rename_i image hget
    simp only [bind_eq_ok, require_eq_ok, pure_eq_ok] at hupsert
    obtain ⟨-, -, rfl⟩ := hupsert
    obtain ⟨hmem, rfl⟩ : image ∈ (view f).images ∧ image.ordinal = ordinal := mem_of_get? hget
    -- the image has a download already
    have hold : (view f).task (.download image.ordinal) = some task := by
      rcases hcases with ⟨-, hold⟩ | ⟨-, hnone, -⟩
      · exact hold
      · rcases hunfetched.download hv hmem with hwaits | hfailed
        · exact absurd hnone hwaits.ne_none
        · exact absurd hnone hfailed.ne_none
    rw [put_eq_self (by rw [hsubject]; exact hold)]
    exact ⟨hv, hunfetched, ⟨rfl, rfl⟩, hold⟩

/-- An image of the first detail without a URL fails, with its download. -/
theorem sound_unstored {category : Text} (hv : v.Sound identifyDigest) (hunfetched : Unfetched v)
    (hget : v.images.get? image.ordinal = some image)
    (hsubject : task.subject = .download image.ordinal) (hfailed : task.state = .failed) :
    ((v.put task).putImage (unfetched image category)).Sound identifyDigest ∧
      Unfetched ((v.put task).putImage (unfetched image category)) := by
  have hmem := (mem_of_get? hget).1
  have hblank := (hv.kept image hmem).blank (hunfetched.images image hmem)
  have hne : v.images.get? (unfetched image category).ordinal ≠ none := by
    rw [unfetched, hget]
    exact Option.some_ne_none _
  have hfiles : Files v ((v.putImage (unfetched image category)).put task)
      (unfetched image category) := (Files.putImage hne).put (by rw [hsubject]; rfl)
  change ((v.putImage (unfetched image category)).put task).Sound identifyDigest ∧
    Unfetched ((v.putImage (unfetched image category)).put task)
  have hin : ∀ {state}, ((v.putImage (unfetched image category)).put task).In
      (.download image.ordinal) state → state = .failed := by
    rintro state ⟨other, hother, rfl⟩
    rw [task_put hsubject] at hother
    obtain rfl := Option.some.inj hother
    exact hfailed
  refine ⟨hv.file_blank hfiles (fun other hother hordinal => ?_) hblank.unfetched
    (fun sha256 => task_put_of_ne (by simp [hsubject]))
    (.inl ⟨task, task_put hsubject, hfailed⟩) (fun hrunning => by cases hin hrunning)
    (fun _ hpending => by cases hpending),
    ?_, ?_, fun ordinal hrunning => ?_⟩
  · rwa [eq_of_ordinal hget hother hordinal]
  · intro other hother
    rcases (hfiles.images other).1 hother with rfl | ⟨hother, -⟩
    · exact fun hok => by cases hok
    · exact hunfetched.images other hother
  · intro other hother hstate
    rcases (hfiles.images other).1 hother with rfl | ⟨hother, hordinal⟩
    · cases hstate
    · exact (hunfetched.noneExpired other hother hstate).congr (hfiles.download hordinal)
  · by_cases hordinal : ordinal = image.ordinal
    · rw [hordinal] at hrunning
      cases hin hrunning
    · exact hunfetched.idle ordinal (hrunning.congr (hfiles.download hordinal).symm)

/-- One image of the first detail. -/
theorem store_step {image : Folder.DetailImage} (hv : (view f).Sound identifyDigest)
    (hunfetched : Unfetched (view f)) (h : Folder.storeImage now f image = .ok f') :
    (view f').Sound identifyDigest ∧ Unfetched (view f') ∧ Stores (view f) (view f') := by
  simp only [Folder.storeImage, bind_eq_ok] at h
  obtain ⟨f₁, hupsert, ⟨f₂, task, fresh⟩, hcreate, h⟩ := h
  obtain ⟨hsound, hunfetched, hstores, htask⟩ := upsert_eq_ok hv hunfetched hupsert hcreate
  simp only at h
  split at h
  · obtain ⟨current, hget, hview⟩ := failImageDownload_eq_ok h
    rw [view_updateTask htask] at hget hview
    have hget : (view f₂).images.get? image.ordinal = some current := hget
    obtain ⟨hmem, hordinal⟩ := mem_of_get? hget
    rw [← hordinal] at hget htask
    -- a download that does not run has failed, or fails
    have hfailed : (if task.state = .pending then TaskState.failed else task.state) = .failed := by
      split
      · rfl
      · rename_i hnot
        rcases hunfetched.download hsound hmem with hwaits | ⟨other, hother, hstate⟩
        · rcases hwaits.unique htask with hpending | hrunning
          · exact absurd hpending hnot
          · exact absurd ⟨task, htask, hrunning⟩ (hunfetched.idle _)
        · rw [htask] at hother
          rwa [Option.some.inj hother]
    have hsubject : task.subject = .download current.ordinal := (Table.get?_eq_some.1 htask).2
    have hstored : (view f').Sound identifyDigest ∧ Unfetched (view f') := by
      rw [hview]
      exact sound_unstored hsound hunfetched hget hsubject hfailed
    rw [hview] at hstored ⊢
    refine ⟨hstored.1, hstored.2, hstores.state, ?_⟩
    exact (task_put_of_ne (by rw [hsubject]; exact nofun)).trans hstores.detail
  · simp only [pure_eq_ok] at h
    subst h
    exact ⟨hsound, hunfetched, hstores⟩

theorem storeAll {images : List Folder.DetailImage} (hv : (view f).Sound identifyDigest)
    (hunfetched : Unfetched (view f)) (h : images.foldlM (Folder.storeImage now) f = .ok f') :
    (view f').Sound identifyDigest ∧ Unfetched (view f') ∧ Stores (view f) (view f') := by
  induction images generalizing f with
  | nil =>
      simp only [List.foldlM_nil, pure_eq_ok] at h
      subst h
      exact ⟨hv, hunfetched, rfl, rfl⟩
  | cons image rest ih =>
      simp only [List.foldlM_cons, bind_eq_ok] at h
      obtain ⟨f₁, hstore, h⟩ := h
      obtain ⟨hsound, hunfetched, hstores⟩ := store_step hv hunfetched hstore
      obtain ⟨hsound', hunfetched', hstores'⟩ := ih hsound hunfetched h
      exact ⟨hsound', hunfetched', hstores'.state.trans hstores.state,
        hstores'.detail.trans hstores.detail⟩

/-- The first detail of a note with images. -/
theorem good_stored {detail : Folder.Detail} {f₂ : Folder Digest}
    (hv : (view f).Good identifyDigest) (hstate : (view f).state = .discovered)
    (hfold : detail.images.foldlM (Folder.storeImage now) (f.updateNote fun note =>
      { note with state := .detailOk, caption := detail.caption }) = .ok f₁)
    (hadvance : f₁.advanceNote identifyDigest now = .ok f₂)
    (h : f₂.completeTask .detail answer = .ok f') : (view f').Good identifyDigest := by
  obtain ⟨task, hsubject, hdone, -, hview⟩ := completeTask_eq_ok h
  have hempty := hv.staged.empty (.inl hstate)
  have hsound : (view (f.updateNote fun note =>
      { note with state := .detailOk, caption := detail.caption })).Sound identifyDigest :=
    Empty.sound ⟨hempty.images, hempty.tasks⟩ hv.bindings fun _ _ => nofun
  have hunfetched : Unfetched (view (f.updateNote fun note =>
      { note with state := .detailOk, caption := detail.caption })) := by
    refine ⟨fun image himage => absurd himage (hempty.images image),
      fun image himage => absurd himage (hempty.images image), fun ordinal hin => ?_⟩
    exact nomatch hempty.tasks _ hin.ne_none
  obtain ⟨hsound, hunfetched, hstores⟩ := storeAll hsound hunfetched hfold
  have hsound : ((view f₁).put task).Sound identifyDigest := by
    refine hsound.put (by rw [hsubject]; rfl) (fun _ => .inr hunfetched.noneExpired)
      (fun input hinput => ?_) fun hrun => ?_
    · rw [hsubject] at hinput
      cases hinput
    · rw [hdone] at hrun
      cases hrun
  rw [hview]
  exact ((advanceNote_eq_ok hadvance).put (by simp [hsubject]) (by simp [hsubject])).good hsound
    (.inl (.inl hstores.state))

/-- A note without images. -/
theorem good_unsupported {caption : Text} (hv : (view f).Good identifyDigest)
    (hstate : (view f).state = .discovered)
    (h : (f.updateNote fun note => { note with state := .unsupported, caption }).completeTask
      .detail answer = .ok f') : (view f').Good identifyDigest := by
  obtain ⟨task, hsubject, hdone, -, hview⟩ := completeTask_eq_ok h
  have hempty := hv.staged.empty (.inl hstate)
  have hdetail : (view f').In .detail .done := by
    rw [hview]
    exact ⟨task, task_put hsubject, hdone⟩
  have hempty' : (view f').Empty := by
    rw [hview]
    refine ⟨hempty.images, fun k hk => ?_⟩
    by_contra hne
    refine hne (hempty.tasks k ?_)
    rwa [task_put_of_ne fun heq => hne (heq.trans hsubject)] at hk
  have hbindings : (view f').bindings.map Prod.fst = List.range' 1 (view f').contentVersion := by
    rw [hview]
    exact hv.bindings
  refine ⟨hempty'.sound hbindings (fun _ hin => nomatch hdetail.unique hin), ?_⟩
  have hstate' : (view f').state = .unsupported := by
    rw [hview]
    rfl
  rw [Staged, hstate']
  exact ⟨hempty', .inr hdetail⟩

/-- A detail that is recorded. -/
theorem good_recordDetail {detail : Folder.Detail} (hv : (view f).Good identifyDigest)
    (h : f.recordDetail identifyDigest detail now = .ok f') : (view f').Good identifyDigest := by
  simp only [Folder.recordDetail, bind_eq_ok] at h
  obtain ⟨task, hrunning, f₂, happly, h⟩ := h
  have hrunning := in_of_runningTask hrunning
  unfold Folder.applyDetail at happly
  split at happly
  · rename_i hstate
    simp only [bind_eq_ok] at happly
    obtain ⟨l, hl, f₁, hfold, hadvance⟩ := happly
    exact good_refreshed hv hrunning hstate hl hfold hadvance h
  · rename_i hstate
    have hstate : (view f).state = .discovered := not_not.1 hstate
    split at happly
    · simp only [pure_eq_ok] at happly
      subst happly
      exact good_unsupported hv hstate h
    · simp only [bind_eq_ok] at happly
      obtain ⟨f₁, hfold, hadvance⟩ := happly
      exact good_stored hv hstate hfold hadvance h

end Cortex.Notes
