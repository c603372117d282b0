import Cortex.Notes.Images

/-!
# A task that fails for good

The rows that the task was working on learn of its failure, and the note is moved on where they
were the last that it waited for.  Every image that waited for a refresh fails with it.
-/

namespace Cortex.Notes

open Control Time Transaction View
open Fallback (NoteState TaskState)

variable {Digest : Type} [DecidableEq Digest] {identifyDigest : Text → List (ℕ × Text) → Digest}
  {f f₁ f' : Folder Digest} {v : View Digest} {k : Subject Digest} {task : Task Digest}
  {image : Image} {ordinal : ℕ} {sha256 category : Text} {now : Stamp}

/-! ## Images that wait for a refresh -/

theorem stillPending_eq_ok {l l' : List ℕ} (h : f.stillPending l = .ok l') :
    ordinal ∈ l' ↔ ordinal ∈ l ∧ ∃ image, (view f).images.get? ordinal = some image ∧
      image.downloadState = .pending := by
  induction l generalizing l' with
  | nil =>
      simp only [Folder.stillPending, pure_eq_ok] at h
      subst h
      simp
  | cons head rest ih =>
      simp only [Folder.stillPending, bind_eq_ok, pure_eq_ok, image_eq_ok] at h
      obtain ⟨image, hget, others, hothers, rfl⟩ := h
      have hiff : (∃ other, (view f).images.get? head = some other ∧
          other.downloadState = .pending) ↔ image.downloadState = .pending := by
        rw [hget]
        simp
      by_cases hhead : ordinal = head
      · subst hhead
        rw [hiff]
        split
        · rename_i hpending
          simp [hpending]
        · rename_i hnot
          simp [ih hothers, hiff, hnot]
      · split <;> simp [hhead, ih hothers]

theorem mem_expired : ordinal ∈ f.expired ↔ (view f).Expired ordinal := by
  rw [Folder.expired, Keyset.mem_orderBy, List.mem_filterMap]
  constructor
  · rintro ⟨task, hmem, hordinal⟩
    obtain ⟨hmem, hexpired⟩ := List.mem_filter.1 hmem
    rw [Folder.ordinalOf] at hordinal
    split at hordinal
    · rename_i hsubject
      obtain rfl := Option.some.inj hordinal
      exact ⟨task, Table.get?_eq_some.2 ⟨hmem, hsubject⟩, of_decide_eq_true hexpired⟩
    · cases hordinal
  · rintro ⟨task, hget, hexpired⟩
    obtain ⟨hmem, hsubject⟩ := Table.get?_eq_some.1 hget
    have hsubject : task.subject = .download ordinal := hsubject
    refine ⟨task, List.mem_filter.2 ⟨hmem, decide_eq_true hexpired⟩, ?_⟩
    rw [Folder.ordinalOf, hsubject]

omit [DecidableEq Digest] in
theorem sublist_of_stillPending {l l' : List ℕ} (h : f.stillPending l = .ok l') :
    l'.Sublist l := by
  induction l generalizing l' with
  | nil =>
      simp only [Folder.stillPending, pure_eq_ok] at h
      exact h ▸ .slnil
  | cons head rest ih =>
      simp only [Folder.stillPending, bind_eq_ok, pure_eq_ok] at h
      obtain ⟨image, -, others, hothers, rfl⟩ := h
      split
      · exact (ih hothers).cons_cons head
      · exact (ih hothers).cons head

omit [DecidableEq Digest] in
theorem nodup_expired : f.expired.Nodup := by
  have hinj : ∀ {task task' : Task Digest} {ordinal : ℕ}, ordinal ∈ Folder.ordinalOf task →
      ordinal ∈ Folder.ordinalOf task' → task.subject = task'.subject := by
    intro task task' ordinal h h'
    rw [Option.mem_def, Folder.ordinalOf] at h h'
    split at h <;> split at h' <;> simp_all
  have hkeys : f.tasks.rows.Pairwise fun task task' => task.subject ≠ task'.subject :=
    List.pairwise_map.1 f.tasks.nodup
  refine (List.perm_insertionSort _ _).nodup_iff.2 (List.pairwise_filterMap.2 ?_)
  refine (hkeys.filter _).imp fun hne ordinal h ordinal' h' heq => hne ?_
  exact hinj h (heq ▸ h')

/-- The ordinals that wait for a refresh are those of the pending images whose URL expired. -/
theorem mem_awaitingRefresh {l : List ℕ} (h : f.awaitingRefresh = .ok l) :
    ordinal ∈ l ↔ (view f).Expired ordinal ∧ ∃ image,
      (view f).images.get? ordinal = some image ∧ image.downloadState = .pending := by
  rw [stillPending_eq_ok h, mem_expired]

omit [DecidableEq Digest] in
theorem nodup_awaitingRefresh {l : List ℕ} (h : f.awaitingRefresh = .ok l) : l.Nodup :=
  nodup_expired.sublist (sublist_of_stillPending h)

theorem failImageDownload_eq_ok (h : f.failImageDownload ordinal category = .ok f') :
    ∃ image, (view f).images.get? ordinal = some image ∧
      view f' = (view f).putImage (unfetched image category) := by
  simp only [Folder.failImageDownload, bind_eq_ok, pure_eq_ok] at h
  obtain ⟨image, himage, rfl⟩ := h
  exact ⟨image, image_eq_ok.1 himage, view_updateImage himage⟩

omit [DecidableEq Digest] in
/-- A pending image fails, with its download. -/
theorem sound_unfetched (hv : v.Sound identifyDigest)
    (hget : v.images.get? image.ordinal = some image) (hblank : Blank image)
    (hfailed : v.In (.download image.ordinal) .failed) :
    (v.putImage (unfetched image category)).Sound identifyDigest := by
  have hne : v.images.get? (unfetched image category).ordinal ≠ none := by
    rw [unfetched, hget]
    exact Option.some_ne_none _
  refine hv.file_blank (.putImage hne) (fun other hother hordinal => ?_) hblank.unfetched
    (fun _ => rfl) (.inl hfailed) (fun hrunning => hrunning) nofun
  rwa [eq_of_ordinal hget hother hordinal]

/-- All the images of the list fail; `task` is filed beside them. -/
theorem failAll {l : List ℕ} (hv : v.Sound identifyDigest) (hview : view f = v.put task)
    (hl : ∀ ordinal ∈ l, v.In (.download ordinal) .failed ∧
      ∃ image, v.images.get? ordinal = some image ∧ Blank image)
    (h : l.foldlM (fun f ordinal => f.failImageDownload ordinal category) f = .ok f') :
    ∃ v' : View Digest, v'.Sound identifyDigest ∧ view f' = v'.put task ∧ v'.state = v.state ∧
      v'.task = v.task ∧ (l = [] → v' = v) ∧ ∀ image ∈ v'.images, image.downloadState = .pending →
        image ∈ v.images ∧ image.ordinal ∉ l := by
  induction l generalizing f v with
  | nil =>
      simp only [List.foldlM_nil, pure_eq_ok] at h
      subst h
      exact ⟨v, hv, hview, rfl, rfl, fun _ => rfl, fun image himage _ => ⟨himage, List.not_mem_nil⟩⟩
  | cons ordinal rest ih =>
      simp only [List.foldlM_cons, bind_eq_ok] at h
      obtain ⟨f₁, hfail, h⟩ := h
      obtain ⟨image, hget, hview'⟩ := failImageDownload_eq_ok hfail
      rw [hview] at hget hview'
      obtain ⟨hfailed, hblank⟩ := hl ordinal (.head _)
      obtain ⟨-, rfl⟩ := mem_of_get? hget
      have hblank : Blank image := by
        obtain ⟨other, hother, hblank⟩ := hblank
        obtain rfl : other = image := Option.some.inj (hother.symm.trans hget)
        exact hblank
      have hne : v.images.get? (unfetched image category).ordinal ≠ none := by
        rw [unfetched, ← images_put, hget]
        exact Option.some_ne_none _
      have hrest : ∀ ordinal ∈ rest,
          (v.putImage (unfetched image category)).In (.download ordinal) .failed ∧
            ∃ other, (v.putImage (unfetched image category)).images.get? ordinal = some other ∧
              Blank other := by
        intro ordinal hmem
        obtain ⟨hfailed, other, hother, hblank'⟩ := hl ordinal (.tail _ hmem)
        refine ⟨hfailed, ?_⟩
        by_cases hordinal : ordinal = image.ordinal
        · rw [hordinal]
          exact ⟨_, get?_putImage hne, hblank.unfetched⟩
        · exact ⟨other, (get?_putImage_of_ne hne hordinal).trans hother, hblank'⟩
      obtain ⟨v', hsound, hview'', hstate, htask, -, hpending⟩ :=
        ih (sound_unfetched hv hget hblank hfailed) hview' hrest h
      refine ⟨v', hsound, hview'', hstate, htask, fun hnil => absurd hnil (List.cons_ne_nil _ _),
        fun other hother hwaiting => ?_⟩
      obtain ⟨hold, hnot⟩ := hpending other hother hwaiting
      rcases (mem_putImage hne).1 hold with rfl | ⟨hold, hordinal⟩
      · cases hwaiting
      · exact ⟨hold, fun hin => (List.mem_cons.1 hin).elim hordinal hnot⟩

/-! ## The rows of the task -/

/-- The note is moved on with an image that failed. -/
theorem good_unfetched (hv : v.Good identifyDigest) (hrunning : v.In (.download ordinal) .running)
    (hsubject : task.subject = .download ordinal) (hfailed : task.state = .failed)
    (hview : view f = v.put task) (hfail : f.failImageDownload ordinal category = .ok f₁)
    (h : f₁.advanceNote identifyDigest now = .ok f') : (view f').Good identifyDigest := by
  obtain ⟨image, hget, hview₁⟩ := failImageDownload_eq_ok hfail
  rw [hview] at hget hview₁
  obtain ⟨hmem, rfl⟩ := mem_of_get? hget
  obtain ⟨image', hget', hpending⟩ := hv.toSound.pending_of_running hrunning
  obtain rfl : image' = image := Option.some.inj (hget'.symm.trans hget)
  have hblank : Blank image' := (hv.kept image' hmem).blank (by rw [hpending]; decide)
  have hne : v.images.get? (unfetched image' category).ordinal ≠ none := by
    rw [unfetched, hget']
    exact Option.some_ne_none _
  have hfiles : Files v ((v.putImage (unfetched image' category)).put task)
      (unfetched image' category) :=
    (Files.putImage hne).put (by rw [hsubject]; rfl)
  have hsound : ((v.putImage (unfetched image' category)).put task).Sound identifyDigest := by
    refine hv.toSound.file_blank hfiles (fun other hother hordinal => ?_) hblank.unfetched
      (fun sha256 => task_put_of_ne (by rw [hsubject]; exact nofun))
      (.inl ⟨task, task_put hsubject, hfailed⟩) (fun _ => hrunning) nofun
    rwa [eq_of_ordinal hget' hother hordinal]
  have hadvance := advanceNote_eq_ok h
  rw [hview₁] at hadvance
  exact hadvance.good hsound (.inl (.inl (hv.staged.detailOk_of_pending hmem hpending)))

/-- The failed download waits for the detail that was made due again. -/
theorem good_awaiting {detail : Task Digest} (hv : v.Good identifyDigest)
    (hrunning : v.In (.download ordinal) .running) (hsubject : task.subject = .download ordinal)
    (hexpired : Folder.IsExpired task) (hdetail : detail.subject = .detail)
    (hpending : detail.state = .pending) : ((v.put detail).put task).Good identifyDigest := by
  obtain ⟨image, hget, hwaiting⟩ := hv.toSound.pending_of_running hrunning
  obtain ⟨hmem, rfl⟩ := mem_of_get? hget
  have hblank : Blank image := (hv.kept image hmem).blank (by rw [hwaiting]; decide)
  have hdue : (v.put detail).Sound identifyDigest := by
    refine hv.toSound.put (by rw [hdetail]; rfl) (fun _ => .inl (.inl hpending))
      (fun input hinput => ?_) fun hrunning => ?_
    · rw [hdetail] at hinput
      cases hinput
    · rw [hpending] at hrunning
      cases hrunning
  have hfiles : Files (v.put detail) ((v.put detail).put task) image :=
    (Files.self (v := v.put detail) hget).put (by rw [hsubject]; rfl)
  have hdetail' : ((v.put detail).put task).Waits .detail :=
    Waits.congr ⟨detail, task_put hdetail, .inl hpending⟩
      (task_put_of_ne (by rw [hsubject]; exact nofun))
  refine ⟨hdue.file_blank hfiles (fun other hother hordinal => ?_) hblank
    (fun sha256 => task_put_of_ne (by rw [hsubject]; exact nofun))
    (.inr ⟨hwaiting, ⟨task, task_put hsubject, hexpired⟩, hdetail'⟩) (fun hin => ?_)
    (fun hin => ?_), ?_⟩
  · rwa [eq_of_ordinal hget hother hordinal]
  · exact hrunning.congr (task_put_of_ne (by rw [hdetail]; exact nofun))
  · obtain ⟨other, hother, hstate⟩ := hin
    rw [task_put hdetail] at hother
    obtain rfl := Option.some.inj hother
    rw [hpending] at hstate
    cases hstate
  · rw [Staged, state_put, state_put, hv.staged.detailOk_of_pending hmem hwaiting]
    exact fun hfetched => hfetched image hmem hwaiting

/-- So is one with an image whose transcription failed. -/
theorem good_unread (hv : v.Good identifyDigest) (hrunning : v.In (.ocr ordinal sha256) .running)
    (hsubject : task.subject = .ocr ordinal sha256) (hfailed : task.state = .failed)
    (hview : view f = v.put task)
    (h : f.applyFailure identifyDigest (.ocr ordinal sha256) category now = .ok f') :
    (view f').Good identifyDigest := by
  obtain ⟨image, hget, hsha, hok, hpending⟩ := hv.toSound.unread_of_running hrunning
  obtain ⟨hmem, rfl⟩ := mem_of_get? hget
  simp only [Folder.applyFailure, bind_eq_ok] at h
  obtain ⟨current, hcurrent, h⟩ := h
  obtain rfl : current = image := by
    have hget' := image_eq_ok.1 hcurrent
    rw [hview] at hget'
    exact Option.some.inj (hget'.symm.trans hget)
  rw [if_neg (by simp [hsha, hpending])] at h
  have hadvance := advanceNote_eq_ok h
  rw [view_updateImage hcurrent, hview] at hadvance
  set unread : Image := { current with ocrState := .failed, ocrError := some category }
  have hne : v.images.get? unread.ordinal ≠ none := by
    rw [hget]
    exact Option.some_ne_none _
  have hsound : ((v.putImage unread).put task).Sound identifyDigest :=
    hv.toSound.file_ocr hget hsha hok (by rw [hpending]; decide) rfl hsha hok
      (by
        rw [(hv.kept current hmem).text, hpending]
        exact ⟨fun hsome => (by cases hsome), fun hok => (by cases hok)⟩)
      hsubject (by rw [hfailed]; decide) ⟨task, task_put hsubject, hfailed⟩
      fun input _ _ => ⟨unread, (mem_putImage hne).2 (.inl rfl), fun hsettled => by cases hsettled.2⟩
  refine hadvance.good hsound (.inl ?_)
  rcases hv.staged.moving_of_unread hmem (by rw [hok]; decide) hpending with hstate | ⟨hstate, hall⟩
  · exact .inl hstate
  · refine .inr ⟨hstate, fun other hother => ?_⟩
    rcases (mem_putImage hne).1 hother with rfl | ⟨hother, -⟩
    · exact hall current hmem
    · exact hall other hother

/-- A first detail that fails, or a refresh: the images that waited for it fail. -/
theorem good_undetailed (hv : v.Good identifyDigest) (hrunning : v.In .detail .running)
    (hsubject : task.subject = .detail) (hfailed : task.state = .failed)
    (hview : view f = v.put task)
    (h : f.applyFailure identifyDigest .detail category now = .ok f') :
    (view f').Good identifyDigest := by
  have hinput : ∀ {u : View Digest} input, task.subject = .identify input →
      u.task (.identify input) = none → input = u.input identifyDigest := by
    intro u input hinput
    rw [hsubject] at hinput
    cases hinput
  have hstate : (view f).state = v.state := by
    rw [hview]
    rfl
  simp only [Folder.applyFailure] at h
  split at h
  · rename_i hdiscovered
    have hdiscovered : v.state = .discovered := hstate.symm.trans hdiscovered
    simp only [pure_eq_ok] at h
    subst h
    have hempty := hv.staged.empty (.inl hdiscovered)
    have hsound : (v.put task).Sound identifyDigest :=
      hv.toSound.put (by rw [hsubject]; rfl)
        (fun _ => .inr fun image himage => absurd himage (hempty.images image)) hinput
        (fun hrun => by rw [hfailed] at hrun; cases hrun)
    change ((view f).moved .failed).Good identifyDigest
    rw [hview]
    refine ⟨hsound.moved (by simp), ⟨hempty.images, fun k hk => ?_⟩, task, task_put hsubject, hfailed⟩
    by_contra hne
    refine hne (hempty.tasks k ?_)
    rwa [← task_put_of_ne fun heq => hne (heq.trans hsubject)]
  · rename_i hnot
    have hlate := hv.staged.not_early hrunning fun hdiscovered => hnot (hstate.trans hdiscovered)
    simp only [bind_eq_ok] at h
    obtain ⟨l, hl, f₁, hfold, h⟩ := h
    -- the images that wait, and why
    have hwaiting : ∀ ordinal, ordinal ∈ l ↔ v.Expired ordinal ∧ ∃ image,
        v.images.get? ordinal = some image ∧ image.downloadState = .pending := by
      intro ordinal
      have hmem : ordinal ∈ l ↔ _ := mem_awaitingRefresh hl
      rw [hview] at hmem
      rw [hmem, Expired, task_put_of_ne (by simp [hsubject])]
      rfl
    have hl : ∀ ordinal ∈ l, v.In (.download ordinal) .failed ∧
        ∃ image, v.images.get? ordinal = some image ∧ Blank image := by
      intro ordinal hmem
      obtain ⟨⟨download, hdownload, hexpired⟩, image, hget, hpending⟩ := (hwaiting ordinal).1 hmem
      refine ⟨⟨download, hdownload, hexpired.1⟩, image, hget, ?_⟩
      exact (hv.kept image (mem_of_get? hget).1).blank (by rw [hpending]; decide)
    obtain ⟨v', hsound, hview', hstate', htask, hsame, hpending⟩ :=
      failAll hv.toSound hview hl hfold
    have hnone : v'.NoneExpired := by
      intro image himage hstate
      obtain ⟨hmem, hnot⟩ := hpending image himage hstate
      rcases (hv.kept image hmem).fetch with hmatches | ⟨-, hexpired, -⟩
      · rw [hstate] at hmatches
        exact Waits.congr hmatches (by rw [htask])
      · exact absurd ((hwaiting _).2 ⟨hexpired, image, Table.get?_key hmem, hstate⟩) hnot
    have hsound : (v'.put task).Sound identifyDigest :=
      hsound.put (by rw [hsubject]; rfl) (fun _ => .inr hnone) hinput
        (fun hrun => by rw [hfailed] at hrun; cases hrun)
    have hadvance := advanceNote_eq_ok h
    rw [hview'] at hadvance
    refine hadvance.good hsound ?_
    cases l with
    | nil =>
        rw [hsame rfl]
        exact .inr (hv.staged.put_detail hsubject hlate)
    | cons ordinal rest =>
        obtain ⟨-, image, hget, hstate⟩ := (hwaiting ordinal).1 (.head _)
        refine .inl (.inl ?_)
        rw [state_put, hstate']
        exact hv.staged.detailOk_of_pending (mem_of_get? hget).1 hstate

/-! ## Every task -/

/-- The rows that the task was working on learn of its failure. -/
theorem good_applyFailure (hv : v.Good identifyDigest) (hrunning : v.In k .running)
    (hsubject : task.subject = k) (hfailed : task.state = .failed)
    (hcategory : task.lastError = some category) (hview : view f = v.put task)
    (h : f.applyFailure identifyDigest k category now = .ok f') :
    (view f').Good identifyDigest := by
  cases k with
  | detail => exact good_undetailed hv hrunning hsubject hfailed hview h
  | ocr ordinal sha256 => exact good_unread hv hrunning hsubject hfailed hview h
  | identify input =>
      simp only [Folder.applyFailure, pure_eq_ok] at h
      subst h
      change (view f).Good identifyDigest
      rw [hview]
      exact hv.put_identify hsubject hrunning.ne_none
        (fun hknown => by cases hknown.done.unique hrunning) (by rw [hfailed]; decide)
        fun _ _ => .inr (.inr hfailed)
  | save version =>
      simp only [Folder.applyFailure, pure_eq_ok] at h
      subst h
      change (view f).Good identifyDigest
      rw [hview]
      exact hv.put_save hsubject (hv.staged.late hrunning.ne_none (by simp)) (fun _ => hrunning)
        fun _ _ => .inr (.inl hfailed)
  | download ordinal =>
      simp only [Folder.applyFailure, bind_eq_ok] at h
      obtain ⟨image, himage, h⟩ := h
      split at h
      · -- a download that runs is that of a pending image
        rename_i hnot
        obtain ⟨current, hget, hpending⟩ := hv.toSound.pending_of_running hrunning
        rw [image_eq_ok, hview, images_put, hget] at himage
        obtain rfl := Option.some.inj himage
        exact absurd hpending hnot
      · simp only [bind_eq_ok, orRaise_eq_ok] at h
        obtain ⟨current, hcurrent, h⟩ := h
        have hcurrent : (view f).task (.download ordinal) = some current := hcurrent
        rw [hview, task_put hsubject] at hcurrent
        obtain rfl := Option.some.inj hcurrent
        split at h
        · rename_i hurl
          obtain ⟨hexpired, hrefreshed⟩ := hurl
          unfold Folder.requestRefresh at h
          cases hreset : f.resetTask .detail none now with
          | error error =>
              rw [hreset] at h
              simp only [bind_eq_ok, Bool.false_eq_true, if_false] at h
              obtain ⟨f₁, hfail, hadvance⟩ := h
              exact good_unfetched hv hrunning hsubject hfailed hview hfail hadvance
          | ok f₁ =>
              rw [hreset] at h
              simp only [if_true, pure_eq_ok] at h
              subst h
              obtain ⟨-, detail, -, -, hdetail, hpending, hview₁, -⟩ := resetTask_eq_ok hreset
              rw [hview₁, hview, put_comm (by simp [hsubject, hdetail])]
              refine good_awaiting hv hrunning hsubject ⟨hfailed, ?_, hrefreshed⟩ hdetail hpending
              rw [hcategory, hexpired]
        · simp only [bind_eq_ok] at h
          obtain ⟨f₁, hfail, hadvance⟩ := h
          exact good_unfetched hv hrunning hsubject hfailed hview hfail hadvance

end Cortex.Notes
