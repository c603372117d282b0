import Cortex.Notes.Details

/-!
# The other answers that are recorded

A download and a transcription change one image, an identification and a save the stage of the
note.  An identification that was skipped or refused as stale was for another input, or some image
has failed since; only a save may end without a word while its version is still to be written.
-/

namespace Cortex.Notes

open Control Time Transaction View
open Fallback (NoteState TaskState)

variable {Digest : Type} [DecidableEq Digest] {identifyDigest : Text → List (ℕ × Text) → Digest}
  {f f₁ f' : Folder Digest} {v : View Digest} {k : Subject Digest} {task : Task Digest}
  {image : Image} {ordinal version : ℕ} {sha256 text : Text} {answer : Answer} {now : Stamp}

/-! ## Images -/

/-- The image as `_xhs_apply_download` leaves one that was pending. -/
def fetched (image : Image) (sha256 : Text) : Image :=
  { image with
    downloadState := .ok, downloadError := none, sha256 := some sha256
    ocrState := .pending, ocrError := none, ocrTextSha256 := none }

/-- A fetched image waits for its transcription. -/
theorem sound_fetched {ocr : Task Digest} (hv : v.Sound identifyDigest)
    (hget : v.images.get? image.ordinal = some image) (hblank : Blank image)
    (hocr : ocr.subject = .ocr image.ordinal sha256) (hdue : ocr.state = .pending)
    (hsubject : task.subject = .download image.ordinal) (hdone : task.state = .done) :
    (((v.putImage (fetched image sha256)).put ocr).put task).Sound identifyDigest := by
  have hne : v.images.get? (fetched image sha256).ordinal ≠ none := by
    rw [fetched, hget]
    exact Option.some_ne_none _
  have hfiles : Files v (((v.putImage (fetched image sha256)).put ocr).put task)
      (fetched image sha256) :=
    ((Files.putImage hne).put (by rw [hocr]; rfl)).put (by rw [hsubject]; rfl)
  have hread : (((v.putImage (fetched image sha256)).put ocr).put task).Waits
      (.ocr image.ordinal sha256) :=
    Waits.congr (waits_put hocr (.inl hdue)) (task_put_of_ne (by rw [hsubject]; exact nofun))
  -- no transcription of the image is known yet
  have hnone : ∀ sha, sha ≠ sha256 →
      (((v.putImage (fetched image sha256)).put ocr).put task).task (.ocr image.ordinal sha) =
        none := by
    intro sha hsha
    rw [task_put_of_ne (by rw [hsubject]; exact nofun),
      task_put_of_ne (by rw [hocr]; exact fun heq => hsha (by injection heq))]
    by_contra htask
    obtain ⟨other, hother, hsha'⟩ := hv.ocrs _ _ htask
    obtain rfl := Option.some.inj (hother.symm.trans hget)
    rw [hblank.sha256] at hsha'
    cases hsha'
  refine hv.filed_unsettled hfiles ⟨.inl ⟨task, task_put hsubject, hdone⟩, fun sha hsha => ?_,
    ⟨fun _ => rfl, fun _ => rfl⟩, nofun, ⟨nofun, nofun⟩⟩ (fun sha htask => ?_)
    (fun other hother hordinal => ?_) nofun (fun k hk hin => ?_) nofun
  · obtain rfl := Option.some.inj hsha
    exact hread
  · by_contra hne
    exact htask (hnone sha fun heq => hne (heq ▸ rfl))
  · rw [eq_of_ordinal hget hother hordinal]
    exact hblank.not_settled
  · cases k with
    | download other =>
        obtain rfl : other = image.ordinal := Option.some.inj hk
        cases hin.unique ⟨task, task_put hsubject, hdone⟩
    | ocr other sha =>
        obtain rfl : other = image.ordinal := Option.some.inj hk
        by_cases hsha : sha = sha256
        · subst hsha
          have hdue' : (((v.putImage (fetched image sha)).put ocr).put task).In
              (.ocr image.ordinal sha) .pending :=
            In.congr ⟨ocr, task_put hocr, hdue⟩ (task_put_of_ne (by rw [hsubject]; exact nofun))
          cases hin.unique hdue'
        · exact absurd (hnone sha hsha) hin.ne_none
    | detail | identify input | save version => cases hk

/-- A download that is recorded. -/
theorem good_recordDownload (hv : (view f).Good identifyDigest)
    (h : f.recordDownload identifyDigest ordinal sha256 now = .ok f') :
    (view f').Good identifyDigest := by
  simp only [Folder.recordDownload, Folder.applyDownload, bind_eq_ok] at h
  obtain ⟨_, hrunning, f₃, ⟨current, hcurrent, ⟨f₂, ocr, fresh⟩, hcreate, hadvance⟩, h⟩ := h
  obtain ⟨task, hsubject, hdone, -, hview⟩ := completeTask_eq_ok h
  obtain ⟨image, hget, hpending⟩ := hv.toSound.pending_of_running (in_of_runningTask hrunning)
  obtain rfl := Option.some.inj ((image_eq_ok.1 hcurrent).symm.trans hget)
  obtain ⟨hmem, rfl⟩ := mem_of_get? hget
  have hblank := (hv.kept current hmem).blank (by rw [hpending]; decide)
  obtain ⟨hocr, hview₂, hcases⟩ := createTask_eq_ok hcreate
  have hother : current.sha256 ≠ some sha256 := by
    rw [hblank.sha256]
    exact nofun
  rw [view_updateImage hcurrent] at hview₂ hcases
  simp only [if_pos hother] at hview₂ hcases
  have hdue : ocr.state = .pending := by
    rcases hcases with ⟨-, hold⟩ | ⟨-, -, hdue, -⟩
    · have hold : (view f).task (.ocr current.ordinal sha256) = some ocr := hold
      obtain ⟨other, hget', hsha⟩ := hv.ocrs _ _ (by rw [hold]; exact Option.some_ne_none _)
      obtain rfl := Option.some.inj (hget'.symm.trans hget)
      rw [hblank.sha256] at hsha
      cases hsha
    · exact hdue
  have hsound := sound_fetched hv.toSound hget hblank hocr hdue hsubject hdone
  have hadvance : Advance identifyDigest ((view f₂).put task) ((view f₃).put task) :=
    (advanceNote_eq_ok hadvance).put (by simp [hsubject]) (by simp [hsubject])
  rw [hview]
  rw [hview₂] at hadvance
  exact hadvance.good hsound (.inl (.inl (hv.staged.detailOk_of_pending hmem hpending)))

/-- The image as `_xhs_apply_ocr` leaves it. -/
def transcribed (image : Image) (text : Text) : Image :=
  { image with ocrState := .ok, ocrError := none, ocrTextSha256 := some text }

/-- A transcription is added, so every earlier input was another one. -/
theorem sound_transcribed (hinjective : ∀ caption, Function.Injective (identifyDigest caption))
    (hv : v.Sound identifyDigest) (hget : v.images.get? image.ordinal = some image)
    (hsha : image.sha256 = some sha256) (hok : image.downloadState = .ok)
    (hpending : image.ocrState = .pending) (hsubject : task.subject = .ocr image.ordinal sha256)
    (hdone : task.state = .done) :
    ((v.putImage (transcribed image text)).put task).Sound identifyDigest := by
  have hmem := (mem_of_get? hget).1
  have hne : v.images.get? (transcribed image text).ordinal ≠ none := by
    rw [transcribed, hget]
    exact Option.some_ne_none _
  have hfiles : Files v ((v.putImage (transcribed image text)).put task) (transcribed image text) :=
    (Files.putImage hne).put (by rw [hsubject]; rfl)
  have hunread : ∀ entry ∈ v.transcriptions, entry.1 ≠ image.ordinal := by
    intro entry hentry hordinal
    obtain ⟨other, hother, htranscription⟩ := mem_transcriptions.1 hentry
    obtain ⟨hsettled, hfirst⟩ := Image.settled_of_transcription htranscription
    rw [eq_of_ordinal hget hother (hfirst.symm.trans hordinal)] at hsettled
    rw [hsettled.2] at hpending
    cases hpending
  refine hv.file_ocr hget hsha hok (by rw [hpending]; decide) rfl hsha hok
    ⟨fun _ => rfl, fun _ => rfl⟩ hsubject (by rw [hdone]; decide) ⟨task, task_put hsubject, hdone⟩
    fun input hin hinput => ?_
  exfalso
  obtain ⟨entries, hentries, hold⟩ := hv.inputs input hin.ne_none
  have heq : entries = ((v.putImage (transcribed image text)).put task).transcriptions :=
    hinjective v.caption (hold.symm.trans hinput)
  have hnew : (image.ordinal, text) ∈
      ((v.putImage (transcribed image text)).put task).transcriptions := by
    refine mem_transcriptions.2 ⟨transcribed image text, (hfiles.images _).2 (.inl rfl), ?_⟩
    rw [Image.transcription, if_pos ⟨hok, rfl⟩]
    rfl
  exact hunread _ (hentries _ (heq ▸ hnew)) rfl

/-- A transcription that is recorded. -/
theorem good_recordOcr (hinjective : ∀ caption, Function.Injective (identifyDigest caption))
    (hv : (view f).Good identifyDigest)
    (h : f.recordOcr identifyDigest ordinal sha256 text now = .ok f') :
    (view f').Good identifyDigest := by
  simp only [Folder.recordOcr, Folder.applyOcr, bind_eq_ok] at h
  obtain ⟨_, hrunning, ⟨f₂, answer⟩, ⟨current, hcurrent, happly⟩, h⟩ := h
  obtain ⟨task, hsubject, hdone, -, hview⟩ := completeTask_eq_ok h
  obtain ⟨image, hget, hsha, hok, hpending⟩ :=
    hv.toSound.unread_of_running (in_of_runningTask hrunning)
  obtain rfl := Option.some.inj ((image_eq_ok.1 hcurrent).symm.trans hget)
  obtain ⟨hmem, rfl⟩ := mem_of_get? hget
  rw [if_neg (by simp [hsha, hpending])] at happly
  simp only [bind_eq_ok, pure_eq_ok, Prod.mk.injEq] at happly
  obtain ⟨f₃, hadvance, rfl, -⟩ := happly
  have hsound : (((view f).putImage (transcribed current text)).put task).Sound identifyDigest :=
    sound_transcribed hinjective hv.toSound hget hsha hok hpending hsubject hdone
  have hadvance : Advance identifyDigest (((view f).putImage (transcribed current text)).put task)
      ((view f₃).put task) := by
    have hadvance := advanceNote_eq_ok hadvance
    rw [view_updateImage hcurrent] at hadvance
    exact hadvance.put (by simp [hsubject]) (by simp [hsubject])
  rw [hview]
  refine hadvance.good hsound (.inl ?_)
  rcases hv.staged.moving_of_unread hmem (by rw [hok]; decide) hpending with hstate | ⟨hstate, hall⟩
  · exact .inl hstate
  · refine .inr ⟨hstate, fun other hother => ?_⟩
    have hne : (view f).images.get? (transcribed current text).ordinal ≠ none := by
      rw [transcribed, hget]
      exact Option.some_ne_none _
    rcases (mem_putImage hne).1 hother with rfl | ⟨hother, -⟩
    · exact hall current hmem
    · exact hall other hother

/-! ## Identifications -/

/-- An identification that ends without an answer, because there was none to give. -/
theorem good_unidentified {input : Digest} (hv : v.Good identifyDigest)
    (hrunning : v.In (.identify input) .running) (hsubject : task.subject = .identify input)
    (hdone : task.state = .done)
    (hpointless : v.state = .ocrDone → input = v.input identifyDigest →
      .identify input ∈ v.idle) : (v.put task).Good identifyDigest := by
  refine hv.put_identify hsubject hrunning.ne_none
    (fun hknown => nomatch hknown.done.unique hrunning) (by rw [hdone]; decide)
    fun hstate hinput => .inl ?_
  obtain ⟨image, hmem, hunsettled⟩ := hv.idle _ (hpointless hstate hinput) hrunning hinput
  have hstaged := hv.staged
  rw [Staged, hstate] at hstaged
  obtain ⟨hfetched, hread, -⟩ := hstaged
  refine ⟨image, hmem, ?_⟩
  cases hdownload : image.downloadState with
  | pending => exact absurd hdownload (hfetched image hmem)
  | failed => exact .inl rfl
  | ok =>
      refine .inr ⟨rfl, ?_⟩
      cases hocr : image.ocrState with
      | pending =>
          rcases hread image hmem with hfailed | hnot
          · rw [hdownload] at hfailed
            cases hfailed
          · exact absurd hocr hnot
      | failed => rfl
      | ok => exact absurd ⟨hdownload, hocr⟩ hunsettled

theorem queueSave_opens (h : f.queueSave now = .ok f') :
    ∃ task : Task Digest, task.subject = .save (f.note.contentVersion + 1) ∧
      (task.state = .pending ∨ task.state = .running) ∧
      (task.state = .running → (view f).In task.subject .running) ∧
      view f' = (view f).put task := by
  obtain ⟨task, hsubject, hopens, hview⟩ := queueSave_eq_ok h
  refine ⟨task, hsubject, hopens.waits, fun hrunning => ?_, hview⟩
  rcases hopens with hpending | ⟨-, hsame⟩
  · rw [hpending] at hrunning
    cases hrunning
  · exact ⟨task, hsame, hrunning⟩

/-- An identification that is applied. -/
theorem good_identified {input : Digest} {save : Task Digest} (hv : v.Good identifyDigest)
    (hstate : v.state = .ocrDone) (hinput : input = v.input identifyDigest)
    (hsave : save.subject = .save (v.contentVersion + 1)) (hopens : v.Opens save)
    (hrunning : v.In (.identify input) .running) (hsubject : task.subject = .identify input)
    (hdone : task.state = .done) (hanswer : task.answer = some .applied) :
    (((v.moved .identified).put save).put task).Good identifyDigest := by
  have hidentify : ((v.moved .identified).put save).task (.identify input) =
      v.task (.identify input) := task_put_of_ne (by simp [hsave])
  have hsound : ((v.moved .identified).put save).Sound identifyDigest :=
    (hv.toSound.moved (by simp)).open hopens (.inr ⟨_, hsave⟩)
  have hstaged := hv.staged
  rw [Staged, hstate] at hstaged
  refine ⟨hsound.put (by rw [hsubject]; rfl) (fun hdetail => ?_) (fun other hother hnone => ?_)
    (fun hrun => ?_), hstaged.1, hstaged.2.1, ?_, .inl ?_⟩
  · rw [hsubject] at hdetail
    cases hdetail
  · rw [← hother, hsubject, hidentify] at hnone
    exact absurd hnone hrunning.ne_none
  · rw [hdone] at hrun
    cases hrun
  · exact ⟨task, task_put (hsubject.trans (congrArg _ hinput)), hdone, by simp [hanswer]⟩
  · exact Waits.congr (waits_put hsave hopens.waits)
      (task_put_of_ne (by simp [hsubject]))

theorem good_recordIdentify {input : Digest} {stale : Bool} (hv : (view f).Good identifyDigest)
    (h : f.recordIdentify identifyDigest input stale now = .ok f') :
    (view f').Good identifyDigest := by
  simp only [Folder.recordIdentify, Folder.applyIdentify, bind_eq_ok, require_eq_ok] at h
  obtain ⟨_, hrunning, -, hstale, ⟨f₂, answer⟩, happly, h⟩ := h
  have hrunning := in_of_runningTask hrunning
  obtain ⟨task, hsubject, hdone, hanswer, hview⟩ := completeTask_eq_ok h
  rw [hview]
  split at happly
  · rename_i hcause
    simp only [pure_eq_ok, Prod.mk.injEq] at happly
    obtain ⟨rfl, -⟩ := happly
    refine good_unidentified hv hrunning hsubject hdone fun hstate hinput => ?_
    rcases hcause with hstale' | hstate' | hinput'
    · exact hstale hstale'
    · exact absurd hstate hstate'
    · exact absurd hinput hinput'
  · rename_i hcause
    simp only [bind_eq_ok, pure_eq_ok, Prod.mk.injEq] at happly
    obtain ⟨f₃, hqueue, rfl, rfl⟩ := happly
    obtain ⟨save, hsave, hopens, hview₃⟩ := queueSave_eq_ok hqueue
    rw [hview₃]
    exact good_identified hv (not_not.1 fun hnot => hcause (.inr (.inl hnot)))
      (not_not.1 fun hnot => hcause (.inr (.inr hnot))) hsave hopens hrunning hsubject hdone hanswer

/-! ## Saves -/

omit [DecidableEq Digest] in
/-- The next version is bound after those that there are. -/
theorem appendContentBinding_eq_ok {tree : Text} {rootEnabled : Bool}
    (hbindings : f.bindings.map Prod.fst = List.range' 1 f.note.contentVersion)
    (hversion : f.note.contentVersion + 1 = version)
    (h : f.appendContentBinding version tree rootEnabled = .ok f') :
    f' = { f with bindings := f.bindings ++ [(version, tree)] } := by
  simp only [Folder.appendContentBinding, bind_eq_ok] at h
  obtain ⟨-, -, h⟩ := h
  split at h
  · rename_i binding hfind
    have hmem : binding.1 ∈ List.range' 1 f.note.contentVersion :=
      hbindings ▸ List.mem_map_of_mem (List.mem_of_find?_eq_some hfind)
    have hbound : binding.1 = version := by simpa using List.find?_some hfind
    have hle := (List.mem_range'_1.1 hmem).2
    omega
  · simp only [bind_eq_ok, pure_eq_ok] at h
    obtain ⟨-, -, -, -, rfl⟩ := h
    rfl

/-- The note is saved in the version. -/
def savedAs (v : View Digest) (version : ℕ) (tree : Text) : View Digest :=
  { v with state := .saved, contentVersion := version, bindings := v.bindings ++ [(version, tree)] }

omit [DecidableEq Digest] in
theorem good_savedAs {tree : Text} (hv : v.Good identifyDigest)
    (hstate : v.state = .identified ∨ v.state = .saved)
    (hversion : v.contentVersion + 1 = version) :
    (savedAs v version tree).Good identifyDigest := by
  have hstaged := hv.staged
  have hread : v.AllFetched ∧ v.AllRead ∧ v.Known (.identify (v.input identifyDigest)) := by
    rw [Staged] at hstaged
    rcases hstate with hstate | hstate
    · rw [hstate] at hstaged
      exact ⟨hstaged.1, hstaged.2.1, hstaged.2.2.1⟩
    · rw [hstate] at hstaged
      exact hstaged
  refine ⟨⟨fun image himage => (hv.kept image himage).congr (fun _ _ => rfl) fun h => h,
    hv.downloads, hv.ocrs, hv.inputs, fun k hk hrunning => ?_, ?_⟩, hread⟩
  · have hpointless := hv.idle k hk hrunning
    cases k with
    | detail => exact ⟨fun hstate => (by cases hstate), hpointless.2⟩
    | download ordinal | ocr ordinal sha256 | identify input | save version => exact hpointless
  · change (v.bindings ++ [(version, tree)]).map Prod.fst = List.range' 1 version
    rw [List.map_append, hv.bindings, ← hversion, List.range'_concat, List.map_singleton]
    simp [Nat.add_comm]

theorem good_recordSave {tree : Text} {rootEnabled changed : Bool}
    (hv : (view f).Good identifyDigest)
    (h : f.recordSave version tree rootEnabled changed now = .ok f') :
    (view f').Good identifyDigest := by
  simp only [Folder.recordSave, Folder.applySave, bind_eq_ok] at h
  obtain ⟨_, hrunning, ⟨f₂, answer⟩, happly, h⟩ := h
  have hrunning := in_of_runningTask hrunning
  have hlate := hv.staged.late hrunning.ne_none (by simp)
  obtain ⟨task, hsubject, hdone, -, hview⟩ := completeTask_eq_ok h
  rw [hview]
  split at happly
  · rename_i hstale
    simp only [pure_eq_ok, Prod.mk.injEq] at happly
    obtain ⟨rfl, -⟩ := happly
    refine hv.put_save hsubject hlate (fun hrun => by rw [hdone] at hrun; cases hrun)
      fun hstate hversion => ?_
    rcases hstale with hnot | hother
    · exact absurd hstate hnot.1
    · exact absurd hversion.symm hother
  · rename_i hcause
    have hstate : (view f).state = .identified ∨ (view f).state = .saved := by
      by_contra hnot
      exact hcause (.inl (not_or.1 hnot))
    have hversion : f.note.contentVersion + 1 = version :=
      not_not.1 fun hnot => hcause (.inr hnot)
    simp only [bind_eq_ok] at happly
    obtain ⟨f₁, hbind, happly⟩ := happly
    obtain rfl := appendContentBinding_eq_ok hv.bindings hversion hbind
    have hgood : (savedAs (view f) version tree).Good identifyDigest :=
      good_savedAs hv hstate hversion
    have hlate' : ¬Early (savedAs (view f) version tree).state := by
      rintro (h | h | h) <;> cases h
    split at happly
    · simp only [bind_eq_ok, pure_eq_ok, Prod.mk.injEq] at happly
      obtain ⟨f₃, hqueue, rfl, -⟩ := happly
      obtain ⟨next, hnext, hopens, hrun, hview₃⟩ := queueSave_opens hqueue
      rw [hview₃]
      have hgood' := hgood.put_save hnext hlate' (fun hrunning => hnext ▸ hrun hrunning)
        fun hidentified => by cases hidentified
      exact hgood'.put_save hsubject hlate' (fun hrun => by rw [hdone] at hrun; cases hrun)
        fun hidentified => by cases hidentified
    · simp only [pure_eq_ok, Prod.mk.injEq] at happly
      obtain ⟨rfl, -⟩ := happly
      exact hgood.put_save hsubject hlate' (fun hrun => by rw [hdone] at hrun; cases hrun)
        fun hidentified => by cases hidentified

/-! ## Nothing to do -/

omit [DecidableEq Digest] in
theorem good_found (hv : v.Good identifyDigest) (hpointless : v.Pointless identifyDigest k) :
    ({ v with idle := k :: v.idle } : View Digest).Good identifyDigest := by
  refine ⟨{ hv.toSound with idle := fun other hother hrunning => ?_, kept := fun image himage =>
    (hv.kept image himage).congr (fun _ _ => rfl) fun h => h },
    hv.staged.congr rfl rfl rfl rfl (fun _ => ⟨fun _ h => h, .inl rfl⟩) (.inl rfl)
      fun _ => .inl rfl⟩
  have hold : v.Pointless identifyDigest other := by
    rcases List.mem_cons.1 hother with rfl | hother
    · exact hpointless
    · exact hv.idle other hother hrunning
  cases other with
  | detail | download ordinal | ocr ordinal sha256 | identify input | save version => exact hold

omit [DecidableEq Digest] in
/-- The note has some image that is not transcribed, wherever it is not being identified. -/
theorem unsettled_of_running {input : Digest} (hv : v.Good identifyDigest)
    (hrunning : v.In (.identify input) .running) (hinput : input = v.input identifyDigest)
    (hstate : v.state ≠ .ocrDone) : ∃ image ∈ v.images, ¬image.Settled := by
  subst hinput
  have hlate := hv.staged.late hrunning.ne_none nofun
  have hstaged := hv.staged
  rw [Staged] at hstaged
  cases hnote : v.state with
  | discovered => exact absurd (.inl hnote) hlate
  | failed => exact absurd (.inr (.inl hnote)) hlate
  | unsupported => exact absurd (.inr (.inr hnote)) hlate
  | ocrDone => exact absurd hnote hstate
  | detailOk =>
      rw [hnote] at hstaged
      have hstaged : ¬∀ image ∈ v.images, image.downloadState ≠ .pending := hstaged
      push Not at hstaged
      obtain ⟨image, hmem, hpending⟩ := hstaged
      refine ⟨image, hmem, fun hsettled => ?_⟩
      rw [hsettled.1] at hpending
      cases hpending
  | assetsDone =>
      rw [hnote] at hstaged
      have hread : ¬∀ image ∈ v.images, image.downloadState = .failed ∨ image.ocrState ≠ .pending :=
        hstaged.2
      push Not at hread
      obtain ⟨image, hmem, -, hpending⟩ := hread
      refine ⟨image, hmem, fun hsettled => ?_⟩
      rw [hsettled.2] at hpending
      cases hpending
  | identified =>
      rw [hnote] at hstaged
      cases hstaged.2.2.1.done.unique hrunning
  | saved =>
      rw [hnote] at hstaged
      cases hstaged.2.2.done.unique hrunning

/-- A worker that finds nothing to do is right about it. -/
theorem good_findNothing (hv : (view f).Good identifyDigest)
    (h : f.findNothing identifyDigest k = .ok f') : (view f').Good identifyDigest := by
  simp only [Folder.findNothing, bind_eq_ok, require_eq_ok, pure_eq_ok] at h
  obtain ⟨_, hrunning, nothing, hnothing, -, rfl, rfl⟩ := h
  have hrunning := in_of_runningTask hrunning
  change ({ view f with idle := k :: (view f).idle } : View Digest).Good identifyDigest
  refine good_found hv ?_
  cases k with
  | detail =>
      simp only [Folder.nothingToDo] at hnothing
      split at hnothing
      · cases hnothing
      · rename_i hstate
        simp only [bind_eq_ok, pure_eq_ok, decide_eq_true_eq] at hnothing
        obtain ⟨l, hl, rfl⟩ := hnothing
        refine ⟨hstate, fun image hmem hpending => ?_⟩
        rcases (hv.kept image hmem).fetch with hmatches | ⟨-, hexpired, -⟩
        · rw [hpending] at hmatches
          exact hmatches
        · exact absurd ((mem_awaitingRefresh hl).2
            ⟨hexpired, image, Table.get?_key hmem, hpending⟩) List.not_mem_nil
  | download ordinal =>
      simp only [Folder.nothingToDo, bind_eq_ok, pure_eq_ok, decide_eq_true_eq] at hnothing
      obtain ⟨current, hcurrent, hnot⟩ := hnothing
      obtain ⟨image, hget, hpending⟩ := hv.toSound.pending_of_running hrunning
      obtain rfl := Option.some.inj ((image_eq_ok.1 hcurrent).symm.trans hget)
      exact absurd hpending hnot
  | ocr ordinal sha256 =>
      simp only [Folder.nothingToDo, bind_eq_ok, pure_eq_ok, decide_eq_true_eq] at hnothing
      obtain ⟨current, hcurrent, hnot⟩ := hnothing
      obtain ⟨image, hget, hsha, hok, hpending⟩ := hv.toSound.unread_of_running hrunning
      obtain rfl := Option.some.inj ((image_eq_ok.1 hcurrent).symm.trans hget)
      rcases hnot with hnot | hnot | hnot
      · exact absurd hok hnot
      · exact absurd hsha hnot
      · exact absurd hpending hnot
  | identify input =>
      simp only [Folder.nothingToDo, pure_eq_ok, decide_eq_true_eq] at hnothing
      intro hinput
      refine unsettled_of_running hv hrunning hinput fun hstate => ?_
      rcases hnothing with hnot | hnot
      · exact hnot hstate
      · exact hnot hinput
  | save version => trivial

/-- What is skipped is complete without an answer. -/
theorem good_skipTask (hv : (view f).Good identifyDigest) (h : f.skipTask k = .ok f') :
    (view f').Good identifyDigest := by
  simp only [Folder.skipTask, bind_eq_ok, require_eq_ok] at h
  obtain ⟨-, hidle, h⟩ := h
  have hrunning : (view f).In k .running := by
    simp only [Folder.completeTask, bind_eq_ok] at h
    obtain ⟨_, hrunning, -⟩ := h
    exact in_of_runningTask hrunning
  obtain ⟨task, hsubject, hdone, hanswer, hview⟩ := completeTask_eq_ok h
  rw [hview]
  have hpointless := hv.idle k hidle hrunning
  cases k with
  | detail =>
      obtain ⟨hstate, hnone⟩ := hpointless
      refine ⟨hv.toSound.put (by rw [hsubject]; rfl) (fun _ => .inr hnone) (fun input hinput => ?_)
        (fun hrun => ?_), hv.staged.put_detail hsubject (hv.staged.not_early hrunning hstate)⟩
      · rw [hsubject] at hinput
        cases hinput
      · rw [hdone] at hrun
        cases hrun
  | download ordinal | ocr ordinal sha256 => exact hpointless.elim
  | identify input => exact good_unidentified hv hrunning hsubject hdone fun _ _ => hidle
  | save version =>
      exact hv.put_save hsubject (hv.staged.late hrunning.ne_none (by simp))
        (fun hrun => by rw [hdone] at hrun; cases hrun) fun _ _ => .inr (.inr ⟨hdone, hanswer⟩)

end Cortex.Notes
