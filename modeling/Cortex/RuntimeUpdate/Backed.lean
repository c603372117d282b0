import Cortex.RuntimeUpdate.Held
import Cortex.RuntimeUpdate.Quiet

/-!
# Every pointer and pin stays backed

`Kept` is kept by every command that runs to its end, as long as no import brings
another manifest for a release id that a pointer or a pin names.
-/

namespace Cortex.RuntimeUpdate

open Control Procedure

variable {P : Platform} {imported : Manifest → Prop} {readings : Readings} {d d' s : Directory}
  {releaseId : ReleaseId} {slotDigest : Digest} {generation : GenerationId}

/-! ## Import -/

theorem Kept.setManager (h : Kept P imported d) (manager : Manager) :
    Kept P imported { d with manager } where
  journal := h.journal
  held := by
    intro releaseId slotDigest generation hnamed
    have hheld := h.held (hnamed.of_same rfl rfl rfl)
    exact ⟨hheld.release, hheld.generation⟩
  records := h.records
  slots := h.slots
  generations := h.generations

theorem Kept.addSlot (h : Kept P imported d) {slot : Slot} (himported : imported slot.manifest)
    (hfresh : d.slots.get? slot.digest = none) :
    Kept P imported { d with slots := d.slots.set slot } where
  journal := h.journal
  held := by
    intro releaseId slotDigest generation hnamed
    have hheld := h.held (hnamed.of_same rfl rfl rfl)
    refine hheld.frame ?_ (fun hrecord => ⟨_, hrecord, rfl, rfl, rfl⟩) hheld.generation
      fun _ hpin hroot => ⟨hpin, hroot⟩
    intro slot' hslot'
    have hne : slotDigest ≠ slot.digest := by
      rintro rfl
      rw [hfresh] at hslot'
      cases hslot'
    exact (Dict.get?_set d.slots slot slotDigest).trans ((if_neg hne).trans hslot')
  records := h.records
  slots := by
    intro slotDigest slot' hslot'
    rw [Dict.get?_set] at hslot'
    split at hslot'
    · cases hslot'
      exact himported
    · exact h.slots hslot'
  generations := h.generations

/-- The record of an import, when every name of the release id has this manifest's slot. -/
theorem Kept.setRecord (h : Kept P imported d) {m : Manifest} {slot : Slot} {record : Record}
    (himported : imported m) (hslot : d.slots.get? m.artifactSha256 = some slot)
    (hid : record.releaseId = m.releaseId) (hdigest : record.slotDigest = m.artifactSha256)
    (hmanifest : record.manifestDigest = P.manifestDigest m)
    (htree : record.contentTreeDigest = slot.contentTree)
    (hgeneration : record.candidateGeneration = none)
    (hspare : ∀ {slotDigest generation slot}, Named d m.releaseId slotDigest generation →
      d.slots.get? slotDigest = some slot → slot.manifest = m) :
    Kept P imported { d with registry := d.registry.set record } where
  journal := h.journal
  held := by
    intro releaseId slotDigest generation hnamed
    have hnamed' : Named d releaseId slotDigest generation := hnamed.of_same rfl rfl rfl
    have hheld := h.held hnamed'
    by_cases hsame : releaseId = m.releaseId
    · -- The same manifest again: the new record says what the slot says.
      subst hsame
      obtain ⟨⟨slot', old, hget, -, -, -, hname, hpin, hroot⟩, hgen⟩ := hheld
      have hm : slot'.manifest = m := hspare hnamed' hget
      have hkey : slotDigest = m.artifactSha256 := by
        rw [← hm]
        exact (Dict.key_of_get? hget).symm
      rw [hkey, hslot] at hget
      cases hget
      refine ⟨⟨slot, record, hkey ▸ hslot, ?_, hdigest.trans hkey.symm, ?_, hname, hpin, hroot⟩,
        hgen⟩
      · exact (Dict.get?_set d.registry record m.releaseId).trans (if_pos hid.symm)
      · rw [Slot.metadata, hm, hkey, hmanifest, htree]
    · refine hheld.frame (fun hslot => hslot) ?_ hheld.generation
        fun _ hpin hroot => ⟨hpin, hroot⟩
      intro old hold
      refine ⟨old, ?_, rfl, rfl, rfl⟩
      exact (Dict.get?_set d.registry record releaseId).trans
        ((if_neg fun heq => hsame (heq.trans hid)).trans hold)
  records := by
    intro releaseId record' hrecord'
    rw [Dict.get?_set] at hrecord'
    split at hrecord'
    · rename_i heq
      cases hrecord'
      exact ⟨m, himported, (heq.trans hid).symm, hdigest.symm, hmanifest.symm⟩
    · exact h.records hrecord'
  slots := h.slots
  generations := by
    intro releaseId record' generation hrecord' hsome
    rw [Dict.get?_set] at hrecord'
    split at hrecord'
    · cases hrecord'
      rw [hgeneration] at hsome
      cases hsome
    · exact h.generations hrecord' hsome

/-- No name of this release id has a slot with another manifest. -/
def SparesNamed (d : Directory) (m : Manifest) : Prop :=
  ∀ slotDigest generation slot, Named d m.releaseId slotDigest generation →
    d.slots.get? slotDigest = some slot → slot.manifest = m

private theorem lift_at {α : Type} {x : Except RuntimeUpdateError α} {E : Directory → Prop}
    (hraise : E d) :
    Guarded (fun s => s = d) (lift x) (fun _ => True) (fun a s => s = d ∧ x = .ok a) E := by
  refine .lift (fun _ _ => trivial) (fun a hx s hs => ⟨hs, hx⟩) ?_
  rintro s rfl
  exact hraise

private theorem read_at {E : Directory → Prop} :
    Guarded (fun s => s = d) (read : M Directory) (fun _ => True)
      (fun d' s => s = d ∧ d' = d) E := by
  refine .read ?_
  rintro s rfl
  exact ⟨trivial, rfl, rfl⟩

private theorem write_at {f : Directory → Directory} {E : Directory → Prop} :
    Guarded (fun s => s = d) (write f : M Unit) (fun _ => True) (fun _ s => s = f d) E := by
  refine .write ?_
  rintro s rfl
  exact ⟨trivial, trivial, rfl⟩

theorem checkImport_eq_ok {request : ReleaseImport}
    (h : checkImport P readings request = .ok ()) :
    request.artifactSha256 = request.manifest.artifactSha256 := by
  simp only [checkImport, Transaction.bind_eq_ok, Transaction.require_eq_ok] at h
  obtain ⟨-, -, -, -, -, -, -, -, -, -, -, -, -, -, -, -, hartifact⟩ := h
  exact hartifact

/-- The slot that an import provides is in the directory it leaves. -/
private theorem provideSlot_at (h : Kept P imported d) {m : Manifest} (himported : imported m) :
    Guarded (fun s => s = d) (provideSlot P readings d m) (fun _ => True)
      (fun treeDigest s => Kept P imported s ∧ s.registry = d.registry ∧
        (∃ slot, s.slots.get? m.artifactSha256 = some slot ∧ slot.contentTree = treeDigest) ∧
        (SparesNamed d m → SparesNamed s m)) (Kept P imported) := by
  unfold provideSlot
  split
  · rename_i slot hslot
    refine .pure ?_
    rintro s rfl
    exact ⟨trivial, h, rfl, ⟨slot, hslot, rfl⟩, id⟩
  · rename_i hnone
    refine .bind (lift_at h) fun _ => .assuming fun _ => ?_
    split
    · refine .raise ?_
      rintro s rfl
      exact ⟨trivial, h⟩
    · refine .bind write_at fun _ => .pure ?_
      rintro s rfl
      refine ⟨trivial, h.addSlot himported hnone, rfl, ⟨_, ?_, rfl⟩, ?_⟩
      · exact (Dict.get?_set _ _ _).trans (if_pos rfl)
      · intro hspare slotDigest generation slot hnamed hslot
        rw [Dict.get?_set] at hslot
        split at hslot
        · cases hslot
          rfl
        · exact hspare slotDigest generation slot (hnamed.of_same rfl rfl rfl) hslot

theorem Kept.importRelease (h : Kept P imported d) {request : ReleaseImport}
    (himported : imported request.manifest) (hspare : SparesNamed d request.manifest) :
    Kept P imported (importRelease P readings request d).final := by
  have hends : Guarded (fun s => s = d) (RuntimeUpdate.importRelease P readings request)
      (fun _ => True) (fun _ => Kept P imported) (Kept P imported) := by
    unfold RuntimeUpdate.importRelease
    refine .bind (lift_at h) fun _ => .assuming fun _ => ?_
    refine .bind read_at fun d' => .assuming ?_
    rintro rfl
    refine .bind (lift_at h) fun _ => .assuming fun _ => ?_
    refine .bind (lift_at h) fun _ => .assuming fun _ => ?_
    refine .bind (provideSlot_at h himported) fun treeDigest => ?_
    refine .bind (Q := fun _ => Kept P imported) (.write ?_) fun _ => ?_
    · rintro s ⟨hs, hregistry, ⟨slot, hslot, htree⟩, hspares⟩
      refine ⟨trivial, trivial, ?_⟩
      rw [← hregistry]
      exact hs.setRecord himported hslot rfl rfl rfl htree.symm rfl (hspares hspare _ _ _)
    · refine .bind (Q := fun _ => Kept P imported) (.write ?_) fun _ => ?_
      · intro s hs
        exact ⟨trivial, trivial, hs.setManager _⟩
      · exact .pure fun s hs => ⟨trivial, hs⟩
  exact hends.ends rfl

/-! ## Staging -/

/-- More generations, and interpreters that are as they were where they are complete. -/
theorem Kept.extend (h : Kept P imported d) {generations : List (ReleaseId × GenerationId)}
    {interpreters interpreterPins : List Digest} (hgenerations : d.generations ⊆ generations)
    (harchive : ∀ archive, archive ∈ d.interpreterPins → archive ∈ d.interpreters →
      archive ∈ interpreterPins ∧ archive ∈ interpreters) :
    Kept P imported { d with generations, interpreters, interpreterPins } where
  journal := h.journal
  held := by
    intro releaseId slotDigest generation hnamed
    have hheld := h.held (hnamed.of_same rfl rfl rfl)
    exact hheld.frame (fun hslot => hslot) (fun hrecord => ⟨_, hrecord, rfl, rfl, rfl⟩)
      (hgenerations hheld.generation) fun _ hpin hroot => harchive _ hpin hroot
  records := h.records
  slots := h.slots
  generations hrecord hgeneration := hgenerations (h.generations hrecord hgeneration)

/-- The new generation of a staged record is there. -/
theorem Kept.setStaged (h : Kept P imported d) {record : Record}
    (hrecord : d.registry.get? releaseId = some record)
    (hgeneration : (releaseId, generation) ∈ d.generations) :
    Kept P imported
      { d with
        registry := d.registry.set
          { record with candidateGeneration := some generation, status := .staged } } where
  journal := h.journal
  held := by
    intro releaseId' slotDigest generation' hnamed
    have hheld := h.held (hnamed.of_same rfl rfl rfl)
    have hkey : record.releaseId = releaseId := Dict.key_of_get? hrecord
    refine hheld.frame (fun hslot => hslot) ?_ hheld.generation fun _ hpin hroot => ⟨hpin, hroot⟩
    intro old hold
    by_cases heq : releaseId' = record.releaseId
    · rw [heq, hkey, hrecord] at hold
      cases hold
      exact ⟨_, (Dict.get?_set _ _ _).trans (if_pos heq), rfl, rfl, rfl⟩
    · exact ⟨old, (Dict.get?_set _ _ _).trans ((if_neg heq).trans hold), rfl, rfl, rfl⟩
  records := by
    intro releaseId' record' hrecord'
    rw [Dict.get?_set] at hrecord'
    split at hrecord'
    · rename_i heq
      cases hrecord'
      obtain ⟨m, hm, hid, hartifact, hdigest⟩ := h.records hrecord
      exact ⟨m, hm, hid.trans ((Dict.key_of_get? hrecord).symm.trans heq.symm), hartifact, hdigest⟩
    · exact h.records hrecord'
  slots := h.slots
  generations := by
    intro releaseId' record' generation' hrecord' hsome
    rw [Dict.get?_set] at hrecord'
    split at hrecord'
    · rename_i heq
      cases hrecord'
      cases hsome
      rw [heq, show record.releaseId = releaseId from Dict.key_of_get? hrecord]
      exact hgeneration
    · exact h.generations hrecord' hsome

/-- What staging an interpreter may change: what is complete stays. -/
private def Provisioned (d s : Directory) : Prop :=
  ∃ interpreters interpreterPins, s = { d with interpreters, interpreterPins } ∧
    ∀ archive, archive ∈ d.interpreterPins → archive ∈ d.interpreters →
      archive ∈ interpreterPins ∧ archive ∈ interpreters

private theorem provisioned_lift {α : Type} {x : Except RuntimeUpdateError α} :
    Guarded (Provisioned d) (lift x) (fun _ => True) (fun _ => Provisioned d) (Provisioned d) :=
  .lift (fun _ _ => trivial) (fun _ _ _ hs => hs) fun _ hs => hs

private theorem provisioned_write {f : Directory → Directory}
    (hf : ∀ s, Provisioned d s → Provisioned d (f s)) :
    Guarded (Provisioned d) (write f : M Unit) (fun _ => True) (fun _ => Provisioned d)
      (Provisioned d) :=
  .write fun s hs => ⟨trivial, trivial, hf s hs⟩

private theorem provisionInterpreter_provisioned (d : Directory) (m : Manifest) :
    Guarded (fun s => s = d) (provisionInterpreter readings m) (fun _ => True)
      (fun _ => Provisioned d) (Provisioned d) := by
  have hstart : Provisioned d d := ⟨_, _, rfl, fun _ hpin hroot => ⟨hpin, hroot⟩⟩
  unfold provisionInterpreter
  refine .bind read_at fun d' => .assuming ?_
  rintro rfl
  refine Guarded.conseq (P := Provisioned d') ?_ ?_ (fun _ _ hs => hs) fun _ hs => hs
  · split
    · exact .bind provisioned_lift fun _ => provisioned_lift
    · rename_i hincomplete
      have hrest : Guarded (Provisioned d') (do
          lift (Transaction.require readings.archivePresent
            (.activation "release runtime archive is missing"))
          lift (Transaction.require readings.interpreterExpanded
            (.activation "release interpreter could not be staged"))
          write fun d => { d with interpreters := m.runtimeArchive :: d.interpreters }
          lift (Transaction.require readings.interpreterMeasured
            (.activation "staged interpreter was not measured"))
          lift (interpreterContained readings)
          write fun d =>
            { d with interpreterPins := m.runtimeArchive :: d.interpreterPins } : M Unit)
          (fun _ => True) (fun _ => Provisioned d') (Provisioned d') := by
        refine .bind provisioned_lift fun _ => .bind provisioned_lift fun _ => ?_
        refine .bind (provisioned_write ?_) fun _ => ?_
        · rintro s ⟨interpreters, interpreterPins, rfl, hkept⟩
          refine ⟨_, _, rfl, fun archive hpin hroot => ?_⟩
          exact ⟨(hkept archive hpin hroot).1, .tail _ (hkept archive hpin hroot).2⟩
        · refine .bind provisioned_lift fun _ => .bind provisioned_lift fun _ => ?_
          refine provisioned_write ?_
          rintro s ⟨interpreters, interpreterPins, rfl, hkept⟩
          refine ⟨_, _, rfl, fun archive hpin hroot => ?_⟩
          exact ⟨.tail _ (hkept archive hpin hroot).1, (hkept archive hpin hroot).2⟩
      -- The archive whose half is removed was not complete.
      have hne : ∀ archive, archive ∈ d'.interpreterPins → archive ∈ d'.interpreters →
          archive ≠ m.runtimeArchive := by
        rintro _ hpin hroot rfl
        exact hincomplete ⟨hpin, hroot⟩
      split
      · refine .bind (provisioned_write ?_) fun _ => .bind (provisioned_write ?_) fun _ => hrest
        · rintro s ⟨interpreters, interpreterPins, rfl, hkept⟩
          refine ⟨_, _, rfl, fun archive hpin hroot => ⟨(hkept archive hpin hroot).1, ?_⟩⟩
          exact List.mem_filter.2
            ⟨(hkept archive hpin hroot).2, decide_eq_true (hne archive hpin hroot)⟩
        · rintro s ⟨interpreters, interpreterPins, rfl, hkept⟩
          refine ⟨_, _, rfl, fun archive hpin hroot => ⟨?_, (hkept archive hpin hroot).2⟩⟩
          exact List.mem_filter.2
            ⟨(hkept archive hpin hroot).1, decide_eq_true (hne archive hpin hroot)⟩
      · exact hrest
  · rintro s rfl
    exact hstart

theorem Kept.stage (h : Kept P imported d)
    (hfresh : (releaseId, readings.newGeneration) ∉ d.generations) :
    Kept P imported (stage P readings releaseId d).final := by
  have hends : Guarded (fun s => s = d) (RuntimeUpdate.stage P readings releaseId)
      (fun _ => True) (fun _ => Kept P imported) (Kept P imported) := by
    unfold RuntimeUpdate.stage
    refine .bind (lift_at h) fun _ => .assuming fun _ => ?_
    refine .bind read_at fun d' => .assuming ?_
    rintro rfl
    refine .bind (lift_at h) fun record => .assuming fun hrecord => ?_
    rw [Transaction.orRaise_eq_ok] at hrecord
    refine .bind (lift_at h) fun _ => .assuming fun _ => ?_
    refine .bind (lift_at h) fun _ => .assuming fun _ => ?_
    refine .bind write_at fun _ => ?_
    have hadded : Kept P imported
        { d' with generations := (releaseId, readings.newGeneration) :: d'.generations } :=
      h.extend (List.subset_cons_self _ _) fun _ hpin hroot => ⟨hpin, hroot⟩
    refine .bind (lift_at hadded) fun candidate => .assuming fun _ => ?_
    refine .bind read_at fun d'' => .assuming ?_
    rintro rfl
    refine .bind (lift_at hadded) fun m => .assuming fun _ => ?_
    refine .bind (Q := fun _ => Provisioned
      { d' with generations := (releaseId, readings.newGeneration) :: d'.generations })
      (.rescue (.bind (provisionInterpreter_provisioned _ m) fun _ => ?_) fun error => ?_)
      fun _ => ?_
    · exact .bind (Q := fun _ => Provisioned _) (.read fun _ hs => ⟨trivial, hs⟩)
        fun _ => provisioned_lift
    · refine .bind (Q := fun _ => Kept P imported) (.write ?_) fun _ =>
        .raise fun s hs => ⟨trivial, hs⟩
      rintro s ⟨interpreters, interpreterPins, rfl, hkept⟩
      refine ⟨trivial, trivial, h.extend ?_ hkept⟩
      intro g hg
      refine List.mem_filter.2 ⟨.tail _ hg, decide_eq_true ?_⟩
      rintro rfl
      exact hfresh hg
    · refine .bind (Q := fun _ => Kept P imported) (.write ?_) fun _ =>
        .pure fun s hs => ⟨trivial, hs⟩
      rintro s ⟨interpreters, interpreterPins, rfl, hkept⟩
      have hstaged := h.extend (List.subset_cons_self (releaseId, readings.newGeneration) _) hkept
      exact ⟨trivial, trivial, hstaged.setStaged hrecord (.head _)⟩
  exact hends.ends rfl

/-! ## Pins -/

theorem Kept.pinAttempt (h : Kept P imported d) (attemptId : Text)
    (expectedPin : Option AttemptPin) :
    Kept P imported (pinAttempt P readings attemptId expectedPin d).final := by
  have hends : Guarded (fun s => s = d)
      (RuntimeUpdate.pinAttempt P readings attemptId expectedPin)
      (fun _ => True) (fun _ => Kept P imported) (Kept P imported) := by
    unfold RuntimeUpdate.pinAttempt
    refine .bind (lift_at h) fun _ => .assuming fun _ => ?_
    refine .bind read_at fun d' => .assuming ?_
    rintro rfl
    refine .bind (lift_at h) fun active => .assuming fun hactive => ?_
    rw [Transaction.orRaise_eq_ok] at hactive
    refine .bind (lift_at h) fun pin => .assuming fun hpin => ?_
    refine .bind (lift_at h) fun _ => .assuming fun _ => ?_
    refine .bind (lift_at h) fun _ => .assuming fun _ => ?_
    refine .bind (lift_at h) fun _ => .assuming fun _ => ?_
    refine .bind write_at fun _ => .pure ?_
    rintro s rfl
    have hidentity : pin.releaseId = active.releaseId ∧ pin.slotDigest = active.slotDigest ∧
        pin.generationId = active.generationId := by
      simp only [attemptPinFromIdentity, Transaction.bind_eq_ok, Transaction.pure_eq_ok] at hpin
      obtain ⟨-, -, slot, -, -, -, -, -, rfl⟩ := hpin
      exact ⟨rfl, rfl, rfl⟩
    refine ⟨trivial, h.journal, ?_, h.records, h.slots, h.generations⟩
    intro releaseId slotDigest generation hnamed
    have hheld : Held P d' releaseId slotDigest generation := by
      cases hnamed with
      | active h' => exact h.held (.active h')
      | lastKnownGood h' => exact h.held (.lastKnownGood h')
      | attempt h' =>
          rw [Dict.get?_set] at h'
          split at h'
          · cases h'
            rw [hidentity.1, hidentity.2.1, hidentity.2.2]
            exact h.held (.active hactive)
          · exact h.held (.attempt h')
    exact ⟨hheld.release, hheld.generation⟩
  exact hends.ends rfl

theorem Kept.finishAttempt (h : Kept P imported d) (attemptId : Text) (pin : AttemptPin) :
    Kept P imported (finishAttempt P readings attemptId pin d).final := by
  have hends : Guarded (fun s => s = d) (RuntimeUpdate.finishAttempt P readings attemptId pin)
      (fun _ => True) (fun _ => Kept P imported) (Kept P imported) := by
    unfold RuntimeUpdate.finishAttempt
    refine .bind read_at fun d' => .assuming ?_
    rintro rfl
    refine .bind (lift_at h) fun current => .assuming fun _ => ?_
    split
    · refine .pure ?_
      rintro s rfl
      exact ⟨trivial, h⟩
    · refine .bind (lift_at h) fun _ => .assuming fun _ => .write ?_
      rintro s rfl
      refine ⟨trivial, trivial, h.journal, ?_, h.records, h.slots, h.generations⟩
      intro releaseId slotDigest generation hnamed
      have hheld : Held P s releaseId slotDigest generation := by
        cases hnamed with
        | active h' => exact h.held (.active h')
        | lastKnownGood h' => exact h.held (.lastKnownGood h')
        | attempt h' =>
            rw [Dict.get?_erase] at h'
            split at h'
            · cases h'
            · exact h.held (.attempt h')
      exact ⟨hheld.release, hheld.generation⟩
  exact hends.ends rfl

/-! ## Retention -/

/-- The directory in the loop of `prune`: what the kept releases need is there. -/
private structure Pruning (d : Directory) (retain : ℕ) (s : Directory) : Prop where
  registry : s.registry = d.registry
  pointers : s.active = d.active ∧ s.lastKnownGood = d.lastKnownGood ∧ s.attempts = d.attempts ∧
    s.journal = d.journal
  interpreters : s.interpreters = d.interpreters ∧ s.interpreterPins = d.interpreterPins
  generations : ∀ g ∈ d.generations, g.1 ∉ removedReleases d retain → g ∈ s.generations
  kept : ∀ {slotDigest slot}, slotDigest ∈ keptDigests d retain →
    d.slots.get? slotDigest = some slot → s.slots.get? slotDigest = some slot
  slots : ∀ {slotDigest slot}, s.slots.get? slotDigest = some slot →
    d.slots.get? slotDigest = some slot

private theorem removeRelease_pruning {retain : ℕ}
    (hremoved : releaseId ∈ removedReleases d retain) :
    Guarded (Pruning d retain) (removeRelease d (keptDigests d retain) releaseId)
      (fun _ => True) (fun _ => Pruning d retain) (Kept P imported) := by
  unfold removeRelease
  refine .bind (Q := fun _ => Pruning d retain) (.write ?_) fun _ => ?_
  · intro s hs
    refine ⟨trivial, trivial, { hs with generations := ?_ }⟩
    intro g hg hkept
    refine List.mem_filter.2 ⟨hs.generations g hg hkept, decide_eq_true ?_⟩
    rintro rfl
    exact hkept hremoved
  · split
    · exact .pure fun s hs => ⟨trivial, hs⟩
    · rename_i record hrecord
      split
      · exact .pure fun s hs => ⟨trivial, hs⟩
      · rename_i hnot
        refine .write fun s hs => ⟨trivial, trivial, { hs with kept := ?_, slots := ?_ }⟩
        · intro slotDigest slot hkept hslot
          have hne : slotDigest ≠ record.slotDigest := by
            rintro rfl
            exact hnot hkept
          exact (Dict.get?_erase _ _ _).trans ((if_neg hne).trans (hs.kept hkept hslot))
        · intro slotDigest slot hslot
          rw [Dict.get?_erase] at hslot
          split at hslot
          · cases hslot
          · exact hs.slots hslot

/-- What a pointer or a pin names is not removed. -/
private theorem not_removed (retain : ℕ) (h : Named d releaseId slotDigest generation) :
    releaseId ∈ protectedReleases d retain ∧ releaseId ∉ removedReleases d retain := by
  have hnamed : releaseId ∈ namedReleases d := by
    cases h with
    | active h => simp [namedReleases, h]
    | lastKnownGood h => simp [namedReleases, h]
    | attempt h =>
        exact List.mem_append_right _ (List.mem_map.2 ⟨_, (Dict.get?_eq_some.1 h).1, rfl⟩)
  have hprotected : releaseId ∈ protectedReleases d retain := List.mem_append_left _ hnamed
  refine ⟨hprotected, ?_⟩
  intro hremoved
  rw [removedReleases, List.mem_insertionSort] at hremoved
  exact of_decide_eq_true (List.mem_filter.1 hremoved).2 hprotected

/-- The directory that `prune` leaves. -/
private theorem Kept.pruned (h : Kept P imported d) {retain : ℕ} (hs : Pruning d retain s) :
    let registry := (removedReleases d retain).foldl Dict.erase d.registry
    Kept P imported
      { s with
        registry
        interpreters := s.interpreters.filter fun a => a ∈ referencedArchives s registry
        interpreterPins := s.interpreterPins.filter fun a => a ∈ referencedArchives s registry } := by
  intro registry
  have hsurvives : ∀ {releaseId record}, registry.get? releaseId = some record →
      releaseId ∉ removedReleases d retain ∧ d.registry.get? releaseId = some record := by
    intro releaseId record hrecord
    rw [get?_foldl_erase] at hrecord
    split at hrecord
    · cases hrecord
    · rename_i hnot
      exact ⟨hnot, hrecord⟩
  refine ⟨hs.pointers.2.2.2.trans h.journal, ?_, ?_, fun hslot => h.slots (hs.slots hslot), ?_⟩
  · intro releaseId slotDigest generation hnamed
    have hnamed' : Named d releaseId slotDigest generation :=
      hnamed.of_same hs.pointers.1 hs.pointers.2.1 hs.pointers.2.2.1
    obtain ⟨hprotected, hnot⟩ := not_removed retain hnamed'
    obtain ⟨⟨slot, record, hslot, hrecord, hdigest, hmetadata, hid, hpin, hroot⟩, hgeneration⟩ :=
      h.held hnamed'
    have hstays : registry.get? releaseId = some record :=
      get?_foldl_erase.trans ((if_neg hnot).trans hrecord)
    have hkept : slotDigest ∈ keptDigests d retain := by
      obtain ⟨hmem, hkey⟩ := Dict.get?_eq_some.1 hrecord
      refine List.mem_map.2 ⟨record, List.mem_filter.2 ⟨hmem, decide_eq_true ?_⟩, hdigest⟩
      rw [hkey]
      exact hprotected
    have hslot' := hs.kept hkept hslot
    have hreferenced : slot.manifest.runtimeArchive ∈ referencedArchives s registry := by
      refine List.mem_filterMap.2 ⟨record, (Dict.get?_eq_some.1 hstays).1, ?_⟩
      rw [hdigest, hslot']
      rfl
    refine ⟨⟨slot, record, hslot', hstays, hdigest, hmetadata, hid, ?_, ?_⟩,
      hs.generations _ hgeneration hnot⟩
    · rw [← hs.interpreters.2] at hpin
      exact List.mem_filter.2 ⟨hpin, decide_eq_true hreferenced⟩
    · rw [← hs.interpreters.1] at hroot
      exact List.mem_filter.2 ⟨hroot, decide_eq_true hreferenced⟩
  · intro releaseId record hrecord
    exact h.records (hsurvives hrecord).2
  · intro releaseId record generation hrecord hsome
    obtain ⟨hnot, hrecord'⟩ := hsurvives hrecord
    exact hs.generations _ (h.generations hrecord' hsome) hnot

theorem Kept.prune (h : Kept P imported d) (retainCandidates : ℤ) :
    Kept P imported (prune retainCandidates d).final := by
  have hends : Guarded (fun s => s = d) (RuntimeUpdate.prune retainCandidates)
      (fun _ => True) (fun _ => Kept P imported) (Kept P imported) := by
    unfold RuntimeUpdate.prune
    refine .bind (lift_at h) fun _ => .assuming fun _ => ?_
    refine .bind (Q := fun _ s => s = d) ?_ fun _ => ?_
    · rintro s rfl
      rw [recoverActivation_idle h.journal]
      exact ⟨fun _ _ => trivial, rfl⟩
    · refine .bind read_at fun d' => .assuming ?_
      rintro rfl
      refine .bind (Q := fun _ => Pruning d' retainCandidates.toNat) ?_ fun _ => ?_
      · refine (Guarded.each (fun _ _ => trivial) fun releaseId hremoved =>
          removeRelease_pruning hremoved).conseq ?_ (fun _ _ hs => hs) fun _ hs => hs
        rintro s rfl
        exact ⟨rfl, ⟨rfl, rfl, rfl, rfl⟩, ⟨rfl, rfl⟩, fun g hg _ => hg, fun _ hslot => hslot,
          fun hslot => hslot⟩
      · intro s hs
        refine ⟨fun _ _ => trivial, ?_⟩
        exact h.pruned hs
  exact hends.ends rfl

/-! ## Runs -/

/-- No import brings another manifest for a release id that a pointer or a pin names. -/
def RespectsNames (d : Directory) (event : Event) : Prop :=
  ∀ request, event.call = .importRelease request → SparesNamed d request.manifest

/-- `uuid4` gives no generation a second time. -/
def FreshGeneration (d : Directory) (event : Event) : Prop :=
  ∀ releaseId, event.call = .stage releaseId →
    (releaseId, event.readings.newGeneration) ∉ d.generations

/-- The manifests that events imported, or tried to. -/
def Imported (events : List Event) (m : Manifest) : Prop :=
  ∃ event ∈ events, ∃ request, event.call = .importRelease request ∧ request.manifest = m

theorem Kept.step (h : Kept P imported d) {event : Event} (hwhole : event.crash = none)
    (hdigest : ∀ m m', imported m → imported m' → P.manifestDigest m = P.manifestDigest m' → m = m')
    (himported : ∀ request, event.call = .importRelease request → imported request.manifest)
    (hfresh : FreshGeneration d event) (hspare : RespectsNames d event) :
    Kept P imported (after P d event) := by
  obtain ⟨call, readings, crash⟩ := event
  cases hwhole
  have hfinal : ∀ {α : Type} {p : M α} {g : α → Reply}, Kept P imported (p d).final →
      Kept P imported ((g <$> p) d).final := by
    intro α p g hp
    rwa [(map_run d p g).2]
  cases call with
  | importRelease request =>
      exact hfinal (h.importRelease (himported request rfl) (hspare request rfl))
  | stage releaseId => exact hfinal (h.stage (hfresh releaseId rfl))
  | activate releaseId => exact hfinal (h.activate hdigest readings releaseId)
  | recoverActivation =>
      refine hfinal ?_
      rw [recoverActivation_idle h.journal]
      exact h
  | rollback => exact hfinal (h.rollback readings)
  | pinAttempt attemptId expectedPin => exact hfinal (h.pinAttempt attemptId expectedPin)
  | finishAttempt attemptId pin => exact hfinal (h.finishAttempt attemptId pin)
  | freeze => exact hfinal (h.setManager _)
  | thaw => exact hfinal (h.setManager _)
  | status =>
      refine hfinal ?_
      rw [RuntimeUpdate.status, bind_run_ok d (recoverActivation_idle h.journal)]
      exact h
  | prune retainCandidates => exact hfinal (h.prune retainCandidates)

/-- The slot with this release's manifest and the state generation are there. -/
structure Backed (d : Directory) (releaseId : ReleaseId) (slotDigest : Digest)
    (generation : GenerationId) : Prop where
  slot : ∃ slot, d.slots.get? slotDigest = some slot ∧ slot.manifest.releaseId = releaseId
  generation : (releaseId, generation) ∈ d.generations

/-- The last known good release passes the verification that a rollback makes of it, on every
host that supports its manifest. -/
def CanRollBack (P : Platform) (d : Directory) : Prop :=
  ∀ readings pointer, d.lastKnownGood = some pointer →
    (∀ m, readings.supported m = true ∧ readings.moduleRefusal m = none) →
    readings.interpreterContained = true →
      ∃ m, m.releaseId = pointer.releaseId ∧
        verifyCandidate P d readings pointer d.registry true = .ok m

theorem Kept.canRollBack (h : Kept P imported d) : CanRollBack P d := by
  intro readings pointer hpointer hhost hcontained
  obtain ⟨⟨slot, record, hslot, hrecord, -, hmetadata, hid, hpin, hroot⟩, -⟩ :=
    h.held (.lastKnownGood hpointer)
  have htree : slot.contentTree = record.contentTreeDigest :=
    congrArg SlotMetadata.contentTreeSha256 hmetadata
  refine ⟨slot.manifest, hid, ?_⟩
  simp only [verifyCandidate, hrecord, hslot, hmetadata, htree, (hhost slot.manifest).1,
    (hhost slot.manifest).2, verifyInterpreterRoot, interpreterContained, hpin, hroot, hcontained,
    Transaction.orRaise, Transaction.require, Transaction.ok_bind, if_true, and_self]
  rfl

/-- Every step is a whole command, and its import respects the names. -/
def Orderly (d : Directory) (event : Event) : Prop :=
  event.crash = none ∧ FreshGeneration d event ∧ RespectsNames d event

/-- In every run of whole commands in which imports respect the names, every pointer and pin
stays backed, and the last known good release can be rolled back to. -/
theorem pointers_backed {events : List Event}
    (h : History (restrict (Step P) Orderly) .initial events d)
    (hdigest : ∀ m m', Imported events m → Imported events m' →
      P.manifestDigest m = P.manifestDigest m' → m = m') :
    (∀ releaseId slotDigest generation, Named d releaseId slotDigest generation →
      Backed d releaseId slotDigest generation) ∧ CanRollBack P d := by
  have hkept : Kept P (Imported events) d := by
    have hsteps : History (restrict (restrict (Step P) Orderly) fun _ event =>
        ∀ request, event.call = .importRelease request → Imported events request.manifest)
        .initial events d :=
      h.restrict fun event hevent _ request hcall => ⟨event, hevent, request, hcall, rfl⟩
    refine hsteps.invariant kept_initial ?_
    rintro s event s' hs ⟨⟨rfl, hwhole, hfresh, hspare⟩, himported⟩
    exact hs.step hwhole hdigest himported hfresh hspare
  refine ⟨?_, hkept.canRollBack⟩
  intro releaseId slotDigest generation hnamed
  obtain ⟨⟨slot, -, hslot, -, -, -, hid, -⟩, hgeneration⟩ := hkept.held hnamed
  exact ⟨⟨slot, hslot, hid⟩, hgeneration⟩

/-! ## A name that loses its slot -/

/-- The artifact of the first release is imported under a third release id, and the first
release id with another artifact. -/
def reimported : List Event :=
  [⟨.importRelease (plainImport (plainManifest "a" "9" 4)), willing, none⟩,
    ⟨.importRelease (plainImport (plainManifest "c" "1" 3)), willing, none⟩] ++ twoInstalled

/-- The first release is still the last known good one, but a rollback to it is refused, and
`prune` removes its slot. -/
theorem slot_pruned :
    let d := run plainPlatform .initial reimported
    let d' := run plainPlatform .initial (⟨.prune 0, willing, none⟩ :: reimported)
    History (Step plainPlatform) .initial (⟨.prune 0, willing, none⟩ :: reimported) d' ∧
      d.lastKnownGood = some firstPointer ∧
      (rollback plainPlatform willing d).result =
        .error (.activation "candidate slot metadata verification failed") ∧
      d'.lastKnownGood = some firstPointer ∧
      ¬ Backed d' firstPointer.releaseId firstPointer.slotDigest firstPointer.generationId := by
  refine ⟨history_run _ _ _, by decide, rfl, by decide, ?_⟩
  rintro ⟨⟨slot, hslot, -⟩, -⟩
  have hnone : ((run plainPlatform .initial (⟨.prune 0, willing, none⟩ :: reimported)).slots.get?
      firstPointer.slotDigest).isNone = true := by
    decide
  rw [hslot] at hnone
  cases hnone

private theorem noNames {m : Manifest} (hactive : d.active = none) (hgood : d.lastKnownGood = none)
    (hattempts : d.attempts = .empty) : SparesNamed d m := by
  intro slotDigest generation slot hnamed _
  generalize m.releaseId = releaseId at hnamed
  cases hnamed with
  | active h =>
      rw [hactive] at h
      cases h
  | lastKnownGood h =>
      rw [hgood] at h
      cases h
  | attempt h =>
      rw [hattempts] at h
      cases h

/-- One release is installed. -/
def oneInstalled : List Event := install (plainManifest "a" "1" 1)

private theorem orderly_oneInstalled :
    History (restrict (Step plainPlatform) Orderly) .initial oneInstalled
      (run plainPlatform .initial oneInstalled) := by
  have himport : Orderly .initial
      ⟨.importRelease (plainImport (plainManifest "a" "1" 1)), willing, none⟩ := by
    refine ⟨rfl, ?_, fun request hcall => noNames rfl rfl rfl⟩
    intro releaseId hcall
    cases hcall
  refine .cons (.cons (.cons .nil ⟨rfl, himport⟩) ⟨rfl, rfl, ?_, ?_⟩) ⟨rfl, rfl, ?_, ?_⟩
  · intro releaseId hcall
    exact List.not_mem_nil
  · intro request hcall
    cases hcall
  · intro releaseId hcall
    cases hcall
  · intro request hcall
    cases hcall

theorem pointers_backed_oneInstalled :
    (run plainPlatform .initial oneInstalled).active = some firstPointer ∧
      (∀ releaseId slotDigest generation,
        Named (run plainPlatform .initial oneInstalled) releaseId slotDigest generation →
          Backed (run plainPlatform .initial oneInstalled) releaseId slotDigest generation) ∧
      CanRollBack plainPlatform (run plainPlatform .initial oneInstalled) := by
  refine ⟨by decide, pointers_backed orderly_oneInstalled ?_⟩
  have hone : ∀ m, Imported oneInstalled m → m = plainManifest "a" "1" 1 := by
    rintro m ⟨event, hevent, request, hcall, rfl⟩
    simp only [oneInstalled, install, List.mem_cons, List.not_mem_nil, or_false] at hevent
    rcases hevent with rfl | rfl | rfl
    · cases hcall
    · cases hcall
    · cases hcall
      rfl
  intro m m' hm hm' _
  rw [hone m hm, hone m' hm']

end Cortex.RuntimeUpdate
