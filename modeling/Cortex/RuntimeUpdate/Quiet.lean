import Cortex.RuntimeUpdate.Recovery

/-!
# Commands that leave the pointers alone

Import, staging, pins, freezing and the removals of `prune` change neither a
pointer nor the journal, and no step of theirs quarantines a release: wherever they
crash, the directory is `Quiet` with respect to the one they started from.
-/

namespace Cortex.RuntimeUpdate

open Control Procedure

/-- No pointer and no journal changed, and no release was quarantined. -/
structure Quiet (d d' : Directory) : Prop where
  active : d'.active = d.active
  lastKnownGood : d'.lastKnownGood = d.lastKnownGood
  journal : d'.journal = d.journal
  quarantined : ∀ {releaseId record}, d'.registry.get? releaseId = some record →
    record.status = .quarantined →
      ∃ record', d.registry.get? releaseId = some record' ∧ record'.status = .quarantined

/-- The registry is still the one of `d`. -/
structure Begun (d d' : Directory) : Prop where
  active : d'.active = d.active
  lastKnownGood : d'.lastKnownGood = d.lastKnownGood
  journal : d'.journal = d.journal
  registry : d'.registry = d.registry

variable {d s s' : Directory} {α : Type}

theorem Begun.refl (d : Directory) : Begun d d :=
  ⟨rfl, rfl, rfl, rfl⟩

theorem Begun.quiet (h : Begun d s) : Quiet d s where
  active := h.active
  lastKnownGood := h.lastKnownGood
  journal := h.journal
  quarantined := by
    intro releaseId record hrecord hstatus
    rw [h.registry] at hrecord
    exact ⟨record, hrecord, hstatus⟩

theorem Begun.set {record : Record} (h : Begun d s) (hstatus : record.status ≠ .quarantined) :
    Quiet d { s with registry := d.registry.set record } where
  active := h.active
  lastKnownGood := h.lastKnownGood
  journal := h.journal
  quarantined := by
    intro releaseId record' hrecord hquarantined
    rw [Dict.get?_set] at hrecord
    split at hrecord
    · cases hrecord
      exact absurd hquarantined hstatus
    · exact ⟨record', hrecord, hquarantined⟩

/-! ## Single steps -/

private abbrev Quietly (d : Directory) (p : M α) : Prop :=
  Guarded (Begun d) p (Quiet d) (fun _ => Quiet d) (Quiet d)

private theorem quiet_read :
    Guarded (Begun d) (read : M Directory) (Quiet d)
      (fun d' s => Begun d s ∧ d'.registry = d.registry) (Quiet d) :=
  .read fun _ hs => ⟨hs.quiet, hs, hs.registry⟩

private theorem quiet_lift {x : Except RuntimeUpdateError α} :
    Guarded (Begun d) (lift x) (Quiet d) (fun a s => Begun d s ∧ x = .ok a) (Quiet d) :=
  .lift (fun _ hs => hs.quiet) (fun _ hx _ hs => ⟨hs, hx⟩) fun _ hs => hs.quiet

private theorem quiet_pure {a : α} : Quietly d (pure a : M α) :=
  .pure fun _ hs => ⟨hs.quiet, hs.quiet⟩

private theorem quiet_raise {error : RuntimeUpdateError} : Quietly d (raise error : M α) :=
  .raise fun _ hs => ⟨hs.quiet, hs.quiet⟩

/-- A step that touches neither pointers, journal nor registry. -/
private theorem begun_write {f : Directory → Directory}
    (hf : ∀ s, (f s).active = s.active ∧ (f s).lastKnownGood = s.lastKnownGood ∧
      (f s).journal = s.journal ∧ (f s).registry = s.registry) :
    Guarded (Begun d) (write f : M Unit) (Quiet d) (fun _ => Begun d) (Quiet d) := by
  refine .write ?_
  intro s hs
  obtain ⟨hactive, hlast, hjournal, hregistry⟩ := hf s
  have hafter : Begun d (f s) :=
    ⟨hactive.trans hs.active, hlast.trans hs.lastKnownGood, hjournal.trans hs.journal,
      hregistry.trans hs.registry⟩
  exact ⟨hs.quiet, hafter.quiet, hafter⟩

private theorem quietly_write {f : Directory → Directory}
    (hf : ∀ s, (f s).active = s.active ∧ (f s).lastKnownGood = s.lastKnownGood ∧
      (f s).journal = s.journal ∧ (f s).registry = s.registry) :
    Quietly d (write f : M Unit) :=
  (begun_write hf).conseq (fun _ hs => hs) (fun _ _ hs => hs.quiet) fun _ hs => hs

/-- The last registry write of a command. -/
private theorem quiet_write {registry : Registry} (hregistry : ∀ s, Begun d s →
    Quiet d { s with registry }) :
    Quietly d (write (fun s => { s with registry }) : M Unit) :=
  .write fun s hs => ⟨hs.quiet, hregistry s hs, hregistry s hs⟩

/-! ## The commands -/

variable (P : Platform) (readings : Readings)

private theorem provideSlot_begun (d' : Directory) (release : Manifest) :
    Guarded (Begun d) (provideSlot P readings d' release) (Quiet d) (fun _ => Begun d)
      (Quiet d) := by
  unfold provideSlot
  split
  · exact .pure fun s hs => ⟨hs.quiet, hs⟩
  · refine .bind quiet_lift fun _ => .assuming fun _ => ?_
    split
    · exact .raise fun s hs => ⟨hs.quiet, hs.quiet⟩
    · refine .bind (begun_write fun s => ⟨rfl, rfl, rfl, rfl⟩) fun _ => ?_
      exact .pure fun s hs => ⟨hs.quiet, hs⟩

theorem importRelease_quiet (request : ReleaseImport) :
    Quietly d (importRelease P readings request) := by
  unfold importRelease
  refine .bind quiet_lift fun _ => .assuming fun _ => ?_
  refine .bind quiet_read fun d' => .assuming fun hd' => ?_
  refine .bind quiet_lift fun _ => .assuming fun _ => ?_
  refine .bind quiet_lift fun _ => .assuming fun _ => ?_
  refine .bind (provideSlot_begun P readings d' request.manifest) fun treeDigest => ?_
  rw [hd']
  refine .bind (quiet_write fun s hs => hs.set (by simp)) fun _ => ?_
  refine .bind (Q := fun _ => Quiet d) (.write fun s hs => ?_) fun _ => ?_
  · have hafter : Quiet d { s with
        manager := { s.manager with
          catalogSequence := request.catalog.sequence
          catalogDigest := some (P.catalogDigest request.catalog) } } :=
      ⟨hs.active, hs.lastKnownGood, hs.journal, hs.quarantined⟩
    exact ⟨hs, hafter, hafter⟩
  · exact .pure fun s hs => ⟨hs, hs⟩

private theorem provisionInterpreter_begun (manifest : Manifest) :
    Guarded (Begun d) (provisionInterpreter readings manifest) (Quiet d) (fun _ => Begun d)
      (Begun d) := by
  have hlift : ∀ {x : Except RuntimeUpdateError Unit},
      Guarded (Begun d) (lift x) (Quiet d) (fun _ => Begun d) (Begun d) :=
    .lift (fun _ hs => hs.quiet) (fun _ _ _ hs => hs) fun _ hs => hs
  have hwrite : ∀ {f : Directory → Directory},
      (∀ s, (f s).active = s.active ∧ (f s).lastKnownGood = s.lastKnownGood ∧
        (f s).journal = s.journal ∧ (f s).registry = s.registry) →
      Guarded (Begun d) (write f : M Unit) (Quiet d) (fun _ => Begun d) (Begun d) := by
    intro f hf
    refine .write fun s hs => ?_
    have hafter := (begun_write (d := d) hf s hs).2
    exact ⟨hs.quiet, hafter.quiet, hafter⟩
  unfold provisionInterpreter
  refine .bind (Q := fun _ => Begun d) (.read fun s hs => ⟨hs.quiet, hs⟩) fun d' => ?_
  split
  · exact .bind hlift fun _ => hlift
  · have hrest : Guarded (Begun d) (do
        lift (Transaction.require readings.archivePresent
          (.activation "release runtime archive is missing"))
        lift (Transaction.require readings.interpreterExpanded
          (.activation "release interpreter could not be staged"))
        write fun d => { d with interpreters := manifest.runtimeArchive :: d.interpreters }
        lift (Transaction.require readings.interpreterMeasured
          (.activation "staged interpreter was not measured"))
        lift (interpreterContained readings)
        write fun d =>
          { d with interpreterPins := manifest.runtimeArchive :: d.interpreterPins } : M Unit)
        (Quiet d) (fun _ => Begun d) (Begun d) := by
      refine .bind hlift fun _ => .bind hlift fun _ => ?_
      refine .bind (hwrite fun s => ⟨rfl, rfl, rfl, rfl⟩) fun _ => ?_
      refine .bind hlift fun _ => .bind hlift fun _ => ?_
      exact hwrite fun s => ⟨rfl, rfl, rfl, rfl⟩
    split
    · refine .bind (hwrite fun s => ⟨rfl, rfl, rfl, rfl⟩) fun _ => ?_
      exact .bind (hwrite fun s => ⟨rfl, rfl, rfl, rfl⟩) fun _ => hrest
    · exact hrest

theorem stage_quiet (releaseId : ReleaseId) : Quietly d (stage P readings releaseId) := by
  unfold stage
  refine .bind quiet_lift fun _ => .assuming fun _ => ?_
  refine .bind quiet_read fun d' => .assuming fun hd' => ?_
  refine .bind quiet_lift fun record => .assuming fun _ => ?_
  refine .bind quiet_lift fun _ => .assuming fun _ => ?_
  refine .bind quiet_lift fun _ => .assuming fun _ => ?_
  refine .bind (begun_write fun s => ⟨rfl, rfl, rfl, rfl⟩) fun _ => ?_
  refine .bind quiet_lift fun candidate => .assuming fun _ => ?_
  refine .bind quiet_read fun d'' => .assuming fun _ => ?_
  refine .bind quiet_lift fun manifest => .assuming fun _ => ?_
  refine .bind (Q := fun _ => Begun d) ?_ fun _ => ?_
  · refine .rescue (J := Begun d) ?_ fun error => ?_
    · refine .bind (provisionInterpreter_begun readings manifest) fun _ => ?_
      refine .bind (Q := fun _ => Begun d) (.read fun s hs => ⟨hs.quiet, hs⟩) fun _ => ?_
      exact .lift (fun _ hs => hs.quiet) (fun _ _ _ hs => hs) fun _ hs => hs
    · refine .bind (begun_write fun s => ⟨rfl, rfl, rfl, rfl⟩) fun _ => ?_
      exact .raise fun s hs => ⟨hs.quiet, hs.quiet⟩
  · rw [hd']
    refine .bind (quiet_write fun s hs => hs.set (by simp)) fun _ => ?_
    exact .pure fun s hs => ⟨hs, hs⟩

theorem pinAttempt_quiet (attemptId : Text) (expectedPin : Option AttemptPin) :
    Quietly d (pinAttempt P readings attemptId expectedPin) := by
  unfold pinAttempt
  refine .bind quiet_lift fun _ => .assuming fun _ => ?_
  refine .bind quiet_read fun _ => .assuming fun _ => ?_
  refine .bind quiet_lift fun _ => .assuming fun _ => ?_
  refine .bind quiet_lift fun _ => .assuming fun _ => ?_
  refine .bind quiet_lift fun _ => .assuming fun _ => ?_
  refine .bind quiet_lift fun _ => .assuming fun _ => ?_
  refine .bind quiet_lift fun _ => .assuming fun _ => ?_
  refine .bind (begun_write fun s => ⟨rfl, rfl, rfl, rfl⟩) fun _ => ?_
  exact quiet_pure

theorem finishAttempt_quiet (attemptId : Text) (pin : AttemptPin) :
    Quietly d (finishAttempt P readings attemptId pin) := by
  unfold finishAttempt
  refine .bind quiet_read fun _ => .assuming fun _ => ?_
  refine .bind quiet_lift fun current => .assuming fun _ => ?_
  split
  · exact quiet_pure
  · refine .bind quiet_lift fun _ => .assuming fun _ => ?_
    exact quietly_write fun s => ⟨rfl, rfl, rfl, rfl⟩

theorem setFrozen_quiet (frozen : Bool) : Quietly d (setFrozen frozen) :=
  quietly_write fun _ => ⟨rfl, rfl, rfl, rfl⟩

/-! ## The removals of `prune` -/

theorem get?_foldl_erase {registry : Registry} {removed : List ReleaseId} {releaseId : ReleaseId} :
    (removed.foldl Dict.erase registry).get? releaseId =
      if releaseId ∈ removed then none else registry.get? releaseId := by
  induction removed generalizing registry with
  | nil => rfl
  | cons first removed ih =>
      rw [List.foldl_cons, ih, Dict.get?_erase]
      by_cases hrest : releaseId ∈ removed
      · rw [if_pos hrest, if_pos (.tail _ hrest)]
      · by_cases hfirst : releaseId = first
        · rw [if_neg hrest, if_pos hfirst, if_pos (hfirst ▸ .head _)]
        · rw [if_neg hrest, if_neg hfirst, if_neg (by simp [hfirst, hrest])]

/-- What `prune` does after its recovery. -/
def pruneRecovered (retainCandidates : ℤ) : M (List ReleaseId) := do
  let d ← read
  let removed := removedReleases d retainCandidates.toNat
  each (removeRelease d (keptDigests d retainCandidates.toNat)) removed
  let registry := removed.foldl Dict.erase d.registry
  pruneInterpreters registry
  write fun d => { d with registry }
  pure removed

theorem pruneRecovered_quiet (retainCandidates : ℤ) :
    Quietly d (pruneRecovered retainCandidates) := by
  unfold pruneRecovered
  refine .bind quiet_read fun d' => .assuming fun hd' => ?_
  refine .bind (Q := fun _ => Begun d) (.each (fun _ hs => hs.quiet) fun releaseId _ => ?_)
    fun _ => ?_
  · unfold removeRelease
    refine .bind (begun_write fun s => ⟨rfl, rfl, rfl, rfl⟩) fun _ => ?_
    split
    · exact .pure fun s hs => ⟨hs.quiet, hs⟩
    · split
      · exact .pure fun s hs => ⟨hs.quiet, hs⟩
      · exact begun_write fun s => ⟨rfl, rfl, rfl, rfl⟩
  · refine .bind (Q := fun _ => Begun d) ?_ fun _ => ?_
    · unfold pruneInterpreters
      refine .bind quiet_read fun _ => .assuming fun _ => ?_
      refine .bind (begun_write fun s => ⟨rfl, rfl, rfl, rfl⟩) fun _ => ?_
      exact begun_write fun s => ⟨rfl, rfl, rfl, rfl⟩
    · rw [hd']
      refine .bind (quiet_write fun s hs => ⟨hs.active, hs.lastKnownGood, hs.journal, ?_⟩)
        fun _ => ?_
      · intro releaseId record hrecord hstatus
        rw [get?_foldl_erase] at hrecord
        split at hrecord
        · cases hrecord
        · exact ⟨record, hrecord, hstatus⟩
      · exact .pure fun s hs => ⟨hs, hs⟩

end Cortex.RuntimeUpdate
