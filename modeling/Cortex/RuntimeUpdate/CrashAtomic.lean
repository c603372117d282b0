import Cortex.RuntimeUpdate.Activation
import Cortex.RuntimeUpdate.Quiet
import Cortex.RuntimeUpdate.Rollback

/-!
# Activation and crashes

`Sound d` holds of every directory that a run of commands and crashes leaves, as
long as no crash is `AtRisk` or splits a rollback.  In a sound directory a crashed
activation is atomic exactly when its crash is not at risk: not between the
last-known-good write and the removal of the journal.
-/

namespace Cortex.RuntimeUpdate

open Control Procedure

variable {P : Platform} {readings : Readings} {releaseId : ReleaseId} {d d' s : Directory}
  {candidate pointer old good : Pointer}

/-! ## Settled directories -/

/-- What holds of the pointers once no activation is under way. -/
structure Settled (d : Directory) : Prop where
  journal : d.journal = none
  first : d.active = none → d.lastKnownGood = none
  apart : ∀ {old good}, d.active = some old → d.lastKnownGood = some good →
    old.releaseId ≠ good.releaseId
  trusted : ∀ {pointer record}, d.active = some pointer →
    d.registry.get? pointer.releaseId = some record → record.status ≠ .quarantined

/-- A recovery leaves a settled directory, and the journal is about two releases. -/
structure Sound (d : Directory) : Prop where
  journal : ∀ {journal old}, d.journal = some journal → journal.oldActive = some old →
    old.releaseId ≠ journal.candidate.releaseId
  settled : Settled (recovered d)

theorem sound_initial : Sound .initial where
  journal := by
    intro journal old h
    cases h
  settled := by
    rw [recovered_idle rfl]
    refine ⟨rfl, fun _ => rfl, ?_, ?_⟩
    · intro old good h
      cases h
    · intro pointer record h
      cases h

theorem Settled.sound (h : Settled d) : Sound d where
  journal := by
    intro journal old hjournal
    rw [h.journal] at hjournal
    cases hjournal
  settled := by
    rw [recovered_idle h.journal]
    exact h

theorem Sound.left (h : Sound d) (hd' : d' ∈ (recoverActivation d).left) : Sound d' := by
  rcases left_recoverActivation hd' with rfl | ⟨hjournal, hrecovered⟩
  · exact h.settled.sound
  · refine ⟨?_, ?_⟩
    · intro journal old hsome
      exact h.journal (hjournal.symm.trans hsome)
    · rw [hrecovered]
      exact h.settled

/-- The record of a release that the journal does not name. -/
private theorem get?_recovered
    (h : ∀ journal, d.journal = some journal → releaseId ≠ journal.candidate.releaseId) :
    (recovered d).registry.get? releaseId = d.registry.get? releaseId := by
  cases hjournal : d.journal with
  | none => rw [recovered_idle hjournal]
  | some journal =>
      rw [recovered_journal hjournal]
      exact Registry.get?_mark.trans (if_neg (h journal hjournal))

private theorem active_recovered (d : Directory) :
    (recovered d).active =
      match d.journal with
      | none => d.active
      | some journal => journal.oldActive := by
  cases hjournal : d.journal with
  | none => rw [recovered_idle hjournal]
  | some journal => rw [recovered_journal hjournal]

/-- A command that leaves the pointers alone keeps the directory sound. -/
theorem Sound.quiet (h : Sound d) (hquiet : Quiet d d') : Sound d' := by
  have hjournal' : ∀ {journal old}, d'.journal = some journal → journal.oldActive = some old →
      old.releaseId ≠ journal.candidate.releaseId := by
    intro journal old hsome
    exact h.journal (hquiet.journal.symm.trans hsome)
  have hactive : (recovered d').active = (recovered d).active := by
    rw [active_recovered, active_recovered, hquiet.journal, hquiet.active]
  have hlast : (recovered d').lastKnownGood = (recovered d).lastKnownGood := by
    rw [recovered_lastKnownGood, recovered_lastKnownGood, hquiet.lastKnownGood]
  refine ⟨hjournal', recovered_noJournal d', ?_, ?_, ?_⟩
  · rw [hactive, hlast]
    exact h.settled.first
  · intro old good hold hgood
    exact h.settled.apart (hactive.symm.trans hold) (hlast.symm.trans hgood)
  · intro pointer record hpointer hrecord hstatus
    have hother : ∀ journal, d'.journal = some journal →
        pointer.releaseId ≠ journal.candidate.releaseId := by
      intro journal hjournal
      refine hjournal' hjournal ?_
      rw [active_recovered, hjournal] at hpointer
      exact hpointer
    have hother' : ∀ journal, d.journal = some journal →
        pointer.releaseId ≠ journal.candidate.releaseId := by
      intro journal hjournal
      exact hother journal (hquiet.journal.trans hjournal)
    rw [get?_recovered hother] at hrecord
    obtain ⟨record', hrecord', hstatus'⟩ := hquiet.quarantined hrecord hstatus
    rw [← get?_recovered hother'] at hrecord'
    exact h.settled.trusted (hactive.symm.trans hpointer) hrecord' hstatus'

/-! ## What an admission says -/

theorem candidateOf_releaseId {registry : Registry}
    (h : candidateOf registry releaseId = .ok candidate) :
    candidate.releaseId = releaseId ∧ (registry.get? releaseId).isSome := by
  simp only [candidateOf, Transaction.bind_eq_ok, Transaction.orRaise_eq_ok,
    Transaction.pure_eq_ok] at h
  obtain ⟨record, hrecord, generation, -, rfl⟩ := h
  exact ⟨rfl, by rw [hrecord, Option.isSome_some]⟩

theorem admitActivation_admitted
    (h : admitActivation P readings d releaseId = .ok (.admitted candidate)) :
    candidateOf d.registry releaseId = .ok candidate ∧
      ∀ old, d.active = some old → old.releaseId ≠ releaseId := by
  simp only [admitActivation, Transaction.bind_eq_ok] at h
  obtain ⟨-, -, -, -, candidate', hcandidate, -, -, -, -, h⟩ := h
  split at h
  · rename_i hnone
    cases h
    refine ⟨hcandidate, ?_⟩
    intro old hold
    rw [hnone] at hold
    cases hold
  · rename_i active hactive
    split at h
    · cases h
    · rename_i hne
      simp only [Transaction.bind_eq_ok] at h
      obtain ⟨-, -, h⟩ := h
      cases h
      refine ⟨hcandidate, ?_⟩
      intro old hold
      rw [hactive] at hold
      cases hold
      exact hne

/-! ## Activation -/

theorem Settled.aborted (h : Settled d)
    (hother : ∀ old, d.active = some old → old.releaseId ≠ candidate.releaseId) :
    Settled (aborted d candidate) where
  journal := rfl
  first := h.first
  apart := h.apart
  trusted := by
    intro pointer record hpointer hrecord
    have hne := hother pointer hpointer
    exact h.trusted hpointer ((Registry.get?_mark.trans (if_neg hne)).symm.trans hrecord)

private theorem status_mark {registry : Registry} {record : Record} {status : Status}
    (h : (registry.mark releaseId status).get? releaseId = some record) :
    record.status = status := by
  rw [Registry.get?_mark, if_pos rfl, Option.map_eq_some_iff] at h
  obtain ⟨record', -, rfl⟩ := h
  rfl

theorem Settled.completed (h : Settled d)
    (hother : ∀ old, d.active = some old → old.releaseId ≠ candidate.releaseId) :
    Settled (completed d candidate) := by
  refine ⟨rfl, ?_, ?_, ?_⟩
  · intro hnone
    cases hnone
  · intro new good hnew hgood
    cases hnew
    cases hactive : d.active with
    | none =>
        have hnone : (RuntimeUpdate.completed d candidate).lastKnownGood = none := by
          simp only [RuntimeUpdate.completed, hactive, h.first hactive]
        rw [hnone] at hgood
        cases hgood
    | some old =>
        have hsome : (RuntimeUpdate.completed d candidate).lastKnownGood = some old := by
          simp only [RuntimeUpdate.completed, hactive]
        rw [hsome] at hgood
        cases hgood
        exact (hother _ hactive).symm
  · intro new record hnew hrecord
    cases hnew
    have hstatus : record.status = .active := by
      cases hactive : d.active with
      | none =>
          simp only [RuntimeUpdate.completed, activatedRegistry, hactive] at hrecord
          exact status_mark hrecord
      | some old =>
          simp only [RuntimeUpdate.completed, activatedRegistry, hactive] at hrecord
          exact status_mark hrecord
    rw [hstatus]
    decide

/-- The crash comes after the last-known-good write and before the journal is removed. -/
def AtRisk (P : Platform) (readings : Readings) (d : Directory) (releaseId : ReleaseId) (k : ℕ) :
    Prop :=
  ∃ candidate old, admitActivation P readings (recovered d) releaseId = .ok (.admitted candidate) ∧
    BothHealthy readings ∧ (recovered d).active = some old ∧
    (k = recoverySteps d + 5 ∨ k = recoverySteps d + 6)

/-- The crash comes between the first and the last write of a rollback. -/
def SplitsRollback (P : Platform) (readings : Readings) (d : Directory) (k : ℕ) : Prop :=
  (∃ pointer, admitRollback P readings (recovered d) = .ok pointer) ∧
    (k = recoverySteps d + 1 ∨ k = recoverySteps d + 2)

/-- A crashed activation that is not at risk: what there was before, or the candidate. -/
theorem activate_recovers {k : ℕ}
    (hrisk : ¬ AtRisk P readings d releaseId k)
    (hs : (activate P readings releaseId d).crashed k = s) :
    s ∈ (recoverActivation d).left ∨
      ∃ candidate, candidateOf (recovered d).registry releaseId = .ok candidate ∧
        (∀ old, (recovered d).active = some old → old.releaseId ≠ candidate.releaseId) ∧
        (Underway (recovered d) candidate s ∨ s = aborted (recovered d) candidate ∨
          s = completed (recovered d) candidate) := by
  rcases activate_stopped P readings releaseId d k with hleft | ⟨candidate, i, hadmitted, hk, hstop⟩
  · rw [hs] at hleft
    exact .inl hleft
  rw [hs] at hstop
  obtain ⟨hcandidate, hother⟩ := admitActivation_admitted hadmitted
  have hother' : ∀ old, (recovered d).active = some old → old.releaseId ≠ candidate.releaseId := by
    rw [(candidateOf_releaseId hcandidate).1]
    exact hother
  cases hstop with
  | before h =>
      rw [h]
      exact .inl (Outcome.final_mem_left (recoverActivation d))
  | underway h => exact .inr ⟨candidate, hcandidate, hother', .inl h⟩
  | aborted h => exact .inr ⟨candidate, hcandidate, hother', .inr (.inl h)⟩
  | completed hhealthy h => exact .inr ⟨candidate, hcandidate, hother', .inr (.inr h)⟩
  | forgetful old hhealthy hold hi h =>
      refine absurd ⟨candidate, old, hadmitted, hhealthy, hold, ?_⟩ hrisk
      rcases hi with rfl | rfl
      · exact .inl hk
      · exact .inr hk

theorem Sound.activate {k : ℕ} (h : Sound d) (hrisk : ¬ AtRisk P readings d releaseId k) :
    Sound ((activate P readings releaseId d).crashed k) := by
  generalize hs : (RuntimeUpdate.activate P readings releaseId d).crashed k = s
  rcases activate_recovers hrisk hs with hleft | ⟨candidate, -, hother, hstop⟩
  · exact h.left hleft
  rcases hstop with hunder | rfl | rfl
  · refine ⟨?_, ?_⟩
    · obtain ⟨phase, active, registry, -, rfl⟩ := hunder
      intro journal old hjournal hold
      cases hjournal
      exact hother old hold
    · rw [hunder.recovered_eq]
      exact h.settled.aborted hother
  · exact (h.settled.aborted hother).sound
  · exact (h.settled.completed hother).sound

/-! ## Rollback -/

theorem admitRollback_record (h : admitRollback P readings d = .ok pointer) :
    d.lastKnownGood = some pointer ∧ (d.registry.get? pointer.releaseId).isSome := by
  refine ⟨admitRollback_pointer h, ?_⟩
  have hpointer := admitRollback_pointer h
  simp only [admitRollback, verifyCandidate, Transaction.bind_eq_ok,
    Transaction.orRaise_eq_ok] at h
  obtain ⟨-, -, pointer', hpointer', -, ⟨record, hrecord, -⟩, -⟩ := h
  rw [hpointer] at hpointer'
  cases hpointer'
  rw [hrecord, Option.isSome_some]

theorem Settled.rolledBack (h : Settled d) (hgood : d.lastKnownGood = some pointer) :
    Settled (rolledBack d pointer) := by
  obtain ⟨current, hcurrent⟩ : ∃ current, d.active = some current := by
    cases hactive : d.active with
    | none =>
        rw [h.first hactive] at hgood
        cases hgood
    | some current => exact ⟨current, rfl⟩
  have hne : pointer.releaseId ≠ current.releaseId := (h.apart hcurrent hgood).symm
  refine ⟨h.journal, ?_, ?_, ?_⟩
  · intro hnone
    cases hnone
  · intro new old hnew hold
    cases hnew
    cases hcurrent.symm.trans hold
    exact hne
  · intro new record hnew hrecord
    cases hnew
    simp only [RuntimeUpdate.rolledBack, restoredRegistry, hcurrent] at hrecord
    rw [Registry.get?_mark, if_neg hne] at hrecord
    rw [status_mark hrecord]
    decide

theorem Sound.rollback {k : ℕ} (h : Sound d) (hwhole : ¬ SplitsRollback P readings d k) :
    Sound ((rollback P readings d).crashed k) := by
  rcases rollback_stopped P readings d k with hleft | ⟨pointer, i, hadmitted, hk, hstop⟩
  · exact h.left hleft
  have hgood := admitRollback_pointer hadmitted
  generalize (RuntimeUpdate.rollback P readings d).crashed k = s at hstop
  cases hstop with
  | before => exact h.settled.sound
  | torn => exact absurd ⟨⟨pointer, hadmitted⟩, .inl hk⟩ hwhole
  | exchanged => exact absurd ⟨⟨pointer, hadmitted⟩, .inr hk⟩ hwhole
  | done i => exact (h.settled.rolledBack hgood).sound

/-! ## Runs -/

/-- No crash is at risk, and none splits a rollback. -/
def Careful (P : Platform) (d : Directory) (event : Event) : Prop :=
  match event.call, event.crash with
  | .activate releaseId, some k => ¬ AtRisk P event.readings d releaseId k
  | .rollback, some k => ¬ SplitsRollback P event.readings d k
  | _, _ => True

theorem after_mem_left (P : Platform) (d : Directory) (event : Event) :
    after P d event ∈ (perform P event.readings event.call d).left := by
  unfold after
  split
  · exact Outcome.final_mem_left _
  · exact Outcome.crashed_mem_left _ _

private theorem Sound.quietly {α : Type} {p : M α} {g : α → Reply} {Q : α → Directory → Prop}
    {E : Directory → Prop} (h : Sound d) (hp : Guarded (Begun d) p (Quiet d) Q E)
    (hs : s ∈ ((g <$> p) d).left) : Sound s := by
  rw [left_map] at hs
  exact h.quiet ((hp d (.refl d)).1 s hs)

theorem Sound.prune {retainCandidates : ℤ} (h : Sound d)
    (hs : s ∈ (RuntimeUpdate.prune retainCandidates d).left) : Sound s := by
  have hrecover : Guarded (fun s => s = d) recoverActivation Sound (fun _ s => s = recovered d)
      Sound := by
    rintro s rfl
    refine ⟨fun s' hs' => h.left hs', ?_⟩
    rw [recoverActivation_run s]
  have hprune : Guarded (fun s => s = d) (RuntimeUpdate.prune retainCandidates) Sound
      (fun _ => Quiet (recovered d)) fun _ => True := by
    refine .bind (Q := fun _ s => s = d) (.lift ?_ (fun _ _ _ hs => hs) fun _ _ => trivial)
      fun _ => ?_
    · rintro s rfl
      exact h
    · refine .bind (hrecover.conseq (fun _ hs => hs) (fun _ _ hs => hs) fun _ _ => trivial)
        fun _ => ?_
      have hrest : Guarded (fun s => s = recovered d) (pruneRecovered retainCandidates)
          (Quiet (recovered d)) (fun _ => Quiet (recovered d)) fun _ => True := by
        refine (pruneRecovered_quiet retainCandidates).conseq ?_ (fun _ _ hs => hs)
          fun _ _ => trivial
        rintro s rfl
        exact .refl (recovered d)
      exact hrest.crashing fun s hs => h.settled.sound.quiet hs
  exact (hprune d rfl).1 s hs

theorem Sound.step {event : Event} (h : Sound d) (hcareful : Careful P d event) :
    Sound (after P d event) := by
  obtain ⟨call, readings, crash⟩ := event
  have hmem := after_mem_left P d ⟨call, readings, crash⟩
  cases call with
  | importRelease request => exact h.quietly (importRelease_quiet P readings request) hmem
  | stage releaseId => exact h.quietly (stage_quiet P readings releaseId) hmem
  | pinAttempt attemptId pin => exact h.quietly (pinAttempt_quiet P readings attemptId pin) hmem
  | finishAttempt attemptId pin =>
      exact h.quietly (finishAttempt_quiet P readings attemptId pin) hmem
  | freeze => exact h.quietly (setFrozen_quiet true) hmem
  | thaw => exact h.quietly (setFrozen_quiet false) hmem
  | recoverActivation =>
      rw [perform, left_map] at hmem
      exact h.left hmem
  | status =>
      rw [perform, left_map, RuntimeUpdate.status,
        bind_run_ok d (recoverActivation_run d)] at hmem
      refine h.left ?_
      rw [recoverActivation_run d]
      simpa only [Outcome.left, bind, read_run, pure_run, List.append_nil] using hmem
  | prune retainCandidates =>
      rw [perform, left_map] at hmem
      exact h.prune hmem
  | activate releaseId =>
      cases crash with
      | some k =>
          have hcrash := h.activate (P := P) hcareful
          rwa [← crashed_map d _ Reply.candidate] at hcrash
      | none =>
          -- The command ended: a crash after more steps than it has.
          have hend : Sound ((RuntimeUpdate.activate P readings releaseId d).crashed
              ((RuntimeUpdate.activate P readings releaseId d).passed.length +
                (recoverySteps d + 7))) :=
            h.activate (by rintro ⟨-, -, -, -, -, hk | hk⟩ <;> omega)
          rw [Outcome.crashed_of_le (Nat.le_add_right _ _),
            ← (map_run d _ Reply.candidate).2] at hend
          exact hend
  | rollback =>
      cases crash with
      | some k =>
          have hcrash := h.rollback (P := P) hcareful
          rwa [← crashed_map d _ Reply.candidate] at hcrash
      | none =>
          have hend : Sound ((RuntimeUpdate.rollback P readings d).crashed
              ((RuntimeUpdate.rollback P readings d).passed.length + (recoverySteps d + 3))) :=
            h.rollback (by rintro ⟨-, hk | hk⟩ <;> omega)
          rw [Outcome.crashed_of_le (Nat.le_add_right _ _),
            ← (map_run d _ Reply.candidate).2] at hend
          exact hend

theorem sound_of_history {events : List Event}
    (h : History (restrict (Step P) (Careful P)) .initial events d) : Sound d := by
  refine h.invariant sound_initial ?_
  rintro s event s' hs ⟨rfl, hcareful⟩
  exact hs.step hcareful

/-- However the recovery after a crash of `activate` goes, the pointers are those before it, or
the candidate and the old active one; they never both name the old active release, and the
active release is not left quarantined. -/
def AtomicActivation (P : Platform) (readings : Readings) (d : Directory) (releaseId : ReleaseId)
    (k : ℕ) : Prop :=
  ∀ d', Interrupted ((activate P readings releaseId d).crashed k) d' →
    ((recovered d').pair = (recovered d).pair ∨
      ∃ candidate, candidateOf (recovered d).registry releaseId = .ok candidate ∧
        (recovered d').pair = (some candidate, (recovered d).active)) ∧
      (∀ old, (recovered d).active = some old → (recovered d').pair ≠ (some old, some old)) ∧
      ∀ pointer record, (recovered d').active = some pointer →
        (recovered d').registry.get? pointer.releaseId = some record →
          record.status ≠ .quarantined

private theorem Settled.not_twice (h : Settled d) : d.pair ≠ (some old, some old) := by
  intro hpair
  obtain ⟨hactive, hlast⟩ := Prod.ext_iff.1 hpair
  exact h.apart hactive hlast rfl

/-- In every run without a crash at risk and without a split rollback, a crashed activation is
atomic exactly when its own crash is not at risk. -/
theorem activation_crash_atomic {events : List Event}
    (h : History (restrict (Step P) (Careful P)) .initial events d) (readings : Readings)
    (releaseId : ReleaseId) (k : ℕ) :
    AtomicActivation P readings d releaseId k ↔ ¬ AtRisk P readings d releaseId k := by
  have hsound := sound_of_history h
  constructor
  · rintro hatomic ⟨candidate, old, hadmitted, hhealthy, hold, hk⟩
    obtain ⟨i, hi, rfl⟩ : ∃ i, (i = 5 ∨ i = 6) ∧ k = recoverySteps d + i := by
      rcases hk with rfl | rfl
      · exact ⟨5, .inl rfl, rfl⟩
      · exact ⟨6, .inr rfl, rfl⟩
    obtain ⟨hactive, hlast⟩ := (activate_forgets hadmitted hhealthy hold hi).recovered_eq
    exact (hatomic _ .start).2.1 old hold (Prod.ext hactive hlast)
  · intro hrisk d' hd'
    rw [recovered_of_interrupted hd']
    have hsettled := (hsound.activate hrisk).settled
    generalize hs : (activate P readings releaseId d).crashed k = s at hsettled ⊢
    refine ⟨?_, ?_, fun pointer record => hsettled.trusted⟩
    · rcases activate_recovers hrisk hs with hleft | ⟨candidate, hcandidate, -, hstop⟩
      · rw [recovered_of_left hleft]
        exact .inl rfl
      · rcases hstop with hunder | rfl | rfl
        · rw [hunder.recovered_eq]
          exact .inl rfl
        · rw [recovered_aborted]
          exact .inl rfl
        · rw [recovered_completed]
          refine .inr ⟨candidate, hcandidate, Prod.ext rfl ?_⟩
          simp only [Directory.pair, completed]
          cases hactive : (recovered d).active with
          | none => exact hsound.settled.first hactive
          | some old => rfl
    · intro old _
      exact hsettled.not_twice

/-! ## An activation that forgets -/

def thirdManifest : Manifest := plainManifest "c" "3" 3

/-- A third release is staged after two were installed. -/
def thirdStaged : List Event :=
  [⟨.stage thirdManifest.releaseId, willing, none⟩,
    ⟨.importRelease (plainImport thirdManifest), willing, none⟩] ++ twoInstalled

/-- A crash after the last-known-good write makes the second release its own last known good
one: the first is forgotten. -/
theorem activation_forgets :
    History (Step plainPlatform) .initial thirdStaged (run plainPlatform .initial thirdStaged) ∧
      (run plainPlatform .initial thirdStaged).pair = (some secondPointer, some firstPointer) ∧
      (recovered ((activate plainPlatform willing thirdManifest.releaseId
        (run plainPlatform .initial thirdStaged)).crashed 5)).pair =
          (some secondPointer, some secondPointer) ∧
      ¬ AtomicActivation plainPlatform willing (run plainPlatform .initial thirdStaged)
        thirdManifest.releaseId 5 := by
  have hpair : (recovered ((activate plainPlatform willing thirdManifest.releaseId
      (run plainPlatform .initial thirdStaged)).crashed 5)).pair =
        (some secondPointer, some secondPointer) := by
    decide
  refine ⟨history_run _ _ _, by decide, hpair, ?_⟩
  intro hatomic
  have hactive : (recovered (run plainPlatform .initial thirdStaged)).active =
      some secondPointer := by
    decide
  exact (hatomic _ .start).2.1 secondPointer hactive hpair

theorem careful_of_whole {event : Event} (h : event.crash = none) : Careful P d event := by
  obtain ⟨call, readings, crash⟩ := event
  cases h
  cases call <;> exact trivial

private theorem careful_thirdStaged :
    History (restrict (Step plainPlatform) (Careful plainPlatform)) .initial thirdStaged
      (run plainPlatform .initial thirdStaged) := by
  refine (history_run plainPlatform .initial thirdStaged).restrict ?_
  have hwhole : (thirdStaged.all fun event => event.crash.isNone) = true := rfl
  intro event hevent s
  exact careful_of_whole (Option.isNone_iff_eq_none.1 (List.all_eq_true.1 hwhole event hevent))

theorem activation_crash_atomic_thirdStaged :
    AtomicActivation plainPlatform willing (run plainPlatform .initial thirdStaged)
        thirdManifest.releaseId 2 ↔
      ¬ AtRisk plainPlatform willing (run plainPlatform .initial thirdStaged)
        thirdManifest.releaseId 2 :=
  activation_crash_atomic careful_thirdStaged willing thirdManifest.releaseId 2

end Cortex.RuntimeUpdate
