import Cortex.Runs.ActiveRun

/-!
# A live run keeps its pin

The managed runtime of an attempt is pinned before the attempt is bound, and its
pin is released by a worker that holds a claim of its release.  The release of a
paused attempt is queued when the attempt that resumed it is bound, and claimed
while that attempt is active; if the run later goes back to the paused attempt,
its pin is gone.  `pin_kept` is about the histories in which that does not happen.

`Managed` is the store with the pins of the release manager beside it.
-/

namespace Cortex.Runs

open Control Time Transaction

variable {s s' : Ledger} {closes unarchived unclaimed : Prop}

/-! ## Releases of active attempts -/

/-- No release of the active attempt of a live run is claimed. -/
def ReleasesUnclaimed (s : Ledger) : Prop :=
  ∀ r ∈ s.runs, ¬r.state.isTerminal → ∀ release ∈ s.releases,
    release.attemptId = r.activeAttemptId → release.claim.epoch = 0

/-- Every release is pending, or was claimed by whoever settled it. -/
def ReleasesWereClaimed (s : Ledger) : Prop := ∀ release ∈ s.releases, release.WasClaimed

/-- A paused run is paused at its active attempt. -/
def PausedAtCheckpoints (s : Ledger) : Prop :=
  ∀ r ∈ s.runs, r.state = .paused → s.IsPausedAt r.activeAttemptId

/-- What is known of the pins of live runs. -/
structure PinsHeld (s : Ledger) : Prop extends WellFormed s where
  unclaimed : ReleasesUnclaimed s
  claimed : ReleasesWereClaimed s
  paused : PausedAtCheckpoints s

/-- An attempt belongs to one run. -/
theorem Ledger.HasAttempt.unique {runId runId' attemptId : ℕ} (h : s.HasAttempt runId attemptId)
    (h' : s.HasAttempt runId' attemptId) : runId = runId' := by
  obtain ⟨a, ha, hid, hrun⟩ := h
  obtain ⟨a', ha', hid', hrun'⟩ := h'
  obtain rfl : a = a' := Table.eq_of_key ha ha' (hid.trans hid'.symm)
  exact hrun.symm.trans hrun'

/-- Releases are added unclaimed, and a command that claims none keeps them unclaimed. -/
private theorem epoch_zero {subject attemptId : ℕ} {own : ℕ → Prop} {adds : Prop}
    (hwork : WorkFrame subject own adds s s')
    (hold : ∀ release ∈ s.releases, release.attemptId = attemptId → release.claim.epoch = 0) :
    ∀ release ∈ s'.releases, release.attemptId = attemptId → release.claim.epoch = 0 := by
  intro release' hrelease' hid
  rcases hwork.releases.origin release' hrelease' with ⟨release, hrelease, -, hkept⟩ | hnew
  · rw [hkept.epoch]
    exact hold release hrelease (hkept.attemptId.symm.trans hid)
  · exact hnew.epoch

theorem ReleasesWereClaimed.kept {subject : ℕ} {own : ℕ → Prop} {adds : Prop}
    (hclaimed : ReleasesWereClaimed s) (hwork : WorkFrame subject own adds s s') :
    ReleasesWereClaimed s' := by
  intro release' hrelease'
  rcases hwork.releases.origin release' hrelease' with ⟨release, hrelease, -, hkept⟩ | hnew
  · exact hkept.claimed (hclaimed release hrelease)
  · exact hnew.claimed

/-- The attempts of other runs stay where they are paused. -/
private theorem isPausedAt_kept {subject runId attemptId : ℕ} {N : Attempt → Prop}
    (h : s.attempts.Grows (AttemptKept subject) N s'.attempts) (hne : runId ≠ subject)
    (hown : s.HasAttempt runId attemptId) (hpaused : s.IsPausedAt attemptId) :
    s'.IsPausedAt attemptId := by
  obtain ⟨a, ha, rfl, hstate, hset⟩ := hpaused
  obtain ⟨a', ha', hkey, hkept⟩ := h.kept a ha
  have harun : a.runId = runId := by
    obtain ⟨b, hb, hbid, hbrun⟩ := hown
    obtain rfl : b = a := Table.eq_of_key hb ha hbid
    exact hbrun
  rcases hkept.others with hsubject | hsame
  · exact absurd (harun.symm.trans hsubject) hne
  · rw [hsame] at ha'
    exact ⟨a, ha', rfl, hstate, hset⟩

/-- An attempt that is new has no release. -/
private theorem no_release_of_new {attempt : Attempt} {attempts : Table Attempt} (hs : WellFormed s)
    (hinsert : s.attempts.insert? attempt = some attempts) :
    ∀ release ∈ s.releases, release.attemptId ≠ attempt.id := by
  intro release hrelease hid
  obtain ⟨a, ha, haid, -⟩ := hs.releases release hrelease
  exact (Table.rows_insert hinsert).2 a ha (haid.trans hid)

/-- The other runs of a step keep what is known of their pins. -/
theorem PinsHeld.of_step {adds : Prop} {T : Thread → Thread → Prop} {N : Attempt → Prop}
    {r r' : Run} (hs : PinsHeld s) (hs' : WellFormed s') (step : RunStep adds T s s' r r')
    (attempts : s.attempts.Grows (AttemptKept r.id) N s'.attempts)
    (hunclaimed : ¬r'.state.isTerminal → ∀ release ∈ s.releases,
      release.attemptId = r'.activeAttemptId → release.claim.epoch = 0)
    (hpaused : r'.state = .paused → s'.IsPausedAt r'.activeAttemptId) : PinsHeld s' where
  toWellFormed := hs'
  claimed := hs.claimed.kept step.work
  unclaimed := by
    intro q' hq' hlive
    rcases step.origin hq' with rfl | ⟨-, q, hq, -, -, hstate, hactive⟩
    · exact epoch_zero step.work (hunclaimed hlive)
    · rw [hactive]
      exact epoch_zero step.work (hs.unclaimed q hq (hstate ▸ hlive))
  paused := by
    intro q' hq' hstate'
    rcases step.origin hq' with rfl | ⟨hne, q, hq, hid, -, hstate, hactive⟩
    · exact hpaused hstate'
    · rw [hactive]
      exact isPausedAt_kept attempts (hid ▸ hne) (hs.activeAttempt q hq)
        (hs.paused q hq (hstate.symm.trans hstate'))

theorem PinsHeld.kept (hs : PinsHeld s) (h : Effect closes unarchived unclaimed s s')
    (hunclaimed : unclaimed) : PinsHeld s' := by
  have hs' := h.wellFormed hs.toWellFormed
  cases h with
  | touched subject runs threads attempts states work =>
      refine ⟨hs', fun r' hr' hlive => ?_, hs.claimed.kept work, fun r' hr' hpaused => ?_⟩
      · obtain ⟨r, hr, -, hsame⟩ := runs.source hr'
        rw [hsame.activeAttemptId]
        exact epoch_zero work (hs.unclaimed r hr (hsame.state ▸ hlive))
      · obtain ⟨r, hr, -, hsame⟩ := runs.source hr'
        rw [hsame.activeAttemptId]
        obtain ⟨a, ha, hid, hstate, hset⟩ := hs.paused r hr (hsame.state.symm.trans hpaused)
        obtain ⟨a', ha', hkey, hkept⟩ := attempts.kept a ha
        refine ⟨a', ha', Eq.trans hkey hid, ?_, hkept.checkpoint hset⟩
        exact (states.rel ha ha' hkey).trans hstate
  | archived threadId threads same =>
      rw [same] at hs' ⊢
      exact ⟨hs', hs.unclaimed, hs.claimed, hs.paused⟩
  | created run attempt thread runs attempts threads hthread id hopen idle state own active first
      fresh work =>
      have hgrows := attempts_inserted run.id attempts
      refine ⟨hs', fun q hq hlive => ?_, hs.claimed.kept work, fun q hq hpaused => ?_⟩
      · rcases (Table.mem_insert runs).1 hq with hq | rfl
        · exact epoch_zero work (hs.unclaimed q hq hlive)
        · refine epoch_zero work fun release hrelease hid => ?_
          exact absurd (hid.trans active)
            (no_release_of_new hs.toWellFormed attempts release hrelease)
      · rcases (Table.mem_insert runs).1 hq with hq' | rfl
        · refine isPausedAt_kept hgrows ?_ (hs.activeAttempt q hq')
            (hs.paused q hq' hpaused)
          exact (Table.rows_insert runs).2 q hq'
        · rw [state] at hpaused
          cases hpaused
  | moved r r' step attempts active live live' paused =>
      refine hs.of_step hs' step attempts (fun _ => ?_) paused
      rw [active]
      exact hs.unclaimed r step.before live
  | finished r r' step attempts active terminal =>
      refine hs.of_step hs' step attempts (fun hlive => absurd terminal hlive) fun hpaused => ?_
      rw [hpaused] at terminal
      exact absurd terminal (by decide)
  | restarted r r' attempt thread step attempts own active source fresh hthread threadId idle live'
      running =>
      refine hs.of_step hs' step (attempts_inserted r.id attempts) (fun _ release hrelease hid => ?_)
        fun hpaused => absurd hpaused running
      exact absurd (hid.trans active) (no_release_of_new hs.toWellFormed attempts release hrelease)
  | putBack r r' step attempts live state own paused hfree =>
      exact hs.of_step hs' step attempts (fun _ => hfree hunclaimed) fun _ => paused
  | claimedRelease releaseId releases same grows free =>
      rw [same] at hs' ⊢
      refine ⟨hs', fun r hr hlive release' hrelease' hid => ?_, fun release' hrelease' => ?_,
        hs.paused⟩
      · obtain ⟨release, hrelease, -, hrun, hattempt, -, -, hwhich⟩ := grows.source hrelease'
        have hid : release.attemptId = r.activeAttemptId := hattempt.symm.trans hid
        rcases hwhich with hsame | hclaimed
        · rw [hsame]
          exact hs.unclaimed r hr hlive release hrelease hid
        · -- The release that is claimed is not of an attempt that is active and alive.
          have hown : r.id = release.runId := by
            have hactive := hs.activeAttempt r hr
            rw [← hid] at hactive
            exact hactive.unique (hs.releases release hrelease)
          rcases free release hrelease hclaimed r hr hown with hterminal | hne
          · exact absurd hterminal hlive
          · exact absurd hid.symm hne
      · obtain ⟨release, hrelease, -, -, -, -, hkept, -⟩ := grows.source hrelease'
        exact hkept (hs.claimed release hrelease)

/-! ## The pins of the release manager -/

/-- The answers that name a pin, in `_stored_pin`. -/
def storedPin (attempt : Attempt) : Except StoreError RuntimeIdentity := do
  let identity ← orRaise attempt.identity (.runtimeError "legacy_runtime_identity")
  require identity.isComplete (.runtimeError "runtime_pin_identity_incomplete")
  pure identity

/-- `_checkpoint_source_pin`: the pin of the paused attempt that an attempt was resumed from.  The
walk is that of `_paused_source_attempt`, with an error of its own for a cycle. -/
def checkpointSourcePin (s : Ledger) (pins : ℕ → Option RuntimeIdentity) (attempt : Attempt) :
    Except StoreError (Option RuntimeIdentity) :=
  if ¬isSet attempt.sourceCheckpointUri then pure none
  else
    match s.pausedSourceAttempt attempt with
    | .error (.invalidTransition _ _) => throw (.runtimeError "attempt_lineage_cycle")
    | .error error => throw error
    | .ok none => throw (.runtimeError "checkpoint_source_attempt_missing")
    | .ok (some source) => do
        let expected ← storedPin source
        let managed ← orRaise (pins source.id) (.runtimeError "checkpoint_source_pin_missing")
        require (managed = expected) (.runtimeError "checkpoint_source_pin_mismatch")
        pure (some expected)

/-- The store and the pins of the release manager, with the answers that `pin_attempt` gave. -/
structure Managed (Digest : Type) where
  store : Store Digest
  pins : ℕ → Option RuntimeIdentity
  answered : List (ℕ × RuntimeIdentity)

def emptyManaged {Digest : Type} : Managed Digest where
  store := emptyStore
  pins _ := none
  answered := []

inductive ManagedEvent
  | command (event : Event)
  | pinAttempt (attemptId : ℕ) (identity : RuntimeIdentity)
  | finishAttempt (releaseId : ℕ)

section Managed

variable {Digest : Type} [DecidableEq Digest] (platform : Platform Digest)

/-- `RunOrchestrator.dispatch` binds an attempt only after `pin_attempt` has answered with the
identity that was reserved, and nobody else binds one. -/
def BindsPinned (m : Managed Digest) (s' : Ledger) : Prop :=
  ∀ a' ∈ s'.attempts, a'.runtimeBindingId.isSome →
    (∃ a ∈ m.store.tables.ledger.attempts, a.id = a'.id ∧ a.runtimeBindingId.isSome) ∨
      ∃ identity ∈ a'.identity, (a'.id, identity) ∈ m.answered

/-- The steps of the store and the release manager: a command commits, `pin_attempt` pins an
attempt that is not pinned otherwise, and `finish_attempt` unpins the attempt of a release that
is claimed, by its identity. -/
def ManagedStep (m : Managed Digest) : ManagedEvent → Managed Digest → Prop
  | .command event, m' =>
      Step platform m.store event m'.store ∧ BindsPinned m m'.store.tables.ledger ∧
        m'.pins = m.pins ∧ m'.answered = m.answered
  | .pinAttempt attemptId identity, m' =>
      (m.pins attemptId = none ∨ m.pins attemptId = some identity) ∧
        m' = { m with
          pins := Function.update m.pins attemptId (some identity)
          answered := (attemptId, identity) :: m.answered }
  | .finishAttempt releaseId, m' =>
      ∃ release ∈ m.store.tables.ledger.releases, release.id = releaseId ∧
        release.state = .pending ∧ 1 ≤ release.claim.epoch ∧
        m.pins release.attemptId = some release.identity ∧
        m' = { m with pins := Function.update m.pins release.attemptId none }

variable {platform}

/-- A committed `fail_unbound_run` puts no attempt back whose pin was claimed for its release. -/
def PutsBackUnclaimed (m : Managed Digest) (event : ManagedEvent) : Prop :=
  ∀ committed, event = .command committed → committed.2.replayed = false →
    committed.1.1.PutsBackUnclaimed m.store.tables.ledger

/-- A pin that was answered is held until a release of its attempt is claimed, and every bound
attempt was answered its pin. -/
structure PinsAnswered (m : Managed Digest) : Prop where
  held : ∀ attemptId identity, (attemptId, identity) ∈ m.answered →
    m.pins attemptId = some identity ∨
      ∃ release ∈ m.store.tables.ledger.releases,
        release.attemptId = attemptId ∧ 1 ≤ release.claim.epoch
  bound : ∀ a ∈ m.store.tables.ledger.attempts, a.runtimeBindingId.isSome →
    ∃ identity ∈ a.identity, (a.id, identity) ∈ m.answered

/-- Attempts stay, and releases stay claimed. -/
theorem Effect.keeps (h : Effect closes unarchived unclaimed s s') :
    (∃ subject N, s.attempts.Grows (AttemptKept subject) N s'.attempts) ∧
      ∃ N, s.releases.Grows (fun r r' => r'.attemptId = r.attemptId ∧
        r.claim.epoch ≤ r'.claim.epoch) N s'.releases := by
  have hreleases : ∀ {subject own adds}, WorkFrame subject own adds s s' →
      ∃ N, s.releases.Grows (fun r r' => r'.attemptId = r.attemptId ∧
        r.claim.epoch ≤ r'.claim.epoch) N s'.releases := fun hwork =>
    ⟨_, hwork.releases.mono (fun _ _ _ hr => ⟨hr.attemptId, hr.epoch.ge⟩) fun _ hr => hr⟩
  cases h with
  | touched subject runs threads attempts states work => exact ⟨⟨_, _, attempts⟩, hreleases work⟩
  | archived threadId threads same =>
      rw [same]
      exact ⟨⟨0, fun _ => False, .refl .refl⟩, fun _ => False, .refl fun _ => ⟨rfl, le_rfl⟩⟩
  | created run attempt thread runs attempts threads hthread id hopen idle state own active first
      fresh work => exact ⟨⟨_, _, attempts_inserted 0 attempts⟩, hreleases work⟩
  | moved r r' step attempts => exact ⟨⟨_, _, attempts⟩, hreleases step.work⟩
  | finished r r' step attempts => exact ⟨⟨_, _, attempts⟩, hreleases step.work⟩
  | restarted r r' attempt thread step attempts =>
      exact ⟨⟨_, _, attempts_inserted 0 attempts⟩, hreleases step.work⟩
  | putBack r r' step attempts => exact ⟨⟨_, _, attempts⟩, hreleases step.work⟩
  | claimedRelease releaseId releases same grows =>
      rw [same]
      exact ⟨⟨0, fun _ => False, .refl .refl⟩, _,
        grows.mono (fun _ _ _ hr => ⟨hr.2.1, hr.2.2.1⟩) fun _ hr => hr⟩

theorem PinsAnswered.kept {m m' : Managed Digest} {event : ManagedEvent} (hm : PinsAnswered m)
    (hs : WellFormed m.store.tables.ledger) (h : ManagedStep platform m event m') :
    PinsAnswered m' := by
  cases event with
  | command event =>
      obtain ⟨hstep, hbinds, hpins, hanswered⟩ := h
      have hkeeps : (∀ a ∈ m.store.tables.ledger.attempts,
          ∀ a' ∈ m'.store.tables.ledger.attempts, a'.id = a.id → ∀ i, a.identity = some i →
            a'.identity = some i) ∧ ∀ r ∈ m.store.tables.ledger.releases,
          ∃ r' ∈ m'.store.tables.ledger.releases, r'.attemptId = r.attemptId ∧
            r.claim.epoch ≤ r'.claim.epoch := by
        rcases step_effect hs hstep with ⟨-, hsame⟩ | ⟨-, heffect⟩
        · rw [hsame]
          refine ⟨fun a ha a' ha' hid i hi => ?_, fun r hr => ⟨r, hr, rfl, le_rfl⟩⟩
          rwa [Table.eq_of_key ha' ha hid]
        · obtain ⟨⟨_, _, hattempts⟩, _, hreleases⟩ := heffect.keeps
          refine ⟨fun a ha a' ha' hid i hi => (hattempts.rel ha ha' hid).identity i hi, ?_⟩
          intro r hr
          obtain ⟨r', hr', -, hkept⟩ := hreleases.kept r hr
          exact ⟨r', hr', hkept⟩
      constructor
      · intro attemptId identity hmem
        rw [hanswered] at hmem
        rw [hpins]
        rcases hm.held attemptId identity hmem with hpin | ⟨r, hr, hid, hepoch⟩
        · exact .inl hpin
        · obtain ⟨r', hr', hid', hle⟩ := hkeeps.2 r hr
          exact .inr ⟨r', hr', hid'.trans hid, hepoch.trans hle⟩
      · intro a' ha' hbound
        rw [hanswered]
        rcases hbinds a' ha' hbound with ⟨a, ha, hid, hbound⟩ | hanswer
        · obtain ⟨identity, hidentity, hmem⟩ := hm.bound a ha hbound
          rw [hid] at hmem
          exact ⟨identity, hkeeps.1 a ha a' ha' hid.symm identity hidentity, hmem⟩
        · exact hanswer
  | pinAttempt attemptId identity =>
      obtain ⟨hfree, rfl⟩ := h
      constructor
      · intro a i hmem
        simp only [List.mem_cons, Prod.mk.injEq] at hmem
        dsimp only
        by_cases ha : a = attemptId
        · subst ha
          rw [Function.update_self]
          rcases hmem with ⟨-, rfl⟩ | hmem
          · exact .inl rfl
          · rcases hm.held a i hmem with hpin | hreleased
            · rcases hfree with hnone | hsome
              · rw [hnone] at hpin
                cases hpin
              · exact .inl (hsome.symm.trans hpin)
            · exact .inr hreleased
        · rw [Function.update_of_ne ha]
          rcases hmem with ⟨heq, -⟩ | hmem
          · exact absurd heq ha
          · exact hm.held a i hmem
      · intro a ha hbound
        obtain ⟨i, hi, hmem⟩ := hm.bound a ha hbound
        exact ⟨i, hi, .tail _ hmem⟩
  | finishAttempt releaseId =>
      obtain ⟨release, hrelease, -, -, hepoch, -, rfl⟩ := h
      refine ⟨fun a i hmem => ?_, hm.bound⟩
      dsimp only
      by_cases ha : a = release.attemptId
      · exact .inr ⟨release, hrelease, ha.symm, hepoch⟩
      · rw [Function.update_of_ne ha]
        exact hm.held a i hmem

/-! ## A paused run is resumed with its pin -/

/-- A release that nobody has claimed is settled under no claim, and the release of the active
attempt of a live run is not claimed. -/
private theorem release_refused {r : Run} {release : PinRelease} {readings : Readings} (hs : PinsHeld s)
    (hr : r ∈ s.runs) (hlive : ¬r.state.isTerminal) (hrelease : release ∈ s.releases)
    (hid : release.attemptId = r.activeAttemptId) :
    release.state = .pending ∧ release.claim.epoch = 0 ∧
      (∀ workerId leaseSeconds result,
        s.claimPinRelease readings release.id workerId leaseSeconds ≠ .ok result) ∧
      ∀ fence expectedRevision target category result, 1 ≤ fence.claimEpoch →
        s.settlePinRelease readings release.id fence expectedRevision target category
          ≠ .ok result := by
  have hepoch := hs.unclaimed r hr hlive release hrelease hid
  refine ⟨?_, hepoch, fun workerId leaseSeconds result h => ?_,
    fun fence expectedRevision target category result hfence h => ?_⟩
  · rcases hs.claimed release hrelease with hpending | hclaimed
    · exact hpending
    · omega
  · simp only [Ledger.claimPinRelease, bind_eq_ok, require_eq_ok, Ledger.run_eq_ok,
      Ledger.pinRelease_eq_ok] at h
    obtain ⟨release', ⟨hrelease', hid'⟩, -, -, run, ⟨hrun, hrunId⟩, _, -, -, hfree, -⟩ := h
    obtain rfl : release' = release := Table.eq_of_key hrelease' hrelease hid'
    have hown : r.id = release'.runId := by
      have hactive := hs.activeAttempt r hr
      rw [← hid] at hactive
      exact hactive.unique (hs.releases release' hrelease)
    obtain rfl : run = r := Table.eq_of_key hrun hr (hrunId.trans hown.symm)
    rcases hfree with hterminal | ⟨hne, -⟩
    · exact hlive hterminal
    · exact hne hid.symm
  · simp only [Ledger.settlePinRelease, bind_eq_ok, require_eq_ok, Ledger.pinRelease_eq_ok] at h
    obtain ⟨release', ⟨hrelease', hid'⟩, -, ⟨-, hcurrent⟩, -⟩ := h
    obtain rfl : release' = release := Table.eq_of_key hrelease' hrelease hid'
    have heq := hcurrent.2.1
    omega

omit [DecidableEq Digest] in
/-- A paused run can be resumed, and its new attempt finds the pin of the attempt it was at. -/
private theorem resumes_with_pin {m : Managed Digest} {r : Run} {readings : Readings}
    (hs : PinsHeld m.store.tables.ledger) (hm : PinsAnswered m)
    (hr : r ∈ m.store.tables.ledger.runs) (hpaused : r.state = .paused)
    (hfresh : ∀ a ∈ m.store.tables.ledger.attempts, a.id ≠ readings.newId 0) :
    ∃ s' value, m.store.tables.ledger.restartAttempt readings r.id r.revision .paused .resuming
        = .ok (s', value) ∧
      (∃ r' ∈ s'.runs, r'.id = r.id ∧ r'.activeAttemptId = readings.newId 0) ∧
      ∃ attempt ∈ s'.attempts, attempt.id = readings.newId 0 ∧
        ∃ identity, checkpointSourcePin s' m.pins attempt = .ok (some identity) := by
  have hlive : ¬r.state.isTerminal := by
    rw [hpaused]
    decide
  obtain ⟨thread, hthread, hthreadId, hactive⟩ := hs.attached r hr hlive
  obtain ⟨source, hsource, hsourceId, hstate, hset⟩ := hs.paused r hr hpaused
  -- The paused attempt is bound to a complete runtime, and holds its pin.
  obtain ⟨hbound, identity, hidentity, hcomplete⟩ := hs.checkpoints source hsource hset
  obtain ⟨answered, hanswered, hmem⟩ := hm.bound source hsource hbound
  obtain rfl : identity = answered := Option.some.inj (hidentity.symm.trans hanswered)
  have hpin : m.pins source.id = some identity := by
    rcases hm.held _ _ hmem with hpin | ⟨release, hrelease, hid, hepoch⟩
    · exact hpin
    · have hzero := hs.unclaimed r hr hlive release hrelease (hid.trans hsourceId)
      omega
  obtain ⟨⟨s', value⟩, hok⟩ : ∃ result, m.store.tables.ledger.restartAttempt readings r.id
      r.revision .paused .resuming = .ok result := by
    simp only [Ledger.restartAttempt, bind_eq_ok, require_eq_ok, orRaise_eq_ok, pure_eq_ok,
      Ledger.run_eq_ok, Ledger.thread_eq_ok, Ledger.attempt_eq_ok]
    have hafter := (Holds.self hr).mem_updateRun (readings.stamp 0)
      (fun r => { r with state := .resuming, activeAttemptId := readings.newId 0 }) fun _ => rfl
    apply Exists.intro
    refine ⟨r, ⟨hr, rfl⟩, (), expectRevision_eq_ok.2 rfl, (), hpaused, thread,
      ⟨hthread, hthreadId⟩, (), .inr hactive, source, ⟨hsource, hsourceId⟩, (),
      fun hno => hno.2 hset, ?_⟩
    exact ⟨_, (Option.some_get (Table.isSome_insert hfresh)).symm, _, ⟨hafter, rfl⟩, rfl⟩
  refine ⟨s', value, hok, ?_⟩
  simp only [Ledger.restartAttempt, bind_eq_ok, require_eq_ok, orRaise_eq_ok, pure_eq_ok,
    Ledger.run_eq_ok, Ledger.thread_eq_ok, Ledger.attempt_eq_ok, Prod.mk.injEq] at hok
  obtain ⟨run, ⟨hrun, hrunId⟩, -, -, -, -, _, -, -, -, previous, ⟨hprevious, hpreviousId⟩, -, -,
    attempts, hattempts, -, -, rfl, -⟩ := hok
  obtain rfl : run = r := Table.eq_of_key hrun hr hrunId
  obtain rfl : previous = source :=
    Table.eq_of_key hprevious hsource (hpreviousId.trans hsourceId.symm)
  have hafter := (Holds.self hrun).mem_updateRun (readings.stamp 0)
    (fun r => { r with state := .resuming, activeAttemptId := readings.newId 0 }) fun _ => rfl
  refine ⟨⟨_, hafter, rfl, rfl⟩, _, (Table.mem_insert hattempts).2 (.inr rfl), rfl, identity, ?_⟩
  have hget : attempts.get? previous.id = some previous :=
    Table.get?_eq_some.2 ⟨(Table.mem_insert hattempts).2 (.inl hsource), rfl⟩
  have hwalk : Ledger.pausedSourceWalk attempts (attempts.rows.length + 1) []
      (some previous.id) = .ok (some previous) := by
    simp only [Ledger.pausedSourceWalk, require, List.not_mem_nil, not_false_eq_true, if_true,
      ok_bind, hget, orRaise, hstate, hset, and_self]
    rfl
  have hstored : storedPin previous = .ok identity := by
    simp only [storedPin, bind_eq_ok, orRaise_eq_ok, require_eq_ok, pure_eq_ok]
    exact ⟨identity, hidentity, (), hcomplete, rfl⟩
  have hset' : isSet (if isSet previous.checkpointUri then previous.checkpointUri
      else previous.sourceCheckpointUri) := by
    rwa [if_pos hset]
  unfold checkpointSourcePin
  rw [if_neg (not_not_intro hset')]
  change (match Ledger.pausedSourceWalk attempts (attempts.rows.length + 1) []
    (some previous.id) with
    | .error (.invalidTransition _ _) => _
    | .error _ => _
    | .ok none => _
    | .ok (some _) => _) = _
  rw [hwalk]
  simp only [hstored, hpin, ok_bind, orRaise, require, if_true]
  rfl

/-- The invariants hold along every history that puts no released attempt back. -/
private theorem pinsHeld_of_history {events : List ManagedEvent} {m : Managed Digest}
    (h : History (restrict (ManagedStep platform) PutsBackUnclaimed) emptyManaged events m) :
    PinsHeld m.store.tables.ledger ∧ PinsAnswered m := by
  refine h.invariant (P := fun m => PinsHeld m.store.tables.ledger ∧ PinsAnswered m) ?_ ?_
  · refine ⟨⟨wellFormed_empty, ?_, ?_, ?_⟩, ?_, ?_⟩
    · exact fun r hr => absurd hr (Table.not_mem_empty r)
    · exact fun r hr => absurd hr (Table.not_mem_empty r)
    · exact fun r hr => absurd hr (Table.not_mem_empty r)
    · exact fun a i hmem => absurd hmem List.not_mem_nil
    · exact fun a ha => absurd ha (Table.not_mem_empty a)
  · rintro m event m' ⟨hs, hm⟩ ⟨hstep, hputs⟩
    refine ⟨?_, hm.kept hs.toWellFormed hstep⟩
    cases event with
    | command event =>
        rcases step_effect hs.toWellFormed hstep.1 with ⟨-, hsame⟩ | ⟨hnew, heffect⟩
        · rw [hsame]
          exact hs
        · exact hs.kept heffect (hputs event rfl hnew)
    | pinAttempt attemptId identity =>
        rw [hstep.2]
        exact hs
    | finishAttempt releaseId =>
        obtain ⟨release, -, -, -, -, -, rfl⟩ := hstep
        exact hs

/-- While no attempt is put back whose pin was claimed for its release, the releases of the active
attempt of a live run are pending, and can be neither claimed nor settled; and a paused run is
resumed to an attempt that finds the pin of its checkpoint. -/
theorem pin_kept {events : List ManagedEvent} {m : Managed Digest}
    (h : History (restrict (ManagedStep platform) PutsBackUnclaimed) emptyManaged events m)
    (readings : Readings) :
    ∀ r ∈ m.store.tables.ledger.runs,
      (¬r.state.isTerminal → ∀ release ∈ m.store.tables.ledger.releases,
        release.attemptId = r.activeAttemptId →
          release.state = .pending ∧ release.claim.epoch = 0 ∧
          (∀ workerId leaseSeconds result,
            m.store.tables.ledger.claimPinRelease readings release.id workerId leaseSeconds
              ≠ .ok result) ∧
          ∀ fence expectedRevision target category result, 1 ≤ fence.claimEpoch →
            m.store.tables.ledger.settlePinRelease readings release.id fence expectedRevision target
              category ≠ .ok result) ∧
      (r.state = .paused →
        (∀ a ∈ m.store.tables.ledger.attempts, a.id ≠ readings.newId 0) →
          ∃ s' value, m.store.tables.ledger.restartAttempt readings r.id r.revision .paused
              .resuming = .ok (s', value) ∧
            (∃ r' ∈ s'.runs, r'.id = r.id ∧ r'.activeAttemptId = readings.newId 0) ∧
            ∃ attempt ∈ s'.attempts, attempt.id = readings.newId 0 ∧
              ∃ identity, checkpointSourcePin s' m.pins attempt = .ok (some identity)) := by
  obtain ⟨hs, hm⟩ := pinsHeld_of_history h
  intro r hr
  exact ⟨fun hlive release hrelease hid => release_refused hs hr hlive hrelease hid,
    fun hpaused hfresh => resumes_with_pin hs hm hr hpaused hfresh⟩

end Managed

/-! ## Runs of the store and the release manager -/

/-- The runtime of the examples. -/
def someRuntime : RuntimeIdentity := ⟨['r'], ['g'], ['s'], ['d'], ['p']⟩

/-- What a worker of the runtime reports of an attempt. -/
def workerTarget (attemptId : ℕ) : TransitionTarget :=
  ⟨some attemptId, some 4, some ['r'], some ['g']⟩

def noTarget : TransitionTarget := ⟨none, none, none, none⟩

def noCause : RuntimeCause := ⟨none, none, none⟩

/-- An attempt that has reserved its dispatch. -/
def reservedRun : List (Call × Readings) :=
  [ (.reserveAttemptDispatch 2 3 ['o'] someRuntime 0 60 (someCaller 'd'), noon 0)
  , (.createRuntimeBinding 1 ['x'] ['s'] 0 ['1'] none (someCaller 'c'), noon 4) ] ++ firstRun

/-- The attempt is bound, runs, leaves a checkpoint and is paused. -/
def pausing : List (Call × Readings) :=
  [ (.transitionRun 2 .paused 6 none [] (workerTarget 3) none noCause (someCaller 'p'), noon 0)
  , (.transitionRun 2 .pauseRequested 5 none [] noTarget none noCause (someCaller 'o'), noon 6)
  , (.commitCheckpoint 2 ⟨3, 4, ['r'], some ['g']⟩ ['u'] 4 none noCause (someCaller 'h'), noon 5)
  , (.transitionRun 2 .running 3 none [] (workerTarget 3) none noCause (someCaller 'g'), noon 0)
  , (.transitionRun 2 .starting 2 none [] (workerTarget 3) none noCause (someCaller 'f'), noon 0)
  , (.pinAttemptRuntime 2 3 4 ['r'] (some ['g']) (some ['o']) 1 (someCaller 'e'), noon 0) ]

/-- The run is resumed; when its second attempt is bound the pin of the first is released.  The
second attempt fails, and the third fails unbound, which puts the first one back. -/
def releasedWhilePaused : List (Call × Readings) :=
  [ (.failUnboundRun 2 30 13 ['c'] none true (someCaller 'x'), noon 40)
  , (.retryRun 2 12 ['r'] (someCaller 'w'), noon 30)
  , (.transitionRun 2 .failed 11 none [] (workerTarget 20) none noCause (someCaller 'v'), noon 25)
  , (.acknowledgePinRelease 21 ⟨['w'], 1⟩ 10 (someCaller 'u'), noon 0)
  , (.claimPinRelease 21 ['w'] 60 (someCaller 't'), noon 0)
  , (.pinAttemptRuntime 2 20 4 ['r'] (some ['g']) (some ['o']) 9 (someCaller 's'), noon 21)
  , (.reserveAttemptDispatch 2 20 ['o'] someRuntime 8 60 (someCaller 'r'), noon 0)
  , (.resumeRun 2 7 (someCaller 'q'), noon 20) ] ++ pausing ++ reservedRun

theorem released_while_paused :
    ∃ events s, History (Step plainPlatform) emptyStore events s ∧
      ∃ r ∈ s.tables.ledger.runs, r.state = .paused ∧
        ∃ release ∈ s.tables.ledger.releases,
          release.attemptId = r.activeAttemptId ∧ release.state = .acked := by
  have htest : ((after releasedWhilePaused).2.tables.ledger.runs.rows.any fun r =>
      decide (r.state = .paused) && (after releasedWhilePaused).2.tables.ledger.releases.rows.any
        fun release => decide (release.attemptId = r.activeAttemptId ∧ release.state = .acked))
      = true := by
    decide +kernel
  simp only [List.any_eq_true, Bool.and_eq_true, decide_eq_true_eq] at htest
  exact ⟨_, _, history_after releasedWhilePaused, htest⟩

/-- `BindsPinned` as a test. -/
def bindsPinned (m : Managed Hashed) (s' : Ledger) : Bool :=
  s'.attempts.rows.all fun a' => a'.runtimeBindingId.isNone ||
    (m.store.tables.ledger.attempts.rows.any fun a =>
      decide (a.id = a'.id) && a.runtimeBindingId.isSome) ||
    m.answered.any fun answer => decide (answer.1 = a'.id ∧ a'.identity = some answer.2)

private theorem bindsPinned_of_test {m : Managed Hashed} {s' : Ledger} (h : bindsPinned m s' = true) :
    BindsPinned m s' := by
  intro a' ha' hbound
  have htest := List.all_eq_true.1 h a' ha'
  simp only [Bool.or_eq_true, Option.isNone_iff_eq_none, List.any_eq_true, Bool.and_eq_true,
    decide_eq_true_eq] at htest
  rcases htest with (hnone | ⟨a, ha, hid, hbound⟩) | ⟨⟨_, identity⟩, hanswer, rfl, hidentity⟩
  · rw [hnone] at hbound
    cases hbound
  · exact .inl ⟨a, ha, hid, hbound⟩
  · exact .inr ⟨identity, hidentity, hanswer⟩

/-- Calls other than `fail_unbound_run` on the store of a release manager, the latest first. -/
def runManaged (m : Managed Hashed) : List (Call × Readings) → Option (Managed Hashed)
  | [] => some m
  | (.failUnboundRun .., _) :: _ => none
  | call :: earlier => do
      let m ← runManaged m earlier
      match exec plainPlatform m.store call with
      | .ok (s', _) => if bindsPinned m s'.tables.ledger then some { m with store := s' } else none
      | .error _ => none

private theorem history_runManaged {events : List ManagedEvent} {m m' : Managed Hashed}
    {calls : List (Call × Readings)}
    (h : History (restrict (ManagedStep plainPlatform) PutsBackUnclaimed) emptyManaged events m)
    (hrun : runManaged m calls = some m') :
    ∃ events, History (restrict (ManagedStep plainPlatform) PutsBackUnclaimed) emptyManaged events
      m' := by
  induction calls generalizing m' with
  | nil =>
      cases hrun
      exact ⟨events, h⟩
  | cons call earlier ih =>
      unfold runManaged at hrun
      split at hrun
      · rename_i heq
        cases heq
      · cases hrun
      · rename_i other heq
        cases heq
        obtain ⟨m₁, hm₁, hrun⟩ := Option.bind_eq_some_iff.1 hrun
        obtain ⟨events₁, h₁⟩ := ih hm₁
        split at hrun
        · rename_i s' result hcall
          split at hrun
          · rename_i hbinds
            cases hrun
            have hstep : restrict (ManagedStep plainPlatform) PutsBackUnclaimed m₁
                (.command (call, result)) { m₁ with store := s' } := by
              refine ⟨⟨hcall, bindsPinned_of_test hbinds, rfl, rfl⟩, ?_⟩
              rintro committed hcommand -
              cases hcommand
              obtain ⟨call, readings⟩ := call
              cases call <;> first | trivial | exact (other _ _ _ _ _ _ _ _ rfl).elim
            exact ⟨_, h₁.cons hstep⟩
          · cases hrun
        · cases hrun

/-- The attempt of `reservedRun` is pinned before it goes on as in `pausing`. -/
def pausedManaged : Option (Managed Hashed) := do
  let m ← runManaged emptyManaged reservedRun
  runManaged
    { m with
      pins := Function.update m.pins 3 (some someRuntime)
      answered := (3, someRuntime) :: m.answered }
    pausing

private theorem history_pausedManaged {m : Managed Hashed} (h : pausedManaged = some m) :
    ∃ events, History (restrict (ManagedStep plainPlatform) PutsBackUnclaimed) emptyManaged events
      m := by
  unfold pausedManaged at h
  obtain ⟨reserved, hreserved, hpausing⟩ := Option.bind_eq_some_iff.1 h
  obtain ⟨events, hhistory⟩ := history_runManaged .nil hreserved
  have hfree : reserved.pins 3 = none := by
    have htest : (runManaged emptyManaged reservedRun).all (fun m => (m.pins 3).isNone) = true := by
      decide +kernel
    rw [hreserved] at htest
    exact Option.isNone_iff_eq_none.1 htest
  have hpin : restrict (ManagedStep plainPlatform) PutsBackUnclaimed reserved
      (.pinAttempt 3 someRuntime) _ := ⟨⟨.inl hfree, rfl⟩, fun committed heq => by cases heq⟩
  exact history_runManaged (hhistory.cons hpin) hpausing

theorem pin_kept_pausedManaged :
    ∃ m, pausedManaged = some m ∧ ∃ r ∈ m.store.tables.ledger.runs, r.state = .paused ∧
      ∃ s' value, m.store.tables.ledger.restartAttempt (noon 20) r.id r.revision .paused .resuming
          = .ok (s', value) ∧
        ∃ attempt ∈ s'.attempts, attempt.id = 20 ∧
          ∃ identity, checkpointSourcePin s' m.pins attempt = .ok (some identity) := by
  have hsome : pausedManaged.isSome = true := by decide +kernel
  obtain ⟨m, hm⟩ := Option.isSome_iff_exists.1 hsome
  have htest : pausedManaged.all (fun m =>
      (m.store.tables.ledger.runs.rows.any fun r => decide (r.state = .paused)) &&
        m.store.tables.ledger.attempts.rows.all fun a => decide (a.id ≠ 20)) = true := by
    decide +kernel
  rw [hm] at htest
  simp only [Option.all_some, Bool.and_eq_true, List.any_eq_true, List.all_eq_true,
    decide_eq_true_eq] at htest
  obtain ⟨⟨r, hr, hpaused⟩, hfresh⟩ := htest
  obtain ⟨events, hhistory⟩ := history_pausedManaged hm
  obtain ⟨s', value, hok, -, hfound⟩ := (pin_kept hhistory (noon 20) r hr).2 hpaused hfresh
  exact ⟨m, hm, r, hr, hpaused, s', value, hok, hfound⟩

end Cortex.Runs
