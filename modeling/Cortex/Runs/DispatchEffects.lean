import Cortex.Runs.ThreadEffects

/-!
# Effects of the commands about unbound attempts

`pausedSourceWalk_eq_some` says what the walk of an attempt to the paused attempt
it was resumed from finds: an attempt of the same run, paused at a checkpoint.
-/

namespace Cortex.Runs

open Control Time Transaction

variable {closes unarchived unclaimed : Prop} {s s' : Ledger} {readings : Readings}
  {value : Response}

/-! ## The walk to a paused attempt -/

/-- The walk stays in the run and ends at an attempt that is paused at a checkpoint. -/
private theorem pausedSourceWalk_eq_some {attempts : Table Attempt} {runId fuel : ℕ} {visited : List ℕ}
    {start : Option ℕ} {source : Attempt} (hlineage : Lineage attempts)
    (hstart : ∀ id, start = some id → ∃ b ∈ attempts, b.id = id ∧ b.runId = runId)
    (h : Ledger.pausedSourceWalk attempts fuel visited start = .ok (some source)) :
    source ∈ attempts ∧ source.runId = runId ∧ source.state = .paused ∧
      isSet source.checkpointUri := by
  induction fuel generalizing visited start with
  | zero => cases start <;> simp [Ledger.pausedSourceWalk] at h
  | succ fuel ih =>
      cases start with
      | none => simp [Ledger.pausedSourceWalk] at h
      | some id =>
          simp only [Ledger.pausedSourceWalk, bind_eq_ok, require_eq_ok, orRaise_eq_ok,
            Table.get?_eq_some] at h
          obtain ⟨-, -, b, ⟨hb, hid⟩, h⟩ := h
          obtain ⟨b', hb', hid', hrun⟩ := hstart id rfl
          obtain rfl : b = b' := Table.eq_of_key hb hb' (hid.trans hid'.symm)
          split at h
          · rename_i hpaused
            simp only [pure_eq_ok, Option.some.injEq] at h
            subst h
            exact ⟨hb, hrun, hpaused⟩
          · refine ih (fun source hsource => ?_) h
            obtain ⟨c, hc, hcid, hcrun⟩ := hlineage b hb source hsource
            exact ⟨c, hc, hcid, hcrun.trans hrun⟩

/-- A step more changes nothing once there is a step for every attempt not yet visited. -/
theorem pausedSourceWalk_succ {attempts : Table Attempt} {fuel : ℕ} {visited : List ℕ}
    {start : Option ℕ} (hnodup : visited.Nodup)
    (hvisited : ∀ id ∈ visited, id ∈ attempts.rows.map Keyed.key)
    (hfuel : attempts.rows.length < fuel + visited.length) :
    Ledger.pausedSourceWalk attempts (fuel + 1) visited start =
      Ledger.pausedSourceWalk attempts fuel visited start := by
  induction fuel generalizing visited start with
  | zero =>
      -- All attempts have been visited, and one more: there is no such list.
      have hle := (hnodup.subperm hvisited).length_le
      rw [List.length_map] at hle
      omega
  | succ fuel ih =>
      cases start with
      | none => rfl
      | some id =>
          rw [Ledger.pausedSourceWalk, Ledger.pausedSourceWalk]
          by_cases hmem : id ∈ visited
          · simp [require, hmem]
          · cases hget : attempts.get? id with
            | none => simp [orRaise]
            | some b =>
                obtain ⟨hb, hid⟩ := Table.get?_eq_some.1 hget
                have hnodup' : (id :: visited).Nodup := List.nodup_cons.2 ⟨hmem, hnodup⟩
                have hvisited' : ∀ k ∈ id :: visited, k ∈ attempts.rows.map Keyed.key := by
                  intro k hk
                  rcases List.mem_cons.1 hk with rfl | hk
                  · exact List.mem_map.2 ⟨b, hb, hid⟩
                  · exact hvisited k hk
                have hfuel' : attempts.rows.length < fuel + (id :: visited).length := by
                  rw [List.length_cons]
                  omega
                simp only [require, hmem, not_false_eq_true, if_true, orRaise, ok_bind,
                  ih hnodup' hvisited' hfuel']

/-- The paused source of an attempt of a run. -/
private theorem pausedSourceAttempt_eq_some {attempt source : Attempt} (hlineage : Lineage s.attempts)
    (hattempt : attempt ∈ s.attempts) (h : s.pausedSourceAttempt attempt = .ok (some source)) :
    source ∈ s.attempts ∧ source.runId = attempt.runId ∧ source.state = .paused ∧
      isSet source.checkpointUri :=
  pausedSourceWalk_eq_some hlineage
    (fun id hid => hlineage attempt hattempt id hid) h

theorem AttemptsKept.lineage {subject : ℕ} (h : AttemptsKept subject s s')
    (hlineage : Lineage s.attempts) : Lineage s'.attempts := by
  intro a' ha' source hsource
  obtain ⟨a, ha, -, hkept⟩ := h.source ha'
  obtain ⟨b, hb, hid, hrun⟩ := hlineage a ha source (hkept.sourceAttemptId ▸ hsource)
  obtain ⟨b', hb', hid', hkept'⟩ := h.kept b hb
  exact ⟨b', hb', hid'.trans hid, by rw [hkept'.runId, hrun, hkept.runId]⟩

/-- The pin that is released belongs to an attempt of the same run. -/
private theorem workFrame_insertPausedSourceReleases {newId subject : ℕ} {own : ℕ → Prop}
    {attempt : Attempt} {now : Stamp} (hlineage : Lineage s.attempts)
    (hsource : ∀ id, attempt.sourceAttemptId = some id → s.HasAttempt subject id)
    (hown : ∀ id, s.HasAttempt subject id → own id)
    (h : s.insertPausedSourceReleases newId subject attempt now = .ok s') :
    ∃ releases, s' = { s with releases } ∧ WorkFrame subject own False s s' := by
  simp only [Ledger.insertPausedSourceReleases, bind_eq_ok] at h
  obtain ⟨found, hfound, h⟩ := h
  cases found with
  | none =>
      simp only [pure_eq_ok] at h
      subst h
      exact ⟨s.releases, rfl, .refl⟩
  | some source =>
      obtain ⟨hmem, hrun, -⟩ := pausedSourceWalk_eq_some hlineage hsource hfound
      exact Ledger.workFrame_insertPinRelease (hown _ ⟨source, hmem, rfl, hrun⟩) h

/-! ## Reserving and binding -/

theorem reserveAttemptDispatch_effect {runId attemptId : ℕ} {dispatchOwner : Text}
    {identity : RuntimeIdentity} {expectedRevision leaseSeconds : ℤ} (hs : WellFormed s)
    (h : s.reserveAttemptDispatch readings runId attemptId dispatchOwner identity expectedRevision
      leaseSeconds = .ok (s', value)) : Effect closes unarchived unclaimed s s' := by
  simp only [Ledger.reserveAttemptDispatch, bind_eq_ok, require_eq_ok, orRaise_eq_ok, pure_eq_ok,
    Ledger.run_eq_ok, Prod.mk.injEq] at h
  obtain ⟨run, ⟨hrun, hid⟩, -, -, -, hactive, -, -, -, -, -, -, expires, -, attempts, hattempts,
    -, -, -, -, rfl, -⟩ := h
  refine .touched run.id runs_updateRun_same (.refl .refl) ?_ ?_ (.same (by rfl))
  · apply Table.Grows.updateRow hattempts
    · exact fun a _ _ => .refl a
    · rintro a ha hkey ⟨hunbound, -, hidentity⟩
      refine ⟨rfl, rfl, rfl, rfl, fun i hi => ?_, fun b hb => hb, id, fun hbound hset => ?_, .inl ?_⟩
      · rcases hidentity with hnone | hsame
        · rw [hnone] at hi
          cases hi
        · exact hsame.symm.trans hi
      · have hset := (hbound hset).1
        rw [hunbound] at hset
        cases hset
      · exact hs.runId_of_active hrun ha (hkey.trans hactive.symm)
  · exact .updateRow hattempts (fun _ _ _ => rfl) fun _ _ _ _ => rfl

theorem pinAttemptRuntime_effect {runId attemptId runtimeBindingId : ℕ}
    {runtimeReleaseId stateGenerationId dispatchOwner : Text} {expectedRevision : ℤ}
    (hs : WellFormed s)
    (h : s.pinAttemptRuntime readings runId attemptId runtimeBindingId runtimeReleaseId
      stateGenerationId expectedRevision dispatchOwner = .ok (s', value)) :
    Effect closes unarchived unclaimed s s' := by
  simp only [Ledger.pinAttemptRuntime, bind_eq_ok, require_eq_ok, orRaise_eq_ok, pure_eq_ok,
    Ledger.run_eq_ok, Ledger.attempt_eq_ok, Prod.mk.injEq] at h
  obtain ⟨run, ⟨hrun, hrunId⟩, -, -, -, hactive, attempt, ⟨hattempt, hattemptId⟩, h⟩ := h
  obtain ⟨-, -, -, -, -, -, -, -, attempts, hattempts, m, hreleases, h⟩ := h
  obtain ⟨-, -, -, -, hs', -⟩ := h
  subst hrunId hattemptId hs'
  have hattemptRun := hs.runId_of_active hrun hattempt hactive.symm
  have hkept : AttemptsKept run.id s { s with attempts } := by
    apply Table.Grows.updateRow hattempts
    · exact fun a _ _ => .refl a
    · rintro a ha hkey ⟨hunbound, -⟩
      refine ⟨rfl, rfl, rfl, rfl, fun i hi => hi, fun b hb => ?_, id, fun hbound hset => ?_, .inl ?_⟩
      · rw [hunbound] at hb
        cases hb
      · have hset := (hbound hset).1
        rw [hunbound] at hset
        cases hset
      · exact hs.runId_of_active hrun ha (hkey.trans hactive.symm)
  obtain ⟨releases, rfl, hwork⟩ := workFrame_insertPausedSourceReleases
    (hkept.lineage hs.lineage) (fun id hid => hkept.hasAttempt_iff.2 (by
      obtain ⟨b, hb, hbid, hbrun⟩ := hs.lineage attempt hattempt id hid
      exact ⟨b, hb, hbid, hbrun.trans hattemptRun⟩))
    (fun id => hkept.hasAttempt_iff.1) hreleases
  refine .touched run.id runs_updateRun_same (.refl .refl) hkept ?_
    ((WorkFrame.same (by rfl)).trans (hwork.trans (.same (by rfl))))
  exact .updateRow hattempts (fun _ _ _ => rfl) fun _ _ _ _ => rfl

/-! ## Failing unbound -/

/-- The run of an attempt that fails unbound ends, rather than going back to a paused attempt. -/
def Ledger.UnboundEnds (s : Ledger) (runId attemptId : ℕ) : Prop :=
  ∃ run ∈ s.runs, run.id = runId ∧ ∃ attempt ∈ s.attempts, attempt.id = attemptId ∧
    (run.state = .cancelRequested ∨ s.pausedSourceAttempt attempt = .ok none)

/-- No release is claimed of a paused attempt that takes the place of an attempt failing unbound. -/
def Ledger.PutsBackUnclaimed (s : Ledger) (runId attemptId : ℕ) : Prop :=
  ∀ run ∈ s.runs, run.id = runId → run.state ≠ .cancelRequested →
    ∀ attempt ∈ s.attempts, attempt.id = attemptId →
      ∀ source, s.pausedSourceAttempt attempt = .ok (some source) →
        ∀ release ∈ s.releases, release.attemptId = source.id → release.claim.epoch = 0

private theorem putBackPausedSource_effect {run : Run} {attempt source : Attempt} {now : Stamp}
    (hs : WellFormed s) (hrun : run ∈ s.runs) (hattempt : attempt ∈ s.attempts)
    (hactive : attempt.id = run.activeAttemptId) (hunbound : attempt.runtimeBindingId = none)
    (hlive : ¬run.state.isTerminal) (hsource : s.pausedSourceAttempt attempt = .ok (some source))
    (hunclaimed : unclaimed → ∀ release ∈ s.releases, release.attemptId = source.id →
      release.claim.epoch = 0)
    (h : s.putBackPausedSource readings run attempt source now = .ok s') :
    Effect closes unarchived unclaimed s s' := by
  have hattemptRun := hs.runId_of_active hrun hattempt hactive
  have hown : s.HasAttempt run.id attempt.id := ⟨attempt, hattempt, rfl, hattemptRun⟩
  obtain ⟨hmem, hsourceRun, hpaused, hset⟩ :=
    pausedSourceAttempt_eq_some hs.lineage hattempt hsource
  -- The paused attempt was bound, so it is not the one that fails.
  have hne : source.id ≠ attempt.id := by
    intro hid
    obtain rfl : source = attempt := Table.eq_of_key hmem hattempt hid
    have hbound := (hs.checkpoints source hmem hset).1
    rw [hunbound] at hbound
    cases hbound
  obtain ⟨releases, rfl, hwork⟩ := Ledger.workFrame_releasePin hown h
  have hafter := (Holds.self hrun).mem_updateRun now
    (fun r => { r with state := .paused, activeAttemptId := source.id }) fun _ => rfl
  refine .putBack run _ ⟨hrun, hafter, rfl, runs_updateRun now _ (by intro; rfl) (by intro; rfl), ?_, (WorkFrame.same (by rfl)).trans hwork⟩
    (Ledger.attempts_moved hown (by intro; rfl) (by intro; rfl)) hlive rfl
    ⟨source, hmem, rfl, hsourceRun.trans hattemptRun⟩ ⟨source, ?_, rfl, hpaused, hset⟩ hunclaimed
  · exact .update (by intro; rfl) (fun t _ _ => .refl t) fun _ _ _ => ⟨rfl, rfl⟩
  · exact Table.mem_update_of_neg (by intro; rfl) hmem hne

private theorem endUnboundRun_effect {run : Run} {attempt : Attempt} {target : RunState} {now : Stamp}
    (hs : WellFormed s) (hrun : run ∈ s.runs) (hattempt : attempt ∈ s.attempts)
    (hactive : attempt.id = run.activeAttemptId) (hterminal : target.isTerminal)
    (hcloses : closes → DecisionsAreOfIntents s run.id ∧ ActionsAreOf s run.id attempt.id)
    (h : s.endUnboundRun readings run attempt target now = .ok s') :
    Effect closes unarchived unclaimed s s' := by
  have hattemptRun := hs.runId_of_active hrun hattempt hactive
  have hown : s.HasAttempt run.id attempt.id := ⟨attempt, hattempt, rfl, hattemptRun⟩
  simp only [Ledger.endUnboundRun] at h
  generalize hm : Ledger.detachRun _ run target now = m at h
  have hkept : AttemptsKept run.id s m := by
    rw [← hm]
    exact Ledger.attempts_moved hown (by intro; rfl) (by intro; rfl)
  have hframe : WorkFrame run.id (s.HasAttempt run.id) False s m := by
    rw [← hm]
    exact (Ledger.workFrame_failPendingRuntimeActions.trans
      Ledger.workFrame_closeSourceWorkForRun).trans (.same (by rfl))
  obtain ⟨releases, rfl, hwork⟩ :
      ∃ releases, s' = { m with releases } ∧ WorkFrame run.id (s.HasAttempt run.id) False m s' := by
    simp only [bind_eq_ok] at h
    obtain ⟨m', hrelease, h⟩ := h
    obtain ⟨releases, rfl, hwork⟩ := Ledger.workFrame_releasePin hown hrelease
    split at h
    · have hkept : AttemptsKept run.id s { m with releases } := hkept
      obtain ⟨releases', rfl, hwork'⟩ := workFrame_insertPausedSourceReleases
        (hkept.lineage hs.lineage) (fun id hid => hkept.hasAttempt_iff.2 (by
          obtain ⟨b, hb, hbid, hbrun⟩ := hs.lineage attempt hattempt id hid
          exact ⟨b, hb, hbid, hbrun.trans hattemptRun⟩))
        (fun id => hkept.hasAttempt_iff.1) h
      exact ⟨releases', rfl, hwork.trans hwork'⟩
    · simp only [pure_eq_ok] at h
      subst h
      exact ⟨releases, rfl, hwork⟩
  have hafter := (Holds.self hrun).mem_updateRun now
    (fun r => { r with state := target, activeAttemptId := attempt.id }) fun _ => rfl
  subst hm
  refine .finished run _ ⟨hrun, hafter, rfl, runs_updateRun now _ (by intro; rfl) (by intro; rfl), threads_detachRun,
    hframe.trans hwork⟩ hkept hactive hterminal
    (detachRun_threads (hs.thread_of_active hrun)) fun hc => ?_
  exact ⟨decisions_closed (hcloses hc).1, intents_closed, actions_failed (hcloses hc).2⟩

theorem failUnboundRun_effect {runId attemptId : ℕ} {expectedRevision : ℤ}
    {dispatchOwner : Option Text} (hs : WellFormed s)
    (hcloses : closes → s.UnboundEnds runId attemptId →
      DecisionsAreOfIntents s runId ∧ ActionsAreOf s runId attemptId)
    (hunclaimed : unclaimed → s.PutsBackUnclaimed runId attemptId)
    (h : s.failUnboundRun readings runId attemptId expectedRevision dispatchOwner
      = .ok (s', value)) : Effect closes unarchived unclaimed s s' := by
  simp only [Ledger.failUnboundRun, bind_eq_ok, require_eq_ok, Ledger.run_eq_ok,
    Ledger.attempt_eq_ok] at h
  obtain ⟨run, ⟨hrun, rfl⟩, -, -, -, hactive, attempt, ⟨hattempt, rfl⟩, -, hunbound, -, -, -,
    hstate, source, hsource, h⟩ := h
  have hlive : ¬run.state.isTerminal := by
    intro hterminal
    simp only [RunState.isTerminal, List.mem_cons, List.not_mem_nil, or_false] at hterminal hstate
    rcases hterminal with h | h | h <;> simp [h] at hstate
  -- A source that is paused takes the place of the attempt, unless the run was asked to stop.
  have hends : ∀ target, target.isTerminal → run.state = .cancelRequested ∨ source = none →
      ∀ m, s.endUnboundRun readings run attempt target (readings.stamp 0) = .ok m →
        Effect closes unarchived unclaimed s m := by
    intro target htarget hwhy m hm
    refine endUnboundRun_effect hs hrun hattempt hactive.symm htarget (fun hc => ?_) hm
    refine hcloses hc ⟨run, hrun, rfl, attempt, hattempt, rfl, hwhy.imp_right ?_⟩
    rintro rfl
    exact hsource
  by_cases hcancel : run.state = .cancelRequested
  · have htarget : Ledger.unboundTarget run source = .canceled := if_pos hcancel
    cases source <;>
    · simp only [htarget, bind_eq_ok, pure_eq_ok, Prod.mk.injEq] at h
      obtain ⟨m, hm, -, -, rfl, -⟩ := h
      exact hends _ (by decide) (.inl hcancel) m hm
  · cases source with
    | none =>
        have htarget : Ledger.unboundTarget run none = .failed := if_neg hcancel
        simp only [htarget, bind_eq_ok, pure_eq_ok, Prod.mk.injEq] at h
        obtain ⟨m, hm, -, -, rfl, -⟩ := h
        exact hends _ (by decide) (.inr rfl) m hm
    | some source =>
        have htarget : Ledger.unboundTarget run (some source) = .paused := if_neg hcancel
        simp only [htarget, bind_eq_ok, pure_eq_ok, Prod.mk.injEq] at h
        obtain ⟨m, hm, -, -, rfl, -⟩ := h
        exact putBackPausedSource_effect hs hrun hattempt hactive.symm hunbound hlive hsource
          (fun hc => hunclaimed hc run hrun rfl hcancel attempt hattempt rfl source hsource) hm

/-! ## Restarting -/

/-- The thread of a run is archived. -/
def Ledger.IsArchived (s : Ledger) (runId : ℕ) : Prop :=
  ∃ run ∈ s.runs, run.id = runId ∧ ∃ thread ∈ s.threads, thread.id = run.threadId ∧
    thread.archivedAt.isSome

theorem restartAttempt_effect {runId : ℕ} {expectedRevision : ℤ}
    {sourceState targetState : RunState} (hlive : ¬targetState.isTerminal)
    (hrunning : targetState ≠ .paused)
    (hopen : sourceState = .paused ∨ (unarchived → ¬s.IsArchived runId))
    (h : s.restartAttempt readings runId expectedRevision sourceState targetState
      = .ok (s', value)) : Effect closes unarchived unclaimed s s' := by
  simp only [Ledger.restartAttempt, bind_eq_ok, require_eq_ok, orRaise_eq_ok, Ledger.run_eq_ok,
    Ledger.thread_eq_ok, Ledger.attempt_eq_ok, pure_eq_ok, Prod.mk.injEq] at h
  obtain ⟨run, ⟨hrun, rfl⟩, -, -, -, hstate, thread, ⟨hthread, hthreadId⟩, -, hidle, previous,
    ⟨hprevious, hactive⟩, -, -, attempts, hattempts, -, -, rfl, -⟩ := h
  have hafter := (Holds.self hrun).mem_updateRun (readings.stamp 0)
    (fun r => { r with state := targetState, activeAttemptId := readings.newId 0 }) fun _ => rfl
  refine .restarted run _ _ thread ⟨hrun, hafter, rfl, runs_updateRun _ _ (by intro; rfl) (by intro; rfl), ?_, ?_⟩ hattempts rfl rfl
    (congrArg some hactive) ?_ hthread hthreadId hidle hlive hrunning ?_
  · refine .update (by intro; rfl) (fun t _ hne => ⟨rfl, ?_⟩) fun t _ heq => ⟨rfl, ?_⟩
    · rw [if_neg (hthreadId ▸ hne)]
    · rw [if_pos (heq.trans hthreadId)]
  · exact Ledger.workFrame_failPendingRuntimeActions.trans (.same (by rfl))
  · rintro ⟨uri, huri, -⟩
    cases huri
  · rcases hopen with hpaused | hunarchived
    · exact .inl (hstate.trans hpaused)
    · refine .inr fun hc => ?_
      cases harchived : thread.archivedAt with
      | none => rfl
      | some _ =>
          exact absurd ⟨run, hrun, rfl, thread, hthread, hthreadId, by rw [harchived]; rfl⟩
            (hunarchived hc)

end Cortex.Runs
