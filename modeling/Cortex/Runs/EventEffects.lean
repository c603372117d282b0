import Cortex.Runs.DispatchEffects

/-!
# Effects of the commands about runtime events

Each of them first checks the event and may thereby prove that the worker took a
decision, which sets the run going again.  `Prepared` says what is known of the
ledger after the checks: the run is still where the command will look for it.
`Prepared.moved` and `Prepared.finished` turn the rest of a command into an
effect; the commands about decisions and actions use them too.
-/

namespace Cortex.Runs

open Control Time Transaction

variable {closes unarchived unclaimed : Prop} {s m s' : Ledger} {readings : Readings}
  {value : Response} {run run' : Run}

/-- The ledger `m` that the checks of a command leave: it holds the run that was read, as `run'`. -/
structure Prepared (adds : Prop) (s m : Ledger) (run run' : Run) : Prop where
  before : run ∈ s.runs
  threads : m.threads = s.threads
  runs : s.runs.Grows (RunKept run.id) (fun _ => False) m.runs
  attempts : AttemptsKept run.id s m
  work : WorkFrame run.id (s.HasAttempt run.id) adds s m
  holds : ∃ r, Holds m run' r
  id : run'.id = run.id
  threadId : run'.threadId = run.threadId
  activeAttemptId : run'.activeAttemptId = run.activeAttemptId
  state : run'.state = run.state ∨ run.state = .resuming ∧ run'.state = .running

namespace Prepared

variable {adds : Prop}

/-- A command that has only read its run. -/
theorem refl (h : run ∈ s.runs) : Prepared adds s s run run :=
  ⟨h, rfl, .refl .refl, .refl .refl, .refl, ⟨run, .self h⟩, rfl, rfl, rfl, .inl rfl⟩

/-- Work is added or settled, and nothing else happens. -/
theorem andWork {m' : Ledger} (h : Prepared adds s m run run')
    (hwork : WorkFrame run.id (s.HasAttempt run.id) adds m m')
    (hthreads : m'.threads = m.threads) (hruns : m'.runs = m.runs)
    (hattempts : m'.attempts = m.attempts) : Prepared adds s m' run run' where
  before := h.before
  threads := hthreads.trans h.threads
  runs := by
    rw [hruns]
    exact h.runs
  attempts := by
    rw [AttemptsKept, hattempts]
    exact h.attempts
  work := h.work.trans hwork
  holds := by
    obtain ⟨r, hr⟩ := h.holds
    exact ⟨r, { hr with mem := hruns ▸ hr.mem }⟩
  id := h.id
  threadId := h.threadId
  activeAttemptId := h.activeAttemptId
  state := h.state

theorem mono {adds' : Prop} (h : Prepared adds s m run run') (hadds : adds → adds') :
    Prepared adds' s m run run' := { h with work := h.work.mono hadds }

/-- The run has not ended, before the checks or after them. -/
theorem live (h : Prepared adds s m run run') (hlive : ¬run'.state.isTerminal) :
    ¬run.state.isTerminal := by
  rcases h.state with hsame | ⟨hresuming, -⟩
  · rwa [← hsame]
  · rw [hresuming]
    decide

/-- An attempt of the run is still there. -/
theorem hasAttempt (h : Prepared adds s m run run') {attemptId : ℕ}
    (hown : s.HasAttempt run.id attemptId) : m.HasAttempt run.id attemptId :=
  h.attempts.hasAttempt_iff.2 hown

/-- The rest of a command that leaves the run in a live state. -/
theorem moved (h : Prepared True s m run run') {target : RunState} {now : Stamp} (f : Run → Run)
    (hf : ∀ r, (f r).id = r.id) (hthread : ∀ r, (f r).threadId = r.threadId)
    (hactive : ∀ r, (f r).activeAttemptId = r.activeAttemptId)
    (hruns : s'.runs = (m.updateRun run' now f hf).runs)
    (hthreads : m.threads.Grows ThreadKept (fun _ => False) s'.threads)
    (hattempts : AttemptsKept run.id m s')
    (hwork : WorkFrame run.id (s.HasAttempt run.id) True m s')
    (htarget : ∀ r, r.state = run'.state → (f r).state = target)
    (hlive : ¬run'.state.isTerminal) (hlive' : ¬target.isTerminal)
    (hpaused : target = .paused → s'.IsPausedAt run.activeAttemptId) :
    Effect closes unarchived unclaimed s s' := by
  obtain ⟨r, hr⟩ := h.holds
  have hafter := hr.mem_updateRun now f hf
  have hid : (f r).id = run.id := (hf r).trans (hr.id.trans h.id)
  have hactive' : (f r).activeAttemptId = run.activeAttemptId :=
    (hactive r).trans (hr.activeAttemptId.trans h.activeAttemptId)
  refine .moved run { f r with revision := r.revision + 1, updatedAt := now }
    ⟨h.before, hruns ▸ hafter, hid, ?_, h.threads ▸ hthreads, h.work.trans hwork⟩ ?_ hactive'
    (h.live hlive) ?_ ?_
  · rw [hruns]
    have hgrows : m.runs.Grows (RunKept run'.id) (fun _ => False) (m.updateRun run' now f hf).runs :=
      runs_updateRun now f hf hthread
    rw [h.id] at hgrows
    exact h.runs.trans (fun _ _ _ => .trans) (fun _ _ => False.elim) hgrows
  · exact h.attempts.trans (fun _ _ _ => .trans) (fun _ _ => False.elim) hattempts
  · exact (htarget r hr.state).symm ▸ hlive'
  · intro hpausedState
    have hstate : (f r).state = .paused := hpausedState
    rw [htarget r hr.state] at hstate
    have hpaused := hpaused hstate
    rwa [← hactive'] at hpaused

/-- The rest of a command that ends the run. -/
theorem finished (h : Prepared False s m run run') {target : RunState} {now : Stamp} (f : Run → Run)
    (hf : ∀ r, (f r).id = r.id) (hthread : ∀ r, (f r).threadId = r.threadId)
    (hactive : ∀ r, (f r).activeAttemptId = r.activeAttemptId)
    (hruns : s'.runs = (m.updateRun run' now f hf).runs)
    (hthreads : s'.threads = (m.detachRun run' target now).threads)
    (hattempts : AttemptsKept run.id m s')
    (hwork : WorkFrame run.id (s.HasAttempt run.id) False m s')
    (hs : WellFormed s) (htarget : ∀ r, (f r).state = target) (hterminal : target.isTerminal)
    (hclosed : closes → NoWork s' run.id) :
    Effect closes unarchived unclaimed s s' := by
  obtain ⟨r, hr⟩ := h.holds
  have hafter := hr.mem_updateRun now f hf
  have hid : (f r).id = run.id := (hf r).trans (hr.id.trans h.id)
  refine .finished run { f r with revision := r.revision + 1, updatedAt := now }
    ⟨h.before, hruns ▸ hafter, hid, ?_, ?_, h.work.trans hwork⟩ ?_
    ((hactive r).trans (hr.activeAttemptId.trans h.activeAttemptId)) ?_ ?_ hclosed
  · rw [hruns]
    have hgrows : m.runs.Grows (RunKept run'.id) (fun _ => False) (m.updateRun run' now f hf).runs :=
      runs_updateRun now f hf hthread
    rw [h.id] at hgrows
    exact h.runs.trans (fun _ _ _ => .trans) (fun _ _ => False.elim) hgrows
  · rw [hthreads, ← h.threads, ← h.id]
    exact threads_detachRun
  · exact h.attempts.trans (fun _ _ _ => .trans) (fun _ _ => False.elim) hattempts
  · exact (htarget r).symm ▸ hterminal
  · rw [hthreads, ← h.id]
    refine detachRun_threads fun t ht hactive => ?_
    rw [h.threads] at ht
    rw [h.id] at hactive
    rw [h.threadId]
    exact hs.thread_of_active h.before t ht hactive

end Prepared

/-! ## The checks of an event -/

/-- The attempt that a runtime result is for is the active one, and bound to its runtime. -/
theorem validateRuntimeIdentity_eq_ok {attemptId runtimeBindingId : ℕ} {runtimeReleaseId : Text}
    {stateGenerationId : Option Text} {attempt : Attempt}
    (h : s.validateRuntimeIdentity run attemptId runtimeBindingId runtimeReleaseId
      stateGenerationId = .ok attempt) :
    attempt ∈ s.attempts ∧ attempt.id = attemptId ∧ run.activeAttemptId = attemptId ∧
      attempt.runId = run.id ∧ attempt.runtimeBindingId.isSome ∧
      ∃ identity ∈ attempt.identity, identity.isComplete := by
  simp only [Ledger.validateRuntimeIdentity, bind_eq_ok, require_eq_ok, orRaise_eq_ok,
    Ledger.attempt_eq_ok, pure_eq_ok, Option.filter_eq_some_iff, decide_eq_true_eq] at h
  obtain ⟨_, -, -, hactive, a, ⟨ha, hid⟩, identity, ⟨hidentity, hcomplete⟩, -,
    ⟨hrun, hbinding, -⟩, rfl⟩ := h
  exact ⟨ha, hid, hactive, hrun, by rw [hbinding]; rfl, identity, hidentity, hcomplete⟩

/-- An event may set a run that resumes going, and acknowledge the action that it proves. -/
private theorem confirmRuntimeResumeFromEvent_eq_ok {attemptId : ℕ} {adapterEventId : Option Text}
    {cause : RuntimeCause} {now : Stamp} (hrun : run ∈ s.runs)
    (hown : s.HasAttempt run.id attemptId)
    (h : s.confirmRuntimeResumeFromEvent run attemptId adapterEventId cause now = .ok (m, run')) :
    Prepared False s m run run' := by
  unfold Ledger.confirmRuntimeResumeFromEvent at h
  split at h
  · simp only [pure_eq_ok, Prod.mk.injEq] at h
    obtain ⟨rfl, rfl⟩ := h
    exact .refl hrun
  · rename_i hresuming
    have hstate : run.state = .resuming := by
      by_contra hne
      exact hresuming (.inl hne)
    split at h
    · simp only [bind_eq_ok, require_eq_ok, orRaise_eq_ok, pure_eq_ok, Prod.mk.injEq] at h
      obtain ⟨-, -, actions, hactions, rfl, rfl⟩ := h
      refine ⟨hrun, rfl, ?_, Ledger.attempts_moved hown (by intro; rfl) (by intro; rfl), ?_, ?_, rfl, rfl, rfl, .inr ⟨hstate, rfl⟩⟩
      · exact .update (by intro; rfl) (fun r _ _ => .refl r) fun r _ hid => ⟨rfl, rfl, .inl hid⟩
      · exact { WorkFrame.refl with
          actions := .updateRow hactions (fun a _ _ => .refl a) fun a _ _ _ =>
            ⟨rfl, rfl, (by intro hp; cases hp), rfl⟩ }
      · have hmem : { run with state := .running, updatedAt := now } ∈
            s.runs.update (fun r => r.id = run.id) fun r =>
              { r with state := .running, updatedAt := now } := by
          rw [Table.mem_update]
          exact ⟨run, hrun, if_pos rfl⟩
        exact ⟨_, hmem, rfl, rfl, rfl, rfl, rfl⟩
    · simp at h

theorem checkRuntimeResult_eq_ok {target : RuntimeTarget} {adapterEventId : Option Text}
    {cause : RuntimeCause} {attempt : Attempt} (hrun : run ∈ s.runs)
    (h : s.checkRuntimeResult readings run target adapterEventId cause
      = .ok (m, run', attempt)) :
    Prepared False s m run run' ∧ attempt ∈ s.attempts ∧ attempt.id = target.attemptId ∧
      run.activeAttemptId = target.attemptId ∧ attempt.runId = run.id ∧
      attempt.runtimeBindingId.isSome ∧ ∃ identity ∈ attempt.identity, identity.isComplete := by
  simp only [Ledger.checkRuntimeResult, bind_eq_ok, pure_eq_ok, Prod.mk.injEq] at h
  obtain ⟨a, hvalid, ⟨m', r⟩, hconfirm, rfl, rfl, rfl⟩ := h
  have hattempt := validateRuntimeIdentity_eq_ok hvalid
  have hparts := hattempt
  obtain ⟨hmem, hid, _, hrunId, _⟩ := hparts
  exact ⟨confirmRuntimeResumeFromEvent_eq_ok hrun ⟨a, hmem, hid, hrunId⟩ hconfirm, hattempt⟩

/-! ## Transitions -/

/-- The attempt of the run moves with it. -/
theorem Prepared.attempts_moved {adds : Prop} {f : Attempt → Attempt} (hs : WellFormed s)
    (h : Prepared adds s m run run') (hf : MovesAttempt f) (hid : ∀ a, (f a).id = a.id) :
    m.attempts.Grows (AttemptKept run.id) (fun _ => False)
      (m.attempts.update (fun a => a.id = run'.activeAttemptId) f hid) := by
  refine Ledger.attempts_moved (h.hasAttempt ?_) hf hid
  rw [h.activeAttemptId]
  exact hs.activeAttempt run h.before

/-- The pending actions of a run stay those of one attempt while none is added. -/
theorem ActionsAreOf.kept {runId attemptId subject : ℕ} {own : ℕ → Prop}
    (h : ActionsAreOf s runId attemptId) (hwork : WorkFrame subject own False s m) :
    ActionsAreOf m runId attemptId := by
  intro a ha hrun hpending
  rcases hwork.actions.origin a ha with ⟨a₀, ha₀, -, hkept⟩ | hnew
  · rw [show a.attemptId = a₀.attemptId from hkept.attemptId]
    exact h a₀ ha₀ (hkept.runId.symm.trans hrun) (hkept.pending hpending)
  · exact hnew.adds.elim

/-- Cancelling fails what is pending of the attempt, and asks its worker to stop. -/
theorem prepareRunCancellation_eq_ok {newId subject attemptId : ℕ} {own : ℕ → Prop} {now : Stamp}
    (hown : own attemptId)
    (h : s.prepareRunCancellation newId subject attemptId now = .ok s') :
    WorkFrame subject own True s s' ∧ s'.threads = s.threads ∧ s'.runs = s.runs ∧
      s'.attempts = s.attempts := by
  simp only [Ledger.prepareRunCancellation, bind_eq_ok, pure_eq_ok] at h
  obtain ⟨m, hinsert, rfl⟩ := h
  obtain ⟨actions, rfl, hwork⟩ := Ledger.workFrame_insertControlRuntimeAction hown trivial hinsert
  exact ⟨(Ledger.workFrame_failPendingRuntimeActions.trans hwork).trans
    Ledger.workFrame_closeSourceWorkForRun, rfl, rfl, rfl⟩

private theorem endRun_effect {target : RunState} {stage : Option Text} {now : Stamp} (hs : WellFormed s)
    (hp : Prepared False s m run run') (hterminal : target.isTerminal)
    (hcloses : closes → ActionsAreOf s run.id run.activeAttemptId)
    (h : m.endRun readings run' target stage now = .ok s') :
    Effect closes unarchived unclaimed s s' := by
  simp only [Ledger.endRun, bind_eq_ok, Ledger.attempt_eq_ok] at h
  obtain ⟨attempt, ⟨-, hid⟩, h⟩ := h
  have hown : s.HasAttempt run.id attempt.id := by
    rw [hid, hp.activeAttemptId]
    exact hs.activeAttempt run hp.before
  rw [hp.id] at h
  obtain ⟨releases, rfl, hwork⟩ := Ledger.workFrame_releasePin hown h
  refine hp.finished (fun r => { r with state := target, stage := stage <|> r.stage }) (fun _ => rfl) (fun _ => rfl)
    (fun _ => rfl) rfl rfl ?_ ?_ hs (fun _ => rfl) hterminal fun hc => ?_
  · exact hp.attempts_moved hs (by intro; rfl) (by intro; rfl)
  · exact (((Ledger.workFrame_failPendingRuntimeActions.trans
      Ledger.workFrame_closeSourceWorkForRun).trans
        Ledger.workFrame_expireDecisionsWhere).trans (.same (by rfl))).trans hwork
  · have hactions := (hcloses hc).kept hp.work
    rw [← hp.activeAttemptId] at hactions
    exact ⟨decisions_expired, intents_closed, actions_failed hactions⟩

/-- The run and its attempt go to a state in which the run is live. -/
private theorem Prepared.moveRunAndAttempt_effect {target : RunState} {stage : Option Text}
    {finished : Option Stamp} {now : Stamp} (hs : WellFormed s) (hp : Prepared True s m run run')
    (hlive : ¬run'.state.isTerminal) (hlive' : ¬target.isTerminal)
    (hpaused : target = .paused →
      ∀ a ∈ m.attempts, a.id = run.activeAttemptId → isSet a.checkpointUri) :
    Effect closes unarchived unclaimed s (m.moveRunAndAttempt run' target stage finished now) := by
  refine hp.moved (fun r => { r with state := target, stage := stage <|> r.stage }) (fun _ => rfl) (fun _ => rfl)
    (fun _ => rfl) rfl (.refl .refl) (hp.attempts_moved hs (by intro; rfl) (by intro; rfl)) (.same (by rfl)) (fun _ _ => rfl) hlive hlive' ?_
  intro htarget
  obtain ⟨a, ha, hid, -⟩ := hp.hasAttempt (hs.activeAttempt run hp.before)
  have hgrows : m.attempts.Grows (fun a a' => a.id = run'.activeAttemptId →
      a'.state = target ∧ a'.checkpointUri = a.checkpointUri) (fun _ => False)
      (m.moveRunAndAttempt run' target stage finished now).attempts :=
    .update (by intro; rfl) (fun _ _ hne heq => absurd heq hne) fun _ _ _ _ => ⟨rfl, rfl⟩
  obtain ⟨a', ha', hid', hmoved⟩ := hgrows.kept a ha
  obtain ⟨hstate, huri⟩ := hmoved (hid.trans hp.activeAttemptId.symm)
  refine ⟨a', ha', hid'.trans hid, hstate.trans htarget, ?_⟩
  rw [huri]
  exact hpaused htarget a ha hid

private theorem applyTransition_effect {target : RunState} {stage : Option Text} {now : Stamp}
    (hs : WellFormed s) (hp : Prepared False s m run run') (hlive : ¬run'.state.isTerminal)
    (hcloses : closes → target.isTerminal → ActionsAreOf s run.id run.activeAttemptId)
    (hpaused : target = .paused →
      ∀ a ∈ m.attempts, a.id = run.activeAttemptId → isSet a.checkpointUri)
    (h : m.applyTransition readings run' target stage now = .ok s') :
    Effect closes unarchived unclaimed s s' := by
  have hown := hs.activeAttempt run hp.before
  have hp' : Prepared True s m run run' := hp.mono False.elim
  rw [← hp.activeAttemptId] at hown
  unfold Ledger.applyTransition at h
  split at h
  · rename_i hterminal
    exact endRun_effect hs hp hterminal (fun hc => hcloses hc hterminal) h
  · rename_i hlive'
    rw [hp.id] at h
    split at h
    · simp only [bind_eq_ok, pure_eq_ok] at h
      obtain ⟨m', hcancel, rfl⟩ := h
      obtain ⟨hwork, hthreads, hruns, hattempts⟩ := prepareRunCancellation_eq_ok hown hcancel
      exact (hp'.andWork hwork hthreads hruns hattempts).moveRunAndAttempt_effect hs hlive hlive'
        fun h => absurd h (by decide)
    · simp only [bind_eq_ok, pure_eq_ok] at h
      obtain ⟨m', hinsert, rfl⟩ := h
      obtain ⟨actions, rfl, hwork⟩ :=
        Ledger.workFrame_insertControlRuntimeAction hown trivial hinsert
      exact (hp'.andWork hwork (by rfl) (by rfl) (by rfl)).moveRunAndAttempt_effect hs hlive
        hlive' fun h => absurd h (by decide)
    · simp only [pure_eq_ok] at h
      subst h
      exact (hp'.andWork Ledger.workFrame_failPendingRuntimeActions (by rfl) (by rfl)
        (by rfl)).moveRunAndAttempt_effect hs hlive hlive' hpaused
    · simp only [pure_eq_ok] at h
      subst h
      exact hp'.moveRunAndAttempt_effect hs hlive hlive' hpaused

/-- A state from which a transition is allowed is live. -/
private theorem RunState.not_isTerminal_of_mem {state target : RunState}
    (h : target ∈ state.transitions) : ¬state.isTerminal := by
  cases state <;> first | decide | exact absurd h List.not_mem_nil

/-- What is left of a transition after its checks. -/
theorem checkRuntimeTransition_eq_ok {targetState : RunState} {target : TransitionTarget}
    {adapterEventId : Option Text} {cause : RuntimeCause} (hrun : run ∈ s.runs)
    (h : s.checkRuntimeTransition readings run targetState target adapterEventId cause
      = .ok (m, run')) :
    Prepared False s m run run' ∧ target.attemptId = some run.activeAttemptId ∧
      (targetState = .paused →
        ∀ a ∈ m.attempts, a.id = run.activeAttemptId → isSet a.checkpointUri) := by
  simp only [Ledger.checkRuntimeTransition, Ledger.transitionTarget, bind_eq_ok, orRaise_eq_ok,
    require_eq_ok, pure_eq_ok, Prod.mk.injEq] at h
  obtain ⟨t, ⟨attemptId, hattemptId, _, -, _, -, -, -, rfl⟩, ⟨m', r, attempt⟩, hcheck, -, hset,
    rfl, rfl⟩ := h
  obtain ⟨hp, hmem, hid, hactive, -⟩ := checkRuntimeResult_eq_ok hrun hcheck
  refine ⟨hp, hattemptId.trans (congrArg some hactive.symm), fun htarget a ha haid => ?_⟩
  exact (hp.attempts.rel hmem ha (haid.trans (hactive.trans hid.symm))).checkpoint (hset htarget)

theorem transitionRun_effect {actorId : Text} {runId attemptId : ℕ} {targetState : RunState}
    {expectedRevision : ℤ} {stage : Option Text} {target : TransitionTarget}
    {adapterEventId : Option Text} {cause : RuntimeCause} (hs : WellFormed s)
    (hcloses : closes → targetState.isTerminal →
      ∀ run ∈ s.runs, run.id = runId → ActionsAreOf s runId run.activeAttemptId)
    (h : s.transitionRun readings actorId runId targetState expectedRevision stage target
      adapterEventId cause = .ok (s', value, attemptId)) :
    Effect closes unarchived unclaimed s s' := by
  simp only [Ledger.transitionRun, bind_eq_ok, require_eq_ok, Ledger.run_eq_ok] at h
  obtain ⟨run, ⟨hrun, rfl⟩, -, -, -, -, h⟩ := h
  have heffect : ∀ m run', Prepared False s m run run' →
      (targetState = .paused → ∀ a ∈ m.attempts, a.id = run.activeAttemptId →
        isSet a.checkpointUri) →
      targetState ∈ run'.state.transitions →
      ∀ s', m.applyTransition readings run' targetState stage (readings.stamp 1) = .ok s' →
        Effect closes unarchived unclaimed s s' :=
    fun m run' hp hpaused hmem s' happly =>
      applyTransition_effect hs hp (RunState.not_isTerminal_of_mem hmem)
        (fun hc hterminal => hcloses hc hterminal run hrun rfl) hpaused happly
  split at h
  · rename_i hcontrol
    simp only [bind_eq_ok, require_eq_ok, Ledger.run_eq_ok, pure_eq_ok, Prod.mk.injEq] at h
    obtain ⟨_, rfl, -, hmem, m', happly, -, -, rfl, -⟩ := h
    refine heffect s run (.refl hrun) ?_ hmem m' happly
    rintro rfl
    exact absurd hcontrol (by decide)
  · simp only [bind_eq_ok, require_eq_ok, Ledger.run_eq_ok, pure_eq_ok, Prod.mk.injEq] at h
    obtain ⟨⟨m, run'⟩, hcheck, -, hmem, m', happly, -, -, rfl, -⟩ := h
    obtain ⟨hp, -, hpaused⟩ := checkRuntimeTransition_eq_ok hrun hcheck
    exact heffect m run' hp hpaused hmem m' happly

/-! ## Results of a running attempt -/

theorem applyObservation_eq_ok {target : RuntimeTarget} {eventType : ObservationType}
    {payload : ObservationPayload} {now : Stamp}
    (h : s.applyObservation target eventType payload now = .ok s') :
    ∃ bindings, s' = { s with bindings } := by
  unfold Ledger.applyObservation at h
  split at h
  · simp only [Ledger.rebindSession, bind_eq_ok, pure_eq_ok] at h
    obtain ⟨-, -, -, -, -, -, -, -, -, -, -, -, rfl⟩ := h
    exact ⟨_, rfl⟩
  · simp only [pure_eq_ok] at h
    subst h
    exact ⟨s.bindings, rfl⟩

theorem recordRuntimeObservation_effect {runId attemptId : ℕ} {target : RuntimeTarget}
    {eventType : ObservationType} {payload : ObservationPayload} {expectedRevision : ℤ}
    {adapterEventId : Option Text} {cause : RuntimeCause}
    (h : s.recordRuntimeObservation readings runId target eventType payload expectedRevision
      adapterEventId cause = .ok (s', value, attemptId)) :
    Effect closes unarchived unclaimed s s' := by
  simp only [Ledger.recordRuntimeObservation, bind_eq_ok, require_eq_ok, Ledger.run_eq_ok,
    pure_eq_ok, Prod.mk.injEq] at h
  obtain ⟨run, ⟨hrun, rfl⟩, -, -, ⟨m, run', attempt⟩, hcheck, -, hstate, m', hobserve, -, -, rfl,
    -⟩ := h
  obtain ⟨hp, -⟩ := checkRuntimeResult_eq_ok hrun hcheck
  obtain ⟨bindings, rfl⟩ := applyObservation_eq_ok hobserve
  have hlive : ¬run'.state.isTerminal ∧ run'.state ≠ .paused := by
    rcases hstate with hrunning | ⟨-, hstop⟩
    · rw [hrunning]
      decide
    · simp only [List.mem_cons, List.not_mem_nil, or_false] at hstop
      rcases hstop with hstop | hstop <;> rw [hstop] <;> decide
  exact (hp.mono False.elim).moved id (fun _ => rfl) (fun _ => rfl)
    (fun _ => rfl) rfl (.refl .refl) (.refl .refl) (.same (by rfl))
    (fun _ h => h) hlive.1 hlive.1 fun h => absurd h hlive.2

theorem appendRuntimeMessage_effect {runId attemptId : ℕ} {target : RuntimeTarget} {content : Text}
    {expectedRevision : ℤ} {adapterEventId : Option Text} {cause : RuntimeCause}
    (h : s.appendRuntimeMessage readings runId target content expectedRevision adapterEventId cause
      = .ok (s', value, attemptId)) : Effect closes unarchived unclaimed s s' := by
  simp only [Ledger.appendRuntimeMessage, bind_eq_ok, require_eq_ok, Ledger.run_eq_ok,
    Ledger.thread_eq_ok, pure_eq_ok, Prod.mk.injEq] at h
  obtain ⟨run, ⟨hrun, rfl⟩, -, -, ⟨m, run', attempt⟩, hcheck, -, hstate, thread, -,
    ⟨m', message⟩, hinsert, -, -, rfl, -⟩ := h
  obtain ⟨hp, -⟩ := checkRuntimeResult_eq_ok hrun hcheck
  rw [insertMessage_eq_ok hinsert]
  have hlive : ¬run'.state.isTerminal := by
    rw [hstate]
    decide
  refine (hp.mono False.elim).moved id (fun _ => rfl) (fun _ => rfl)
    (fun _ => rfl) rfl ?_ (.refl .refl) (.same (by rfl))
    (fun _ h => h) hlive hlive fun h => absurd (hstate.symm.trans h) (by decide)
  exact .update (by intro; rfl) (fun t _ _ => .refl t) fun _ _ _ => ⟨rfl, rfl⟩

theorem commitCheckpoint_effect {runId attemptId : ℕ} {target : RuntimeTarget}
    {checkpointUri : Text} {expectedRevision : ℤ} {adapterEventId : Option Text}
    {cause : RuntimeCause} (hset : checkpointUri ≠ [])
    (h : s.commitCheckpoint readings runId target checkpointUri expectedRevision adapterEventId
      cause = .ok (s', value, attemptId)) : Effect closes unarchived unclaimed s s' := by
  simp only [Ledger.commitCheckpoint, bind_eq_ok, require_eq_ok, Ledger.run_eq_ok, pure_eq_ok,
    Prod.mk.injEq] at h
  obtain ⟨run, ⟨hrun, rfl⟩, -, -, ⟨m, run', attempt⟩, hcheck, -, hstate, -, -, rfl, -⟩ := h
  obtain ⟨hp, hmem, hid, -, hattemptRun, hbinding, identity, hidentity, hcomplete⟩ :=
    checkRuntimeResult_eq_ok hrun hcheck
  have hlive : ¬run'.state.isTerminal ∧ run'.state ≠ .paused := by
    simp only [List.mem_cons, List.not_mem_nil, or_false] at hstate
    rcases hstate with hstate | hstate <;> rw [hstate] <;> decide
  refine (hp.mono False.elim).moved id (fun _ => rfl) (fun _ => rfl)
    (fun _ => rfl) rfl (.refl .refl) ?_ (.same (by rfl)) (fun _ h => h)
    hlive.1 hlive.1 fun h => absurd h hlive.2
  -- The attempt is bound to a complete runtime, which it was before the event and still is.
  refine .update (by intro; rfl) (fun a _ _ => .refl a) fun a ha hkey => ?_
  have hkept := hp.attempts.rel hmem ha (hkey.trans hid.symm)
  obtain ⟨b, hb⟩ := Option.isSome_iff_exists.1 hbinding
  refine ⟨rfl, rfl, rfl, rfl, fun _ h => h, fun _ h => h, fun _ => ⟨_, rfl, hset⟩, fun _ _ => ?_,
    .inl (hkept.runId.trans hattemptRun)⟩
  exact ⟨by rw [hkept.binding b hb]; rfl, identity, hkept.identity identity hidentity, hcomplete⟩

/-- A decision waits for an answer about an attempt of its run. -/
theorem insertDecision_effect {attemptId newId : ℕ} {kind prompt : Text}
    {options : List DecisionOption} {ref : Option Text} {revision : Option ℕ} {now : Stamp}
    {decision : Decision} (hp : Prepared True s m run run') (hown : s.HasAttempt run.id attemptId)
    (hlive : ¬run'.state.isTerminal)
    (h : m.insertDecision run' attemptId newId kind prompt options ref revision now
      = .ok (s', decision)) (threads : Table Thread)
    (hthreads : s'.threads.Grows ThreadKept (fun _ => False) threads) :
    Effect closes unarchived unclaimed s { s' with threads } := by
  simp only [Ledger.insertDecision, bind_eq_ok, orRaise_eq_ok, pure_eq_ok, Prod.mk.injEq] at h
  obtain ⟨decisions, hinsert, rfl, -⟩ := h
  refine hp.moved (fun r => { r with state := .waitingForDecision }) (fun _ => rfl) (fun _ => rfl)
    (fun _ => rfl) rfl hthreads
    (Ledger.attempts_moved (hp.hasAttempt hown) (by intro; rfl) (by intro; rfl)) ?_ (fun _ _ => rfl) hlive (by decide)
      fun h => absurd h (by decide)
  exact ⟨.insert hinsert (fun d _ => .refl d) ⟨trivial, hp.id, hown⟩, .refl .refl, .refl .refl,
    .refl .refl⟩

theorem createDecision_effect {runId attemptId : ℕ} {target : RuntimeTarget} {kind prompt : Text}
    {options : List DecisionOption} {ref : Option Text} {revision : Option ℕ}
    {expectedRevision : ℤ} {adapterEventId : Option Text} {cause : RuntimeCause}
    (h : s.createDecision readings runId target kind prompt options ref revision expectedRevision
      adapterEventId cause = .ok (s', value, attemptId)) :
    Effect closes unarchived unclaimed s s' := by
  simp only [Ledger.createDecision, bind_eq_ok, require_eq_ok, Ledger.run_eq_ok, pure_eq_ok,
    Prod.mk.injEq] at h
  obtain ⟨run, ⟨hrun, rfl⟩, -, -, ⟨m, run', attempt⟩, hcheck, -, hstate, ⟨m', decision⟩, hinsert,
    rfl, -⟩ := h
  obtain ⟨hp, hmem, hid, -, hattemptRun, -⟩ := checkRuntimeResult_eq_ok hrun hcheck
  have hlive : ¬run'.state.isTerminal := by
    rw [hstate]
    decide
  exact insertDecision_effect (hp.mono False.elim) ⟨attempt, hmem, hid, hattemptRun⟩ hlive hinsert
    m'.threads (.refl .refl)

end Cortex.Runs
