import Cortex.Runs.EventEffects

/-!
# Effects of the commands about decisions

A decision that is resolved sets its run going, a source intent that is resolved
sends its run back or stops it, and a workflow that failed ends its run.
-/

namespace Cortex.Runs

open Control Time Transaction

variable {closes unarchived unclaimed : Prop} {s m s' : Ledger} {readings : Readings}
  {value : Response} {run : Run}

/-! ## Decisions of a worker or a workflow -/

/-- A run that waits for a decision resumes, and a worker may be told. -/
private theorem resumeFromDecision_effect {decision : Decision} {resolution : Resolution} {now : Stamp}
    {actions : Table RuntimeAction} (hs : WellFormed s) (hdecision : decision ∈ s.decisions)
    (hrun : run ∈ s.runs) (hid : run.id = decision.runId) (hwaiting : run.state = .waitingForDecision)
    (hactions : s.actions.Grows WorkKept (WorkAdded run.id (s.HasAttempt run.id) True) actions) :
    Effect closes unarchived unclaimed s
      { (s.settleDecision decision resolution now).resumeFromDecision run decision now with
        actions } := by
  have hown : s.HasAttempt run.id decision.attemptId := by
    rw [hid]
    exact hs.decisions decision hdecision
  have hlive : ¬run.state.isTerminal := by
    rw [hwaiting]
    decide
  have hp : Prepared True s (s.settleDecision decision resolution now) run run :=
    (Prepared.refl hrun).andWork Ledger.workFrame_settleDecision (by rfl) (by rfl) (by rfl)
  refine hp.moved (fun r => { r with state := .resuming }) (fun _ => rfl) (fun _ => rfl)
    (fun _ => rfl) rfl (.refl .refl)
    (Ledger.attempts_moved (hp.hasAttempt hown) (by intro; rfl) (by intro; rfl)) ?_ (fun _ _ => rfl) hlive (by decide)
      fun h => absurd h (by decide)
  exact ⟨.refl .refl, .refl .refl, hactions, .refl .refl⟩

theorem resolveDecision_effect {actorId choice : Text} {decisionId : ℕ} {expectedRevision : ℤ}
    (hs : WellFormed s)
    (h : s.resolveDecision readings actorId decisionId choice expectedRevision
      = .ok (s', value)) : Effect closes unarchived unclaimed s s' := by
  simp only [Ledger.resolveDecision, bind_eq_ok, require_eq_ok, Ledger.decision_eq_ok] at h
  obtain ⟨decision, ⟨hdecision, rfl⟩, -, -, -, -, -, -, -, -, h⟩ := h
  split at h
  · simp only [Ledger.resolveWorkflowDecision, bind_eq_ok, require_eq_ok, Ledger.run_eq_ok,
      Ledger.decision_eq_ok, pure_eq_ok, Prod.mk.injEq] at h
    obtain ⟨m, ⟨-, -, -, -, run, ⟨hrun, hid⟩, -, hwaiting, -, -, rfl⟩, -, -, rfl, -⟩ := h
    exact resumeFromDecision_effect hs hdecision hrun hid hwaiting (.refl .refl)
  · simp only [Ledger.resolveRuntimeDecision, bind_eq_ok, require_eq_ok, orRaise_eq_ok,
      Ledger.run_eq_ok, Ledger.decision_eq_ok, pure_eq_ok, Prod.mk.injEq] at h
    obtain ⟨-, -, m, ⟨run, ⟨hrun, hid⟩, -, hwaiting, -, -, _, -, _, -, actions, hinsert, rfl⟩, -, -,
      rfl, -⟩ := h
    refine resumeFromDecision_effect hs hdecision hrun hid hwaiting ?_
    refine .insert hinsert (fun a _ => .refl a) ⟨trivial, rfl, ?_⟩
    rw [hid]
    exact hs.decisions decision hdecision

theorem createWorkflowDecision_effect {runId : ℕ} {kind prompt : Text}
    {options : List DecisionOption} (hs : WellFormed s)
    (h : s.createWorkflowDecision readings runId kind prompt options = .ok (s', value)) :
    Effect closes unarchived unclaimed s s' := by
  simp only [Ledger.createWorkflowDecision, bind_eq_ok, require_eq_ok, Ledger.run_eq_ok,
    Ledger.attempt_eq_ok, pure_eq_ok, Prod.mk.injEq] at h
  obtain ⟨run, ⟨hrun, rfl⟩, -, hfenced, -, -, attempt, ⟨hattempt, hid⟩, ⟨m, decision⟩, hinsert,
    rfl, -⟩ := h
  have hown : s.HasAttempt run.id attempt.id :=
    ⟨attempt, hattempt, rfl, hs.runId_of_active hrun hattempt hid⟩
  exact insertDecision_effect (.refl hrun) hown (fun hterminal => hfenced (.inl hterminal)) hinsert
    m.threads (.refl .refl)

theorem settleWorkflowFailure_effect {runId : ℕ} (hs : WellFormed s)
    (hcloses : closes → ∀ run ∈ s.runs, run.id = runId →
      RunState.failed ∈ run.state.transitions → ¬run.state.isWorkflowFenced →
        ActionsAreOf s runId run.activeAttemptId)
    (h : s.settleWorkflowFailure readings runId = .ok (s', value)) :
    Effect closes unarchived unclaimed s s' := by
  simp only [Ledger.settleWorkflowFailure, bind_eq_ok, require_eq_ok, Ledger.run_eq_ok] at h
  obtain ⟨run, ⟨hrun, rfl⟩, -, -, h⟩ := h
  split at h
  · rename_i hfails
    simp only [bind_eq_ok, Ledger.attempt_eq_ok, pure_eq_ok, Prod.mk.injEq] at h
    obtain ⟨attempt, ⟨-, hid⟩, m, hrelease, -, -, rfl, -⟩ := h
    have hown : s.HasAttempt run.id attempt.id := by
      rw [hid]
      exact hs.activeAttempt run hrun
    obtain ⟨releases, rfl, hwork⟩ := Ledger.workFrame_releasePin hown hrelease
    refine (Prepared.refl hrun).finished (fun r => { r with state := .failed }) (fun _ => rfl) (fun _ => rfl)
      (fun _ => rfl) rfl
      rfl ?_ ?_ hs (fun _ => rfl) (by decide) fun hc => ?_
    · exact Ledger.attempts_moved (hs.activeAttempt run hrun) (by intro; rfl) (by intro; rfl)
    · exact (((Ledger.workFrame_failPendingRuntimeActions.trans
        Ledger.workFrame_closeSourceWorkForRun).trans
          Ledger.workFrame_expireDecisionsWhere).trans (.same (by rfl))).trans hwork
    · exact ⟨decisions_expired, intents_closed,
        actions_failed (hcloses hc run hrun rfl hfails.1 hfails.2)⟩
  · simp only [pure_eq_ok, Prod.mk.injEq] at h
    obtain ⟨rfl, -⟩ := h
    exact .ofThreads (.refl .refl) (by rfl) (by rfl) fun _ _ => .same (by rfl)

/-! ## Source intents -/

theorem createSourceIntent_effect {runId attemptId : ℕ} {title locator locatorSha256 : Option Text}
    {canonicalIds : List Text}
    (h : s.createSourceIntent readings runId attemptId title locator locatorSha256 canonicalIds
      = .ok (s', value)) : Effect closes unarchived unclaimed s s' := by
  simp only [Ledger.createSourceIntent, bind_eq_ok, require_eq_ok, orRaise_eq_ok,
    Ledger.run_eq_ok, Ledger.attempt_eq_ok, pure_eq_ok, Prod.mk.injEq] at h
  obtain ⟨-, -, run, ⟨hrun, rfl⟩, attempt, ⟨hattempt, rfl⟩, -, ⟨-, hattemptRun⟩, resume, hresume,
    _, -, intents, hintents, ⟨m, decision⟩, hinsert, rfl, -⟩ := h
  have hown : s.HasAttempt run.id attempt.id := ⟨attempt, hattempt, rfl, hattemptRun⟩
  have hlive : ¬run.state.isTerminal := by
    rw [← ResumableState.ofState_eq_some hresume]
    exact resume.not_isTerminal
  have hp : Prepared True s { s with intents } run run :=
    (Prepared.refl hrun).andWork { WorkFrame.refl with
      intents := .insert hintents (fun i _ => .refl i) ⟨trivial, rfl, hown⟩ } (by rfl) (by rfl) (by rfl)
  refine insertDecision_effect hp hown hlive hinsert _ ?_
  exact .update (by intro; rfl) (fun t _ _ => .refl t) fun _ _ _ => ⟨rfl, rfl⟩

theorem resolveSourceIntent_effect {actorId : Text} {intentId : ℕ} {choice : SourceChoice}
    {expectedRevision : ℤ} (hs : WellFormed s)
    (h : s.resolveSourceIntent readings actorId intentId choice expectedRevision
      = .ok (s', value)) : Effect closes unarchived unclaimed s s' := by
  simp only [Ledger.resolveSourceIntent, bind_eq_ok, require_eq_ok, orRaise_eq_ok,
    Ledger.intent_eq_ok, Ledger.run_eq_ok, Ledger.attempt_eq_ok, Ledger.thread_eq_ok, pure_eq_ok,
    Prod.mk.injEq] at h
  obtain ⟨intent, ⟨hintent, hid⟩, -, -, -, -, decision, -, run, ⟨hrun, hrunId⟩, h⟩ := h
  obtain ⟨attempt, -, thread, -, -, hwaiting, -, -, -, -, -, -, -, -, m, hresume, h⟩ := h
  obtain ⟨-, -, hs', -⟩ := h
  subst hid hs'
  have hown : s.HasAttempt run.id intent.attemptId := by
    rw [hrunId]
    exact hs.intents intent hintent
  have hlive : ¬run.state.isTerminal := by
    rw [hwaiting]
    decide
  generalize hsettled : Ledger.mk _ _ _ _ _ _ _ _ _ = settled at hresume
  have hp : Prepared True s settled run run := by
    rw [← hsettled]
    refine ((Prepared.refl hrun).andWork Ledger.workFrame_settleDecision (by rfl) (by rfl)
      (by rfl)).andWork { WorkFrame.refl with
        intents := .update (by intro; rfl) (fun i _ _ => .refl i) fun i _ _ => ⟨rfl, rfl, fun hpending => ?_, rfl⟩ }
      (by rfl) (by rfl) (by rfl)
    simp only [WorkRow.isPending] at hpending
    split at hpending <;> cases hpending
  unfold Ledger.resumeFromIntent at hresume
  split at hresume
  · simp only [bind_eq_ok, pure_eq_ok, ← hrunId] at hresume
    obtain ⟨canceled, hcancel, rfl⟩ := hresume
    obtain ⟨hwork, hthreads, hruns, hattempts⟩ := prepareRunCancellation_eq_ok hown hcancel
    have hp := hp.andWork hwork hthreads hruns hattempts
    refine hp.moved (fun r => { r with state := .cancelRequested }) (fun _ => rfl) (fun _ => rfl)
      (fun _ => rfl) rfl ?_
      (Ledger.attempts_moved (hp.hasAttempt hown) (by intro; rfl) (by intro; rfl)) (.same (by rfl)) (fun _ _ => rfl) hlive (by decide)
      fun h => absurd h (by decide)
    exact .update (by intro; rfl) (fun t _ _ => .refl t) fun _ _ _ => ⟨rfl, rfl⟩
  · simp only [pure_eq_ok] at hresume
    subst hresume
    refine hp.moved (fun r => { r with state := intent.resumeRunState.state }) (fun _ => rfl) (fun _ => rfl)
      (fun _ => rfl) rfl ?_
      (Ledger.attempts_moved (hp.hasAttempt hown) (by intro; rfl) (by intro; rfl)) (.same (by rfl)) (fun _ _ => rfl) hlive
      intent.resumeRunState.not_isTerminal ?_
    · exact .update (by intro; rfl) (fun t _ _ => .refl t) fun _ _ _ => ⟨rfl, rfl⟩
    · intro hpaused
      cases hstate : intent.resumeRunState <;> rw [hstate] at hpaused <;> cases hpaused

end Cortex.Runs
