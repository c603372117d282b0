import Cortex.Runs.DecisionEffects

/-!
# Effects of the commands about actions and releases

A worker that settles an action moves its run on, back or to its end.  A release
is claimed only when no live attempt needs the pin, and is settled under a claim.
-/

namespace Cortex.Runs

open Control Time Transaction

variable {closes unarchived unclaimed : Prop} {s m s' : Ledger} {readings : Readings}
  {value : Response} {run : Run}

/-- A command that keeps threads, runs and attempts, up to the revision of a run. -/
private theorem Effect.ofWork (subject : ℕ)
    (work : WorkFrame subject (s.HasAttempt subject) False s s')
    (runs : s.runs.Grows RunSame (fun _ => False) s'.runs)
    (hthreads : s'.threads = s.threads) (hattempts : s'.attempts = s.attempts) : Effect closes unarchived unclaimed s s' := by
  refine .touched subject runs ?_ ?_ ?_ work
  · rw [hthreads]
    exact .refl .refl
  · rw [AttemptsKept, hattempts]
    exact .refl .refl
  · rw [hattempts]
    exact .refl fun _ => rfl

/-! ## Claiming actions -/

theorem claimRuntimeAction_effect {actionId : ℕ} {workerId : Text} {leaseSeconds : ℤ}
    (h : s.claimRuntimeAction readings actionId workerId leaseSeconds = .ok (s', value)) :
    Effect closes unarchived unclaimed s s' := by
  simp only [Ledger.claimRuntimeAction, bind_eq_ok, require_eq_ok, orRaise_eq_ok, pure_eq_ok,
    Prod.mk.injEq] at h
  obtain ⟨_, -, -, -, _, -, -, -, _, -, actions, hactions, -, -, rfl, -⟩ := h
  refine .ofWork 0 { WorkFrame.refl with actions := ?_ } (.refl .refl) (by rfl) (by rfl)
  exact .updateRow hactions (fun a _ _ => .refl a) fun _ _ _ _ => ⟨rfl, rfl, id, rfl⟩

theorem claimRuntimeActionReconciliation_effect {actionId : ℕ} {workerId : Text}
    {leaseSeconds : ℤ}
    (h : s.claimRuntimeActionReconciliation readings actionId workerId leaseSeconds
      = .ok (s', value)) : Effect closes unarchived unclaimed s s' := by
  simp only [Ledger.claimRuntimeActionReconciliation, bind_eq_ok, require_eq_ok, orRaise_eq_ok,
    pure_eq_ok, Prod.mk.injEq] at h
  obtain ⟨_, -, -, -, _, -, actions, hactions, -, -, rfl, -⟩ := h
  refine .ofWork 0 { WorkFrame.refl with actions := ?_ } (.refl .refl) (by rfl) (by rfl)
  exact .updateRow hactions (fun a _ _ => .refl a) fun _ _ _ _ => ⟨rfl, rfl, id, rfl⟩

/-! ## Settling actions -/

private theorem fencedAction_eq_ok {actionId : ℕ} {fence : Fence} {outcomes : List OutcomeState}
    {target : String} {action : RuntimeAction}
    (h : s.fencedAction readings actionId fence outcomes target = .ok action) :
    action ∈ s.actions ∧ action.id = actionId ∧ action.state = .pending := by
  simp only [Ledger.fencedAction, bind_eq_ok, require_eq_ok, Ledger.action_eq_ok, pure_eq_ok] at h
  obtain ⟨a, ⟨ha, hid⟩, -, ⟨hpending, -⟩, rfl⟩ := h
  exact ⟨ha, hid, hpending⟩

/-- A settlement changes one action, which was pending. -/
private theorem updateFencedAction_eq_ok {actionId : ℕ} {fence : Fence} {outcomes : List OutcomeState}
    {target : String} {change : RuntimeAction → RuntimeAction}
    {hchange : ∀ a, (change a).id = a.id}
    (h : s.updateFencedAction actionId fence outcomes target change hchange = .ok s') :
    ∃ actions, s' = { s with actions } ∧ ∀ R N, (∀ a ∈ s.actions, a.id ≠ actionId → R a a) →
      (∀ a ∈ s.actions, a.id = actionId → a.state = .pending →
        R a { change a with claim := a.claim.drop }) → s.actions.Grows R N actions := by
  simp only [Ledger.updateFencedAction, bind_eq_ok, orRaise_eq_ok, pure_eq_ok] at h
  obtain ⟨actions, hactions, rfl⟩ := h
  refine ⟨actions, rfl, fun R N hrefl hR => ?_⟩
  apply Table.Grows.updateRow hactions
  · exact hrefl
  · exact fun a ha hkey hp => hR a ha hkey hp.1

/-- The same as a frame, where the action keeps its run and its attempt. -/
private theorem workFrame_updateFencedAction {actionId subject : ℕ} {own : ℕ → Prop} {adds : Prop}
    {fence : Fence} {outcomes : List OutcomeState} {target : String}
    {change : RuntimeAction → RuntimeAction} {hchange : ∀ a, (change a).id = a.id}
    (h : s.updateFencedAction actionId fence outcomes target change hchange = .ok s')
    (hrun : ∀ a, (change a).runId = a.runId)
    (hattempt : ∀ a, (change a).attemptId = a.attemptId) :
    ∃ actions, s' = { s with actions } ∧ WorkFrame subject own adds s s' := by
  obtain ⟨actions, rfl, hgrows⟩ := updateFencedAction_eq_ok h
  refine ⟨actions, rfl, { WorkFrame.refl with actions := ?_ }⟩
  exact hgrows _ _ (fun a _ _ => .refl a) fun a _ _ hpending =>
    ⟨hrun a, hattempt a, fun _ => hpending, rfl⟩

theorem acknowledgeRuntimeAction_effect {actionId runId : ℕ} {target : RuntimeTarget}
    {fence : Fence} {expectedRevision : ℤ}
    (h : s.acknowledgeRuntimeAction readings actionId runId target fence expectedRevision
      = .ok (s', value)) : Effect closes unarchived unclaimed s s' := by
  simp only [Ledger.acknowledgeRuntimeAction, bind_eq_ok, require_eq_ok, Ledger.run_eq_ok,
    pure_eq_ok, Prod.mk.injEq] at h
  obtain ⟨-, -, -, -, action, -, -, -, run, ⟨hrun, rfl⟩, -, -, attempt, hvalid, m, hupdate, -, -,
    rfl, -⟩ := h
  obtain ⟨hmem, hid, -, hattemptRun, -⟩ := validateRuntimeIdentity_eq_ok hvalid
  split
  · rename_i hresumes
    obtain ⟨actions, rfl, hwork⟩ := workFrame_updateFencedAction hupdate (fun _ => rfl)
      fun _ => rfl
    have hp : Prepared True s _ run run :=
      (Prepared.refl hrun).andWork hwork (by rfl) (by rfl) (by rfl)
    have hlive : ¬run.state.isTerminal := by
      rw [hresumes.2]
      decide
    exact hp.moved (fun r => { r with state := .running }) (fun _ => rfl) (fun _ => rfl)
      (fun _ => rfl) rfl (.refl .refl)
      (Ledger.attempts_moved (hp.hasAttempt ⟨attempt, hmem, hid, hattemptRun⟩) (by intro; rfl) (by intro; rfl)) (.same (by rfl))
      (fun _ _ => rfl) hlive (by decide)
      fun h => absurd h (by decide)
  · obtain ⟨actions, rfl, hwork⟩ := workFrame_updateFencedAction hupdate (fun _ => rfl)
      fun _ => rfl
    exact .ofWork run.id (hwork.trans (.same (by rfl))) runs_updateRun_same (by rfl) (by rfl)

theorem failRuntimeAction_effect {actionId : ℕ} {fence : Fence} {expectedRevision : ℤ}
    {category : Text} (hs : WellFormed s)
    (hcloses : closes → ∀ action ∈ s.actions, action.id = actionId →
      DecisionsAreOfIntents s action.runId ∧
        ∀ a ∈ s.actions, a.runId = action.runId → a.state = .pending → a.id = actionId)
    (h : s.failRuntimeAction readings actionId fence expectedRevision category = .ok (s', value)) :
    Effect closes unarchived unclaimed s s' := by
  simp only [Ledger.failRuntimeAction, bind_eq_ok, Ledger.run_eq_ok, Ledger.attempt_eq_ok,
    pure_eq_ok, Prod.mk.injEq] at h
  obtain ⟨action, haction, run, ⟨hrun, hrunId⟩, -, -, m, hupdate, attempt, ⟨-, hid⟩, m', hrelease,
    -, -, rfl, -⟩ := h
  obtain ⟨hmem, rfl, -⟩ := fencedAction_eq_ok haction
  have hown : s.HasAttempt run.id action.attemptId := by
    rw [hrunId]
    exact hs.actions action hmem
  obtain ⟨actions, rfl, hgrows⟩ := updateFencedAction_eq_ok hupdate
  have hwork : WorkFrame run.id (s.HasAttempt run.id) False s { s with actions } :=
    { WorkFrame.refl with
      actions := hgrows _ _ (fun a _ _ => .refl a) fun a _ _ hpending =>
        ⟨rfl, rfl, fun _ => hpending, rfl⟩ }
  have hp : Prepared False s { s with actions } run run :=
    (Prepared.refl hrun).andWork hwork (by rfl) (by rfl) (by rfl)
  obtain ⟨releases, rfl, hrelease⟩ := Ledger.workFrame_releasePin (hid ▸ hown) hrelease
  refine hp.finished (fun r => { r with state := .failed }) (fun _ => rfl) (fun _ => rfl)
    (fun _ => rfl) rfl rfl
    (Ledger.attempts_moved (hp.hasAttempt hown) (by intro; rfl) (by intro; rfl)) ?_ hs (fun _ => rfl) (by decide) fun hc => ?_
  · exact (Ledger.workFrame_closeSourceWorkForRun.trans (.same (by rfl))).trans hrelease
  · obtain ⟨hdecisions, hactions⟩ := hcloses hc action hmem rfl
    rw [← hrunId] at hdecisions hactions
    refine ⟨decisions_closed hdecisions, intents_closed, fun a ha hrun hpending => ?_⟩
    -- A pending action of the run was pending before, so it is the one that was settled.
    have hsettled : s.actions.Grows (fun r r' => r'.runId = r.runId ∧ (r'.state = .pending →
        r.state = .pending ∧ r.id ≠ action.id)) (fun _ => False) actions :=
      hgrows _ _ (fun _ _ hne => ⟨rfl, fun hp => ⟨hp, hne⟩⟩) fun _ _ _ _ => ⟨rfl, by intro h; cases h⟩
    obtain ⟨a₀, ha₀, -, hrunId', hpending'⟩ := hsettled.source ha
    obtain ⟨hpending₀, hne⟩ := hpending' hpending
    exact hne (hactions a₀ ha₀ (hrunId'.symm.trans hrun) hpending₀)

theorem rejectRuntimeAction_effect {actionId : ℕ} {fence : Fence} {expectedRevision : ℤ}
    {category : Text} (hs : WellFormed s)
    (h : s.rejectRuntimeAction readings actionId fence expectedRevision category
      = .ok (s', value)) : Effect closes unarchived unclaimed s s' := by
  simp only [Ledger.rejectRuntimeAction, bind_eq_ok, Ledger.run_eq_ok, pure_eq_ok,
    Prod.mk.injEq] at h
  obtain ⟨action, haction, run, ⟨hrun, hrunId⟩, -, -, m, hupdate, -, -, rfl, -⟩ := h
  obtain ⟨hmem, rfl, -⟩ := fencedAction_eq_ok haction
  split
  · rename_i hrefused
    obtain ⟨actions, rfl, hwork⟩ := workFrame_updateFencedAction hupdate (fun _ => rfl)
      fun _ => rfl
    have hp : Prepared True s _ run run :=
      (Prepared.refl hrun).andWork hwork (by rfl) (by rfl) (by rfl)
    have hown : s.HasAttempt run.id action.attemptId := by
      rw [hrunId]
      exact hs.actions action hmem
    have hlive : ¬run.state.isTerminal := by
      rw [hrefused.2]
      decide
    exact hp.moved (fun r => { r with state := .running }) (fun _ => rfl) (fun _ => rfl)
      (fun _ => rfl) rfl (.refl .refl)
      (Ledger.attempts_moved (hp.hasAttempt hown) (by intro; rfl) (by intro; rfl)) (.same (by rfl)) (fun _ _ => rfl) hlive (by decide)
      fun h => absurd h (by decide)
  · obtain ⟨actions, rfl, hwork⟩ := workFrame_updateFencedAction hupdate (fun _ => rfl)
      fun _ => rfl
    exact .ofWork run.id (hwork.trans (.same (by rfl))) runs_updateRun_same (by rfl) (by rfl)

theorem redirectRuntimeAction_effect {actionId : ℕ} {fence : Fence} {expectedRevision : ℤ}
    {source target : OutcomeState} {category : Option Text}
    (h : s.redirectRuntimeAction readings actionId fence expectedRevision source target category
      = .ok (s', value)) : Effect closes unarchived unclaimed s s' := by
  simp only [Ledger.redirectRuntimeAction, bind_eq_ok, pure_eq_ok, Prod.mk.injEq] at h
  obtain ⟨action, -, run, -, -, -, m, hupdate, -, -, rfl, -⟩ := h
  obtain ⟨actions, rfl, hwork⟩ := workFrame_updateFencedAction hupdate (fun _ => rfl)
      fun _ => rfl
  exact .ofWork run.id (hwork.trans (.same (by rfl))) runs_updateRun_same (by rfl) (by rfl)

/-! ## Pin releases -/

theorem claimPinRelease_effect {releaseId : ℕ} {workerId : Text} {leaseSeconds : ℤ}
    (h : s.claimPinRelease readings releaseId workerId leaseSeconds = .ok (s', value)) :
    Effect closes unarchived unclaimed s s' := by
  simp only [Ledger.claimPinRelease, bind_eq_ok, require_eq_ok, orRaise_eq_ok, Ledger.run_eq_ok,
    Ledger.pinRelease_eq_ok, pure_eq_ok, Prod.mk.injEq] at h
  obtain ⟨release, ⟨hrelease, rfl⟩, -, -, run, ⟨hrun, hrunId⟩, attempt, -, -, hfree, _, -, releases,
    hreleases, -, -, rfl, -⟩ := h
  refine .claimedRelease release.id releases rfl ?_ ?_
  · refine .updateRow hreleases (fun r _ _ => ⟨rfl, rfl, le_rfl, id, .inl rfl⟩) ?_
    exact fun r _ hkey _ => ⟨rfl, rfl, Nat.le_succ _, fun _ => .inr (Nat.le_add_left 1 _), .inr hkey⟩
  · intro r hr hid run' hrun' hrunId'
    obtain rfl : r = release := Table.eq_of_key hr hrelease hid
    obtain rfl : run' = run := Table.eq_of_key hrun' hrun (hrunId'.trans hrunId.symm)
    exact hfree.imp_right And.left

/-- A fence names an epoch that some claim has. -/
theorem requiredFence_eq_ok {fence fence' : Fence} (h : requiredFence fence = .ok fence') :
    1 ≤ fence'.claimEpoch := by
  simp only [requiredFence, bind_eq_ok, require_eq_ok, pure_eq_ok] at h
  obtain ⟨_, -, -, hepoch, rfl⟩ := h
  exact hepoch

theorem settlePinRelease_effect {releaseId : ℕ} {fence : Fence} {expectedRevision : ℤ}
    {targetState : DeliveryState} {category : Option Text} (hepoch : 1 ≤ fence.claimEpoch)
    (h : s.settlePinRelease readings releaseId fence expectedRevision targetState category
      = .ok (s', value)) : Effect closes unarchived unclaimed s s' := by
  simp only [Ledger.settlePinRelease, bind_eq_ok, orRaise_eq_ok, pure_eq_ok, Prod.mk.injEq] at h
  obtain ⟨release, -, -, -, run, -, -, -, releases, hreleases, -, -, rfl, -⟩ := h
  refine .ofWork run.id { WorkFrame.refl with releases := ?_ } runs_updateRun_same (by rfl) (by rfl)
  refine .updateRow hreleases (fun r _ _ => .refl r) fun r _ _ hfence => ?_
  refine ⟨rfl, rfl, rfl, rfl, fun _ => .inr ?_⟩
  have hcurrent := hfence.2.2
  change 1 ≤ r.claim.epoch
  omega

theorem retryPinRelease_effect {releaseId : ℕ} {expectedRevision : ℤ}
    (h : s.retryPinRelease readings releaseId expectedRevision = .ok (s', value)) :
    Effect closes unarchived unclaimed s s' := by
  simp only [Ledger.retryPinRelease, bind_eq_ok, pure_eq_ok, Prod.mk.injEq] at h
  obtain ⟨release, -, -, -, run, -, -, -, -, -, rfl, -⟩ := h
  refine .ofWork run.id { WorkFrame.refl with releases := ?_ } runs_updateRun_same (by rfl) (by rfl)
  exact .update (by intro; rfl) (fun r _ _ => .refl r) fun _ _ _ => ⟨rfl, rfl, rfl, rfl, fun _ => .inl rfl⟩

theorem reviseRun_effect {runId : ℕ} (h : s.reviseRun readings runId = .ok (s', value)) :
    Effect closes unarchived unclaimed s s' := by
  simp only [Ledger.reviseRun, bind_eq_ok, pure_eq_ok, Prod.mk.injEq] at h
  obtain ⟨run, -, -, -, rfl, -⟩ := h
  exact .ofWork run.id (.same (by rfl)) runs_updateRun_same (by rfl) (by rfl)

end Cortex.Runs
