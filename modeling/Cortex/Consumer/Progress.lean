import Cortex.Consumer.Commands

/-!
# What one step of a pass does

`Works` says what a pass may do to the world while it has not reported yet: it writes the
carrier of its own capture, and goes on to a phase whose promise about the carrier
(`Phase.Holds`) is kept.  Only the report, with which a pass ends, writes the inbox.
-/

namespace Cortex.Consumer

open Control Transaction Workflow

variable {Digest ρ : Type} {P : Platform Digest} {w w' : World Digest ρ} {p : Pass ρ}
  {readings : Readings ρ} {thread : CarrierThread ρ} {run run' : CarrierRun ρ} {runId : ℕ}

/-- The carrier has one run, and it is such. -/
def Carried (carrier : Option (CarrierThread ρ)) (Q : CarrierRun ρ → Prop) : Prop :=
  ∃ thread run, carrier = some thread ∧ thread.Carries run ∧ Q run

/-- What a pass at this phase knows of its carrier. -/
def Phase.Holds (carrier : Option (CarrierThread ρ)) : Phase ρ → Prop
  | settling _ _ => Carried carrier fun run => run.Has IsDone .queued .active
  | closing _ _ => Carried carrier fun run => run.Has IsDone .queued .completed
  | canceling _ _ _ _ => Carried carrier fun run => run.Has IsDone .cancelRequested .completed
  | ending (.consumed _) => Carried carrier fun run => run.Has IsDone .canceled .completed
  | ending (.failed _) => Carried carrier fun run => run.Has IsFailed .failed .failed
  | _ => True

/-- What a pass does to the world before it reports. -/
inductive Works (w : World Digest ρ) (p : Pass ρ) : World Digest ρ → Prop
  | workspace : Works w p { w with hasWorkspace := true }
  | went (phase : Phase ρ) (working : phase.isClaiming = false)
      (holds : phase.Holds (w.carriers p.captureId)) : Works w p (w.goTo p phase)
  | put (thread : CarrierThread ρ) (sound : thread.Sound) (holds : p.phase.Holds (some thread)) :
      Works w p (w.putCarrier p thread)
  | wrote (thread : CarrierThread ρ) (phase : Phase ρ) (sound : thread.Sound)
      (working : phase.isClaiming = false) (holds : phase.Holds (some thread)) :
      Works w p ((w.putCarrier p thread).goTo p phase)

/-- The carriers are sound. -/
def SoundCarriers (w : World Digest ρ) : Prop :=
  ∀ captureId thread, w.carriers captureId = some thread → thread.Sound

/-- The carrier and the run that a step of a pass has read. -/
private theorem carrier_run (hsound : SoundCarriers w) (hthread : w.carrier p = .ok thread)
    (hrun : thread.run runId = .ok run) :
    w.carriers p.captureId = some thread ∧ thread.Carries run ∧ run.Sound := by
  rw [World.carrier, orRaise_eq_ok] at hthread
  exact ⟨hthread, (hsound _ _ hthread).carries hrun⟩

/-- The run that the carrier is known to have is the one that was read. -/
private theorem Carried.of_run {Q : CarrierRun ρ → Prop} (h : Carried (w.carriers p.captureId) Q)
    (hthread : w.carriers p.captureId = some thread) (hcarries : thread.Carries run) : Q run := by
  obtain ⟨thread', run', hthread', hcarries', hQ⟩ := h
  obtain rfl := Option.some.inj (hthread.symm.trans hthread')
  have hsame := hcarries.rows.symm.trans hcarries'.rows
  rw [List.cons.injEq] at hsame
  exact hsame.1 ▸ hQ

/-- The carrier after a write of its run, which was not over. -/
private theorem Carries.wrote (h : thread.Carries run) (hlive : ¬run.state.isTerminal)
    (hid : run'.id = run.id) (hsound : run'.Sound) :
    (thread.putRun run').Sound ∧ ∀ Q : CarrierRun ρ → Prop, Q run' →
      Carried (some (thread.putRun run')) Q := by
  have hcarries := h.putRun hlive hid
  exact ⟨.one run' hcarries hsound, fun Q hQ => ⟨_, run', rfl, hcarries, hQ⟩⟩

private theorem live_of_queued (h : run.state = .queued) : ¬run.state.isTerminal := by
  rw [h]
  decide

/-! ## Finding and opening a carrier -/

section Consume

theorem Works.claimEffect (hsound : thread.Sound)
    (h : w.claimEffect P p readings thread runId = .ok w') : Works w p w' := by
  simp only [World.claimEffect, bind_eq_ok] at h
  obtain ⟨run, hrun, ⟨run', claim⟩, hclaim, h⟩ := h
  obtain ⟨hcarries, hrunsound⟩ := hsound.carries hrun
  have hasked := hrunsound.claimEffect hclaim
  obtain ⟨hid, hstate⟩ := CarrierRun.onEffect_same hclaim
  obtain ⟨hsound', -⟩ := Carries.wrote hcarries (live_of_queued (hstate.symm.trans hasked.state))
    hid (.asked hasked)
  split at h
  · cases h
    exact .wrote _ _ hsound' rfl trivial
  · cases h
    exact .wrote _ _ hsound' rfl trivial

theorem Works.heal (hsound : thread.Sound)
    (h : w.heal P p readings thread runId = .ok w') : Works w p w' := by
  unfold World.heal at h
  split at h
  · simp only [World.claimReconciliation, bind_eq_ok, pure_eq_ok] at h
    obtain ⟨run, hrun, ⟨run', claim⟩, hclaim, rfl⟩ := h
    obtain ⟨hcarries, hrunsound⟩ := hsound.carries hrun
    have hasked := hrunsound.claimReconciliation hclaim
    obtain ⟨hid, hstate⟩ := CarrierRun.onEffect_same hclaim
    obtain ⟨hsound', -⟩ := Carries.wrote hcarries (live_of_queued (hstate.symm.trans hasked.state))
      hid (.asked hasked)
    exact .wrote _ _ hsound' rfl trivial
  · cases h
    exact .went _ rfl trivial
  · cases h
    exact .went _ rfl trivial

/-- What a replay ends with promises nothing about the carrier. -/
private theorem holds_replay {carrier : Option (CarrierThread ρ)} :
    (Phase.ending (World.replay readings)).Holds carrier := by
  unfold World.replay
  split
  · trivial
  · trivial

theorem Works.resume {s : EffectStore ρ} (hsound : thread.Sound)
    (hthread : w.carriers p.captureId = some thread)
    (hfound : thread.existingEffect = some (run, s))
    (h : w.resume P p readings thread runId s.effect.state = .ok w') : Works w p w' := by
  cases hstate : s.effect.state with
  | completed result =>
      rw [hstate] at h
      cases h
      exact .went _ rfl holds_replay
  | failed category =>
      rw [hstate] at h
      cases h
      obtain ⟨hcarries, hrunsound, heffect⟩ := hsound.existingEffect hfound
      exact .went _ rfl ⟨thread, run, hthread, hcarries, hrunsound.of_failed heffect hstate⟩
  | outcomeUnknown =>
      rw [hstate] at h
      exact .heal hsound h
  | reconciling owner expiresAt =>
      rw [hstate] at h
      exact .heal hsound h
  | pending =>
      rw [hstate] at h
      exact .claimEffect hsound h
  | claimed owner expiresAt =>
      rw [hstate] at h
      exact .claimEffect hsound h
  | manualRequired =>
      rw [hstate] at h
      exact .claimEffect hsound h

/-- A run without an effect gets its stage active, and then its effect. -/
theorem Works.prepareRun (hfree : ∀ carrier, p.phase.Holds carrier) (hcarries : thread.Carries run)
    (hsound : run.Sound) (hnone : run.effect = none)
    (h : w.prepareRun P p readings thread run = .ok w') : Works w p w' := by
  obtain ⟨hqueued, -⟩ := hsound.of_no_effect hnone
  simp only [World.prepareRun, CarrierRun.prepare, bind_eq_ok, pure_eq_ok] at h
  obtain ⟨run', ⟨stage, -, hrun'⟩, rfl⟩ := h
  split at hrun'
  · obtain ⟨hsame, hstage⟩ := CarrierRun.activateStage_eq_ok hrun'
    obtain ⟨hsound', -⟩ := Carries.wrote hcarries (live_of_queued hqueued) hsame.id
      (.opened (hsame.effect.trans hnone) (hsame.state.trans hqueued) (.inr hstage))
    exact .put _ hsound' (hfree _)
  · obtain ⟨hactive, hstage, hstate, hid, s, hs, hmutation, hpending⟩ :=
      CarrierRun.createEffect_eq_ok hnone hrun'
    have hasked : run'.Has IsUnsettled .queued .active := by
      refine ⟨⟨s, hs, hmutation, ?_⟩, hstate.trans hqueued, hstage.trans hactive⟩
      rw [hpending]
      trivial
    obtain ⟨hsound', -⟩ := Carries.wrote hcarries (live_of_queued hqueued) hid (.asked hasked)
    exact .put _ hsound' (hfree _)

theorem Works.openCarrier (hfree : ∀ carrier, p.phase.Holds carrier) (hsound : thread.Sound)
    (hnone : thread.existingEffect = none)
    (h : w.openCarrier P p readings thread = .ok w') : Works w p w' := by
  simp only [World.openCarrier, bind_eq_ok] at h
  obtain ⟨active, hactive, h⟩ := h
  split at h
  · rename_i run _ hlive
    obtain ⟨rfl, -⟩ := Option.filter_eq_some_iff.1 hlive
    obtain ⟨runId, hrun⟩ := CarrierThread.run_of_activeRun hactive
    obtain ⟨hcarries, hrunsound⟩ := hsound.carries hrun
    exact .prepareRun hfree hcarries hrunsound (hcarries.no_effect hnone) h
  · cases h
    exact .went _ rfl trivial
  · rename_i hended _
    simp only [bind_eq_ok, pure_eq_ok] at h
    obtain ⟨thread', hcreate, rfl⟩ := h
    have hrows := hsound.no_run hnone hactive fun run hrun => by
      simpa using Option.filter_eq_none_iff.1 hended run hrun
    exact .put _ (CarrierThread.createRun_eq_ok hrows hcreate) (hfree _)

theorem Works.consume (hfree : ∀ carrier, p.phase.Holds carrier) (hsound : SoundCarriers w)
    (h : w.consume P p readings = .ok w') : Works w p w' := by
  unfold World.consume at h
  split at h
  · split at h
    · cases h
      unfold World.openThread
      split
      · exact .went _ rfl trivial
      · exact .put _ CarrierThread.sound_new (hfree _)
    · rename_i thread hthread
      split at h
      · rename_i hnone
        exact .openCarrier hfree (hsound _ _ hthread) hnone h
      · rename_i run s hfound
        exact .resume (hsound _ _ hthread) hthread hfound h
  · cases h
    exact .workspace

end Consume

/-! ## The effect and its settlement -/

section Settle

variable {claim : Loaded ρ} {sourceIds : List Text}

theorem Works.dispatch (hsound : SoundCarriers w)
    (h : w.dispatch p readings runId claim = .ok w') : Works w p w' := by
  simp only [World.dispatch, bind_eq_ok] at h
  obtain ⟨thread, hthread, run, hrun, h⟩ := h
  obtain ⟨-, hcarries, hrunsound⟩ := carrier_run hsound hthread hrun
  split at h
  · simp only [bind_eq_ok, pure_eq_ok] at h
    obtain ⟨⟨run', _⟩, hcomplete, rfl⟩ := h
    have hdone := hrunsound.completeEffect hcomplete
    obtain ⟨hid, hstate⟩ := CarrierRun.onEffect_same hcomplete
    obtain ⟨hsound', hcarried⟩ := Carries.wrote hcarries
      (live_of_queued (hstate.symm.trans hdone.state)) hid (.recorded hdone)
    exact .wrote _ _ hsound' rfl (hcarried _ hdone)
  · simp only [bind_eq_ok, pure_eq_ok] at h
    obtain ⟨run', hreject, rfl⟩ := h
    obtain ⟨hfailed, hid, hqueued⟩ := hrunsound.rejectEffect hreject
    obtain ⟨hsound', hcarried⟩ :=
      Carries.wrote hcarries (live_of_queued hqueued) hid (.rejected hfailed)
    exact .wrote _ _ hsound' rfl (hcarried _ hfailed)
  · simp only [bind_eq_ok, pure_eq_ok] at h
    obtain ⟨⟨run', _⟩, hmark, rfl⟩ := h
    have hasked := hrunsound.markUnknown hmark
    obtain ⟨hid, hstate⟩ := CarrierRun.onEffect_same hmark
    obtain ⟨hsound', -⟩ := Carries.wrote hcarries
      (live_of_queued (hstate.symm.trans hasked.state)) hid (.asked hasked)
    exact .wrote _ _ hsound' rfl trivial

theorem Works.reconcile (hsound : SoundCarriers w)
    (h : w.reconcile p readings runId claim = .ok w') : Works w p w' := by
  simp only [World.reconcile, bind_eq_ok] at h
  obtain ⟨thread, hthread, run, hrun, h⟩ := h
  obtain ⟨-, hcarries, hrunsound⟩ := carrier_run hsound hthread hrun
  split at h
  · simp only [bind_eq_ok, pure_eq_ok] at h
    obtain ⟨⟨run', _⟩, hcomplete, rfl⟩ := h
    obtain ⟨hrunsound', hqueued⟩ := hrunsound.completeReconciliation hcomplete
    obtain ⟨hid, hstate⟩ := CarrierRun.onEffect_same hcomplete
    obtain ⟨hsound', -⟩ := Carries.wrote hcarries
      (live_of_queued (hstate.symm.trans hqueued)) hid hrunsound'
    exact .wrote _ _ hsound' rfl trivial
  · cases h
    exact .went _ rfl trivial
  · cases h
    exact .went _ rfl trivial

theorem Works.goOn (hsound : SoundCarriers w)
    (h : w.goOn P p readings runId = .ok w') : Works w p w' := by
  simp only [World.goOn, bind_eq_ok, orRaise_eq_ok] at h
  obtain ⟨thread, hthread, run, hrun, s, hs, h⟩ := h
  obtain ⟨hcarrier, hcarries, hrunsound⟩ := carrier_run hsound hthread hrun
  have hclaims : w.claimEffect P p readings thread runId = .ok w' → Works w p w' :=
    .claimEffect (hsound _ _ hcarrier)
  cases hstate : s.effect.state with
  | completed result =>
      rw [hstate] at h
      cases h
      exact .went _ rfl holds_replay
  | failed category =>
      rw [hstate] at h
      cases h
      exact .went _ rfl ⟨thread, run, hcarrier, hcarries, hrunsound.of_failed hs hstate⟩
  | manualRequired =>
      rw [hstate] at h
      cases h
      exact .went _ rfl trivial
  | pending =>
      rw [hstate] at h
      exact hclaims h
  | claimed owner expiresAt =>
      rw [hstate] at h
      exact hclaims h
  | outcomeUnknown =>
      rw [hstate] at h
      exact hclaims h
  | reconciling owner expiresAt =>
      rw [hstate] at h
      exact hclaims h

theorem Works.settle (hsound : SoundCarriers w)
    (hdone : Carried (w.carriers p.captureId) fun run => run.Has IsDone .queued .active)
    (h : w.settle p readings runId sourceIds = .ok w') : Works w p w' := by
  simp only [World.settle, bind_eq_ok, pure_eq_ok] at h
  obtain ⟨thread, hthread, run, hrun, run', hcomplete, rfl⟩ := h
  obtain ⟨hcarrier, hcarries, -⟩ := carrier_run hsound hthread hrun
  have hdone := hdone.of_run hcarrier hcarries
  obtain ⟨hsame, hstage⟩ := CarrierRun.completeStage_eq_ok hcomplete
  have hstaged : run'.Has IsDone .queued .completed := by
    refine ⟨?_, hsame.state.trans hdone.state, hstage⟩
    rw [hsame.effect]
    exact hdone.effect
  obtain ⟨hsound', hcarried⟩ := Carries.wrote hcarries (live_of_queued hdone.state) hsame.id
    (.staged hstaged)
  exact .wrote _ _ hsound' rfl (hcarried _ hstaged)

theorem Works.closeRun (hsound : SoundCarriers w)
    (hdone : Carried (w.carriers p.captureId) fun run => run.Has IsDone .queued .completed)
    (h : w.closeRun p runId sourceIds = .ok w') : Works w p w' := by
  simp only [World.closeRun, bind_eq_ok] at h
  obtain ⟨thread, hthread, run, hrun, h⟩ := h
  obtain ⟨hcarrier, hcarries, -⟩ := carrier_run hsound hthread hrun
  have hdone := hdone.of_run hcarrier hcarries
  rw [if_neg (live_of_queued hdone.state)] at h
  simp only [CarrierRun.requestCancel, bind_eq_ok, pure_eq_ok] at h
  obtain ⟨_, ⟨-, -, rfl⟩, rfl⟩ := h
  have hcanceling : (run.moveTo .cancelRequested).Has IsDone .cancelRequested .completed :=
    ⟨hdone.effect, rfl, hdone.stage⟩
  have hid : (run.moveTo .cancelRequested).id = run.id := rfl
  obtain ⟨hsound', hcarried⟩ := Carries.wrote hcarries (live_of_queued hdone.state) hid
    (.canceling hcanceling)
  exact .wrote _ _ hsound' rfl (hcarried _ hcanceling)

theorem Works.settleRun {attemptId revision : ℕ} (hsound : SoundCarriers w)
    (hdone : Carried (w.carriers p.captureId) fun run =>
      run.Has IsDone .cancelRequested .completed)
    (h : w.settleRun p runId attemptId revision sourceIds = .ok w') : Works w p w' := by
  simp only [World.settleRun, CarrierRun.failUnbound, bind_eq_ok, pure_eq_ok] at h
  obtain ⟨thread, hthread, run, hrun, _, ⟨-, -, -, -, -, -, rfl⟩, rfl⟩ := h
  obtain ⟨hcarrier, hcarries, -⟩ := carrier_run hsound hthread hrun
  have hdone := hdone.of_run hcarrier hcarries
  rw [if_pos hdone.state]
  have hclosed : (run.moveTo .canceled).Has IsDone .canceled .completed :=
    ⟨hdone.effect, rfl, hdone.stage⟩
  have hlive : ¬run.state.isTerminal := by
    rw [hdone.state]
    decide
  have hid : (run.moveTo .canceled).id = run.id := rfl
  obtain ⟨hsound', hcarried⟩ := Carries.wrote hcarries hlive hid (.closed hclosed)
  exact .wrote _ _ hsound' rfl (hcarried _ hclosed)

end Settle

end Cortex.Consumer
