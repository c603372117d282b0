import Cortex.Consumer.Pass
import Cortex.Captures.Authorisation

/-!
# What the commands do to a carrier

A carrier thread has one run at most, and the run, its stage and its effect go through seven
joint states (`CarrierRun.Sound`).  One lemma for each command says from which of them to
which it moves a run; `Carries` says how the thread points to its run.
-/

namespace Cortex.Consumer

open Control Transaction Workflow

variable {ρ : Type} {readings : CarrierReadings}

/-! ## The joint states of a run -/

/-- The state of the only stage. -/
def CarrierRun.stageState (run : CarrierRun ρ) : Option StageState :=
  (run.workflow.stages.get? stageKey).map Stage.state

/-- The effect was not settled yet, or its outcome is not known. -/
def IsUnsettled : EffectState ρ → Prop
  | .completed _ => False
  | .failed _ => False
  | _ => True

def IsDone (state : EffectState ρ) : Prop := isCompleted state = true

def IsFailed : EffectState ρ → Prop
  | .failed _ => True
  | _ => False

/-- A run with an effect in such a state, in this state itself and with its stage in that one. -/
structure CarrierRun.Has (run : CarrierRun ρ) (P : EffectState ρ → Prop) (state : Runs.RunState)
    (stage : StageState) : Prop where
  effect : ∃ s, run.effect = some s ∧ s.effect.effectClass = .mutation ∧ P s.effect.state
  state : run.state = state
  stage : run.stageState = some stage

/-- The joint states of a run, its stage and its effect. -/
inductive CarrierRun.Sound (run : CarrierRun ρ) : Prop
  | opened (effect : run.effect = none) (state : run.state = .queued)
      (stage : run.stageState = some .ready ∨ run.stageState = some .active)
  | asked (has : run.Has IsUnsettled .queued .active)
  | recorded (has : run.Has IsDone .queued .active)
  | staged (has : run.Has IsDone .queued .completed)
  | canceling (has : run.Has IsDone .cancelRequested .completed)
  | closed (has : run.Has IsDone .canceled .completed)
  | rejected (has : run.Has IsFailed .failed .failed)

namespace CarrierRun

variable {run run' : CarrierRun ρ}

/-- The effect that is there is the one the state is about. -/
theorem Has.of_effect {P : EffectState ρ → Prop} {state : Runs.RunState} {stage : StageState}
    {s : EffectStore ρ} (h : run.Has P state stage) (hs : run.effect = some s) :
    s.effect.effectClass = .mutation ∧ P s.effect.state := by
  obtain ⟨⟨s', hs', hmutation, hP⟩, -, -⟩ := h
  obtain rfl := Option.some.inj (hs.symm.trans hs')
  exact ⟨hmutation, hP⟩

theorem Has.effect_ne_none {P : EffectState ρ → Prop} {state : Runs.RunState}
    {stage : StageState} (h : run.Has P state stage) : run.effect ≠ none := by
  obtain ⟨⟨s, hs, -⟩, -, -⟩ := h
  rw [hs]
  exact Option.some_ne_none s

/-- A run without an effect was only opened. -/
theorem Sound.of_no_effect (h : run.Sound) (hnone : run.effect = none) :
    run.state = .queued ∧ (run.stageState = some .ready ∨ run.stageState = some .active) := by
  cases h with
  | opened _ hstate hstage => exact ⟨hstate, hstage⟩
  | asked has => exact absurd hnone has.effect_ne_none
  | recorded has => exact absurd hnone has.effect_ne_none
  | staged has => exact absurd hnone has.effect_ne_none
  | canceling has => exact absurd hnone has.effect_ne_none
  | closed has => exact absurd hnone has.effect_ne_none
  | rejected has => exact absurd hnone has.effect_ne_none

private theorem not_unsettled_of_completed {state : EffectState ρ} (h : IsDone state) :
    ¬IsUnsettled state := by
  cases state <;> simp_all [IsDone, isCompleted, IsUnsettled]

private theorem not_unsettled_of_failed {state : EffectState ρ} (h : IsFailed state) :
    ¬IsUnsettled state := by
  cases state <;> simp_all [IsFailed, IsUnsettled]

/-- The run of an effect that is not settled is queued and its stage active. -/
theorem Sound.of_unsettled {s : EffectStore ρ} (h : run.Sound) (hs : run.effect = some s)
    (hunsettled : IsUnsettled s.effect.state) :
    run.state = .queued ∧ run.stageState = some .active ∧ s.effect.effectClass = .mutation := by
  cases h with
  | opened heffect =>
      rw [heffect] at hs
      cases hs
  | asked has => exact ⟨has.state, has.stage, (has.of_effect hs).1⟩
  | recorded has => exact absurd hunsettled (not_unsettled_of_completed (has.of_effect hs).2)
  | staged has => exact absurd hunsettled (not_unsettled_of_completed (has.of_effect hs).2)
  | canceling has => exact absurd hunsettled (not_unsettled_of_completed (has.of_effect hs).2)
  | closed has => exact absurd hunsettled (not_unsettled_of_completed (has.of_effect hs).2)
  | rejected has => exact absurd hunsettled (not_unsettled_of_failed (has.of_effect hs).2)

/-- The run of a failed effect has failed with its stage. -/
theorem Sound.of_failed {s : EffectStore ρ} {category : Text} (h : run.Sound)
    (hs : run.effect = some s) (hfailed : s.effect.state = .failed category) :
    run.Has IsFailed .failed .failed := by
  have hnot : ¬IsDone s.effect.state := by
    rw [hfailed]
    exact Bool.false_ne_true
  cases h with
  | opened heffect =>
      rw [heffect] at hs
      cases hs
  | asked has =>
      have hunsettled := (has.of_effect hs).2
      rw [hfailed] at hunsettled
      exact hunsettled.elim
  | recorded has => exact absurd (has.of_effect hs).2 hnot
  | staged has => exact absurd (has.of_effect hs).2 hnot
  | canceling has => exact absurd (has.of_effect hs).2 hnot
  | closed has => exact absurd (has.of_effect hs).2 hnot
  | rejected has => exact has

/-- The effect of a sound run is a mutation. -/
theorem Sound.mutation {s : EffectStore ρ} (h : run.Sound) (hs : run.effect = some s) :
    s.effect.effectClass = .mutation := by
  cases h with
  | opened heffect =>
      rw [heffect] at hs
      cases hs
  | asked has => exact (has.of_effect hs).1
  | recorded has => exact (has.of_effect hs).1
  | staged has => exact (has.of_effect hs).1
  | canceling has => exact (has.of_effect hs).1
  | closed has => exact (has.of_effect hs).1
  | rejected has => exact (has.of_effect hs).1

/-! ## The stage -/

/-- Only the workflow of the run is another one. -/
structure SameBut (run' run : CarrierRun ρ) : Prop where
  id : run'.id = run.id
  state : run'.state = run.state
  effect : run'.effect = run.effect

/-- The stage after a move of it. -/
private theorem get?_setStage {w : Instance} {stage : Stage} (state : StageState)
    (hstage : w.stages.get? stageKey = some stage) :
    (w.setStage stageKey state).get? stageKey = some (stage.moved state) := by
  have hkey : stage.stageKey = stageKey := (Table.get?_eq_some.1 hstage).2
  refine (Table.get?_update stageKey).trans ?_
  rw [hstage, Option.map_some, if_pos hkey]

theorem activateStage_eq_ok {inputHash : Text}
    (h : run.activateStage readings inputHash = .ok run') :
    run'.SameBut run ∧ run'.stageState = some .active := by
  simp only [activateStage, bind_eq_ok, pure_eq_ok] at h
  obtain ⟨_, -, workflow, hactivate, rfl⟩ := h
  refine ⟨⟨rfl, rfl, rfl⟩, ?_⟩
  obtain ⟨stage, hstage, -, rfl⟩ := activate_spec hactivate
  have hkey : stage.stageKey = stageKey := (Table.get?_eq_some.1 hstage).2
  simp only [stageState, Table.get?_update, hstage, Option.map_some, hkey, if_true, Stage.moved]

theorem createEffect_eq_ok (heffect : run.effect = none) (h : run.createEffect = .ok run') :
    run.stageState = some .active ∧ run'.stageState = run.stageState ∧ run'.state = run.state ∧
      run'.id = run.id ∧ ∃ s, run'.effect = some s ∧ s.effect.effectClass = .mutation ∧
        s.effect.state = .pending := by
  simp only [createEffect, Instance.stageRow, heffect, bind_eq_ok, orRaise_eq_ok, require_eq_ok,
    pure_eq_ok] at h
  obtain ⟨stage, hstage, -, -, -, hactive, rfl⟩ := h
  refine ⟨?_, rfl, rfl, rfl, _, rfl, rfl, rfl⟩
  rw [stageState, hstage, Option.map_some, hactive]

theorem completeStage_eq_ok (h : run.completeStage readings = .ok run') :
    run'.SameBut run ∧ run'.stageState = some .completed := by
  simp only [completeStage, bind_eq_ok, pure_eq_ok] at h
  obtain ⟨_, -, workflow, hcomplete, rfl⟩ := h
  refine ⟨⟨rfl, rfl, rfl⟩, ?_⟩
  obtain ⟨stage, hstage, -, hstages, -⟩ := complete_spec hcomplete
  have hpromoted : (Instance.promoted (run.workflow.setStage stageKey .completed)).get? stageKey =
      some (stage.moved .completed) := by
    refine (Table.get?_update stageKey).trans ?_
    rw [get?_setStage .completed hstage, Option.map_some, if_neg]
    rintro ⟨hpending, -⟩
    cases hpending
  exact congrArg (Option.map Stage.state)
    ((congrArg (Table.get? · stageKey) hstages).trans hpromoted)

theorem settleFailure_eq_ok (hstate : run.state = .queued)
    (h : run.settleFailure readings = .ok run') :
    run'.state = .failed ∧ run'.stageState = some .failed ∧ run'.effect = run.effect ∧
      run'.id = run.id := by
  simp only [settleFailure, bind_eq_ok, hstate] at h
  obtain ⟨workflow, hsettle, h⟩ := h
  rw [if_pos (by decide)] at h
  cases h
  refine ⟨rfl, ?_, rfl, rfl⟩
  obtain ⟨stage, hstage, -, hstages, -⟩ := settleFailure_spec hsettle
  exact congrArg (Option.map Stage.state)
    ((congrArg (Table.get? · stageKey) hstages).trans (get?_setStage .failed hstage))

/-! ## The effect -/

/-- A command about the effect changes nothing else. -/
theorem onEffect_eq_ok {command : EffectStore ρ → Except StoreError (EffectStore ρ × Loaded ρ)}
    {value : Loaded ρ} (h : run.onEffect command = .ok (run', value)) :
    ∃ s s', run.effect = some s ∧ command s = .ok (s', value) ∧
      run' = { run with effect := some s' } := by
  simp only [onEffect, bind_eq_ok, orRaise_eq_ok, pure_eq_ok, Prod.mk.injEq] at h
  obtain ⟨s, hs, ⟨s', _⟩, hcommand, rfl, rfl⟩ := h
  exact ⟨s, s', hs, hcommand, rfl⟩

theorem onEffect_same {command : EffectStore ρ → Except StoreError (EffectStore ρ × Loaded ρ)}
    {value : Loaded ρ} (h : run.onEffect command = .ok (run', value)) :
    run'.id = run.id ∧ run'.state = run.state := by
  obtain ⟨s, s', -, -, rfl⟩ := onEffect_eq_ok h
  exact ⟨rfl, rfl⟩

/-- A run whose effect is not settled, after a command that puts the effect in another state. -/
theorem Sound.setEffect {P : EffectState ρ → Prop} {s s' : EffectStore ρ} (h : run.Sound)
    (hs : run.effect = some s) (hunsettled : IsUnsettled s.effect.state)
    (hclass : s'.effect.effectClass = s.effect.effectClass) (hP : P s'.effect.state) :
    ({ run with effect := some s' } : CarrierRun ρ).Has P .queued .active := by
  obtain ⟨hstate, hstage, hmutation⟩ := h.of_unsettled hs hunsettled
  exact ⟨⟨s', rfl, hclass.trans hmutation, hP⟩, hstate, hstage⟩

private theorem isUnsettled_claimed {s : EffectStore ρ}
    (h : ∃ owner expiresAt, s.effect.state = .claimed owner expiresAt) :
    IsUnsettled s.effect.state := by
  obtain ⟨owner, expiresAt, hstate⟩ := h
  rw [hstate]
  trivial

private theorem isUnsettled_reconciling {s : EffectStore ρ}
    (h : ∃ owner expiresAt, s.effect.state = .reconciling owner expiresAt) :
    IsUnsettled s.effect.state := by
  obtain ⟨owner, expiresAt, hstate⟩ := h
  rw [hstate]
  trivial

variable {effectReadings : Workflow.Readings} {worker : Text} {seconds : ℤ} {fence : Fence}
  {value : Loaded ρ}

theorem Sound.claimEffect (hsound : run.Sound)
    (h : run.onEffect (fun s => s.claimWorkflowEffect effectReadings worker seconds) =
      .ok (run', value)) :
    run'.Has IsUnsettled .queued .active := by
  obtain ⟨s, s', hs, hclaim, rfl⟩ := onEffect_eq_ok h
  obtain ⟨-, hexpired | hpending⟩ :=
    EffectStore.claimWorkflowEffect_eq_ok (hsound.mutation hs) hclaim
  · obtain ⟨hclaimed, rfl⟩ := hexpired
    exact hsound.setEffect hs (isUnsettled_claimed hclaimed) rfl trivial
  · obtain ⟨hpending, owner, expiresAt, rfl⟩ := hpending
    refine hsound.setEffect hs ?_ rfl trivial
    rw [hpending]
    trivial

theorem Sound.claimReconciliation (hsound : run.Sound)
    (h : run.onEffect (fun s => s.claimWorkflowEffectReconciliation effectReadings worker seconds) =
      .ok (run', value)) :
    run'.Has IsUnsettled .queued .active := by
  obtain ⟨s, s', hs, hclaim, rfl⟩ := onEffect_eq_ok h
  obtain ⟨-, hstate, owner, expiresAt, rfl⟩ :=
    EffectStore.claimWorkflowEffectReconciliation_eq_ok hclaim
  refine hsound.setEffect hs ?_ rfl trivial
  rcases hstate with hunknown | hreconciling
  · rw [hunknown]
    trivial
  · exact isUnsettled_reconciling hreconciling

theorem Sound.completeEffect {result : ρ} (hsound : run.Sound)
    (h : run.onEffect (fun s => s.completeWorkflowEffect effectReadings fence result) =
      .ok (run', value)) :
    run'.Has IsDone .queued .active := by
  obtain ⟨s, s', hs, hcomplete, rfl⟩ := onEffect_eq_ok h
  obtain ⟨hclaim, rfl⟩ := EffectStore.completeWorkflowEffect_eq_ok hcomplete
  exact hsound.setEffect hs (isUnsettled_claimed hclaim.claimed) rfl rfl

theorem Sound.markUnknown (hsound : run.Sound)
    (h : run.onEffect (fun s => s.markWorkflowEffectOutcomeUnknown fence) = .ok (run', value)) :
    run'.Has IsUnsettled .queued .active := by
  obtain ⟨s, s', hs, hmark, rfl⟩ := onEffect_eq_ok h
  obtain ⟨hclaim, rfl⟩ := EffectStore.markWorkflowEffectOutcomeUnknown_eq_ok hmark
  exact hsound.setEffect hs (isUnsettled_claimed hclaim.claimed) rfl trivial

/-- A reconciliation completes the effect, or leaves it unsettled. -/
theorem Sound.completeReconciliation {disposition : Disposition ρ} (hsound : run.Sound)
    (h : run.onEffect (fun s =>
        s.completeWorkflowEffectReconciliation effectReadings fence disposition) =
      .ok (run', value)) :
    run'.Sound ∧ run'.state = .queued := by
  obtain ⟨s, s', hs, hcomplete, rfl⟩ := onEffect_eq_ok h
  obtain ⟨hclaim, rfl⟩ := EffectStore.completeWorkflowEffectReconciliation_eq_ok hcomplete
  have hunsettled := isUnsettled_reconciling hclaim.reconciling
  refine ⟨?_, (hsound.of_unsettled hs hunsettled).1⟩
  cases disposition with
  | committed result => exact .recorded (hsound.setEffect hs hunsettled rfl rfl)
  | notFound => exact .asked (hsound.setEffect hs hunsettled rfl trivial)
  | unknown => exact .asked (hsound.setEffect hs hunsettled rfl trivial)

/-- A rejection of the effect settles its stage and its run. -/
theorem Sound.rejectEffect {category : Text} (hsound : run.Sound)
    (h : run.rejectEffect readings fence category = .ok run') :
    run'.Has IsFailed .failed .failed ∧ run'.id = run.id ∧ run.state = .queued := by
  simp only [CarrierRun.rejectEffect, bind_eq_ok] at h
  obtain ⟨⟨rejected, _⟩, hreject, h⟩ := h
  obtain ⟨s, s', hs, hcommand, rfl⟩ := onEffect_eq_ok hreject
  obtain ⟨hclaim, _, rfl⟩ := EffectStore.rejectWorkflowEffect_eq_ok hcommand
  have hunsettled : IsUnsettled s.effect.state := by
    rcases hclaim with hclaim | hclaim
    · exact isUnsettled_claimed hclaim.claimed
    · exact isUnsettled_reconciling hclaim.reconciling
  obtain ⟨hstate, hstage, hmutation⟩ := hsound.of_unsettled hs hunsettled
  rw [if_neg (by rw [hstate]; decide)] at h
  obtain ⟨hstate', hstage', heffect, hid⟩ := settleFailure_eq_ok (by exact hstate) h
  exact ⟨⟨⟨_, heffect, hmutation, trivial⟩, hstate', hstage'⟩, hid, hstate⟩

end CarrierRun

/-! ## The thread -/

/-- The run is the only one of the thread, which has let go of it when it is over. -/
structure CarrierThread.Carries (thread : CarrierThread ρ) (run : CarrierRun ρ) : Prop where
  rows : thread.runs.rows = [run]
  active : thread.activeRunId = if run.state.isTerminal then none else some run.id

/-- The thread has no run yet, or one. -/
inductive CarrierThread.Sound (thread : CarrierThread ρ) : Prop
  | empty (rows : thread.runs.rows = []) (active : thread.activeRunId = none)
  | one (run : CarrierRun ρ) (carries : thread.Carries run) (sound : run.Sound)

namespace CarrierThread

variable {thread thread' : CarrierThread ρ} {run run' : CarrierRun ρ} {runId attemptId : ℕ}

theorem sound_new : (new : CarrierThread ρ).Sound := .empty rfl rfl

/-- The run that a sound thread is asked for is its only one. -/
theorem Sound.carries (h : thread.Sound) (hrun : thread.run runId = .ok run) :
    thread.Carries run ∧ run.Sound := by
  rw [CarrierThread.run, orRaise_eq_ok, Table.get?_eq_some, Table.mem_def] at hrun
  obtain ⟨hmem, -⟩ := hrun
  cases h with
  | empty hrows =>
      rw [hrows] at hmem
      cases hmem
  | one only carries sound =>
      rw [carries.rows, List.mem_singleton] at hmem
      exact hmem ▸ ⟨carries, sound⟩

/-- A live run changes, and the thread lets go of it when it ends. -/
theorem Carries.putRun (h : thread.Carries run) (hlive : ¬run.state.isTerminal)
    (hid : run'.id = run.id) : (thread.putRun run').Carries run' := by
  have hactive : thread.activeRunId = some run'.id := by rw [h.active, if_neg hlive, hid]
  have hrows : (thread.runs.update (fun row => row.id = run'.id)
      (fun row => { run' with id := row.id }) fun _ => rfl).rows = [run'] := by
    simp only [Table.update, h.rows, List.map_singleton, ← hid, if_true]
  unfold CarrierThread.putRun
  by_cases hterminal : run'.state.isTerminal
  · rw [if_pos ⟨hterminal, hactive⟩]
    exact ⟨hrows, (if_pos hterminal).symm⟩
  · rw [if_neg fun h => hterminal h.1]
    exact ⟨hrows, hactive.trans (if_neg hterminal).symm⟩

/-- The effect that is found is the one of the only run. -/
theorem Sound.existingEffect {s : EffectStore ρ} (h : thread.Sound)
    (hfound : thread.existingEffect = some (run, s)) :
    thread.Carries run ∧ run.Sound ∧ run.effect = some s := by
  unfold CarrierThread.existingEffect listThreadRuns at hfound
  cases h with
  | empty hrows =>
      rw [hrows] at hfound
      cases hfound
  | one only carries sound =>
      rw [carries.rows] at hfound
      simp only [List.reverse_singleton, List.take_succ_cons, List.take_nil,
        List.findSome?_singleton, Option.map_eq_some_iff, Prod.mk.injEq] at hfound
      obtain ⟨s', hs', rfl, rfl⟩ := hfound
      exact ⟨carries, sound, hs'⟩

/-- Where no effect is found, a run that is there has none. -/
theorem Carries.no_effect (h : thread.Carries run) (hnone : thread.existingEffect = none) :
    run.effect = none := by
  unfold CarrierThread.existingEffect listThreadRuns at hnone
  rw [h.rows] at hnone
  simpa only [List.reverse_singleton, List.take_succ_cons, List.take_nil,
    List.findSome?_singleton, Option.map_eq_none_iff] using hnone

/-- The active run is a run of the thread. -/
theorem run_of_activeRun (h : thread.activeRun = .ok (some run)) :
    ∃ runId, thread.run runId = .ok run := by
  unfold activeRun at h
  split at h
  · cases h
  · rename_i runId _
    cases hrun : thread.run runId with
    | error error =>
        rw [hrun] at h
        cases h
    | ok active =>
        rw [hrun] at h
        cases h
        exact ⟨runId, hrun⟩

/-- The only run is the active one while it lasts. -/
theorem Carries.activeRun (h : thread.Carries run) (hlive : ¬run.state.isTerminal) :
    thread.activeRun = .ok (some run) := by
  have hactive : thread.activeRunId = some run.id := by rw [h.active, if_neg hlive]
  have hrun : thread.run run.id = .ok run := by
    rw [CarrierThread.run, orRaise_eq_ok, Table.get?_eq_some, Table.mem_def, h.rows]
    exact ⟨List.mem_singleton_self run, rfl⟩
  simp only [CarrierThread.activeRun, hactive, hrun]
  rfl

/-- A thread without an effect and without a live run has no run at all. -/
theorem Sound.no_run {active : Option (CarrierRun ρ)} (h : thread.Sound)
    (hnone : thread.existingEffect = none) (hactive : thread.activeRun = .ok active)
    (hended : ∀ run ∈ active, run.state.isTerminal) : thread.runs.rows = [] := by
  cases h with
  | empty hrows => exact hrows
  | one only carries sound =>
      have heffect := carries.no_effect hnone
      have hlive : ¬only.state.isTerminal := by
        rw [(sound.of_no_effect heffect).1]
        decide
      have hsame := Except.ok.inj (hactive.symm.trans (carries.activeRun hlive))
      exact absurd (hended only hsame) hlive

/-- A new run on a thread without any. -/
theorem createRun_eq_ok (hrows : thread.runs.rows = [])
    (h : thread.createRun runId attemptId = .ok thread') : thread'.Sound := by
  simp only [createRun, bind_eq_ok, require_eq_ok, orRaise_eq_ok, pure_eq_ok] at h
  obtain ⟨_, -, -, -, runs, hinsert, rfl⟩ := h
  obtain ⟨hinserted, -⟩ := Table.rows_insert hinsert
  rw [hrows, List.nil_append] at hinserted
  exact .one _ ⟨hinserted, rfl⟩ (.opened rfl rfl (.inl rfl))

end CarrierThread

end Cortex.Consumer
