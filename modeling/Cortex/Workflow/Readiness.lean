import Cortex.Library.Trace
import Cortex.Workflow.Stages

/-!
# Which stages are ready, and which one is current

In every run of a workflow a stage is pending exactly as long as one of its dependencies is not
completed, the completed stages are closed under dependencies, and the workflow is completed
exactly when all its stages are (`Sound`).

`current_stage_key` is not as steady.  A completion names the first ready stage, and none where
no stage is ready: a stage that is still active beside the completed one is then forgotten,
while the workflow is running.  A decision that is resolved sets the workflow running whatever
its current stage is.  `Steady` says of a call that it does neither, and that is exactly what
keeps a running workflow at a stage to go on with.
-/

namespace Cortex.Workflow

open Control Transaction

variable {definition : WorkflowDefinition} {w w' : Instance} {call : StageCall}
  {stageKey : Text} {stage row : Stage} {stages : Table Stage}

/-! ## What is claimed of a workflow -/

/-- The stage of this key is completed. -/
def Instance.Done (w : Instance) (key : Text) : Prop :=
  ∃ stage ∈ w.stages, stage.stageKey = key ∧ stage.state = .completed

/-- The current stage is one to go on with, or there is none because all are completed. -/
def Instance.GoesOn (w : Instance) : Prop :=
  match w.currentStageKey with
  | none => ∀ stage ∈ w.stages, stage.state = .completed
  | some key => ∃ stage ∈ w.stages, stage.stageKey = key ∧
      (stage.state = .ready ∨ stage.state = .active) ∧ ∀ dep ∈ stage.dependencies, w.Done dep

/-- The keys and dependencies of the stages are those of the definition. -/
def Instance.Follows (w : Instance) (definition : WorkflowDefinition) : Prop :=
  w.stages.rows.map (fun stage => (stage.stageKey, stage.dependencies)) =
    definition.stages.map fun stage => (stage.key, stage.dependencies)

structure Consistent (definition : WorkflowDefinition) (w : Instance) : Prop where
  follows : w.Follows definition
  pending : ∀ stage ∈ w.stages, stage.state = .pending ↔ ∃ key ∈ stage.dependencies, ¬ w.Done key
  closed : ∀ stage ∈ w.stages, stage.state = .completed →
    ∀ key ∈ stage.dependencies, w.Done key
  completed : w.state = .completed ↔ ∀ stage ∈ w.stages, stage.state = .completed
  current : w.state = .running → w.GoesOn

/-- The state in which a command leaves no running workflow without a stage to go on with: a
completion leaves a ready stage or nothing at all, and a resolved decision finds its own stage,
or another one to go on with, as the current one. -/
def StageCommand.Steady (w : Instance) : StageCommand → Prop
  | .complete stageKey _ _ =>
      (∃ row ∈ w.stages, row.state = .ready) ∨
        (∃ row ∈ w.stages, row.state = .pending ∧
          ∀ key ∈ row.dependencies, key = stageKey ∨ w.Done key) ∨
        ∀ row ∈ w.stages, row.stageKey ≠ stageKey → row.state = .completed
  | .resolveDecision stageKey =>
      ∃ row ∈ w.stages, w.currentStageKey = some row.stageKey ∧
        (row.stageKey = stageKey ∨ row.state = .ready ∨ row.state = .active)
  | _ => True

/-- The call is refused, or its command is steady. -/
def Steady (w : Instance) (call : StageCall) : Prop :=
  ∀ w', w.exec call = .ok w' → call.command.Steady w

/-! ## The invariant of every run -/

structure Sound (definition : WorkflowDefinition) (w : Instance) : Prop where
  follows : w.Follows definition
  pending : ∀ stage ∈ w.stages, stage.state = .pending ↔ ¬ DependenciesCompleted w.stages stage
  completed : w.state = .completed ↔ ∀ stage ∈ w.stages, stage.state = .completed

/-- A dependency has a row. -/
theorem Preceding.known {known : List Text} {stages : List StageDefinition}
    (h : Preceding known stages) {stage : StageDefinition} (hstage : stage ∈ stages) {key : Text}
    (hkey : key ∈ stage.dependencies) : key ∈ known ∨ key ∈ stages.map StageDefinition.key := by
  induction stages generalizing known with
  | nil => cases hstage
  | cons first rest ih =>
      obtain ⟨hfirst, hrest⟩ := h
      rcases List.mem_cons.1 hstage with rfl | hstage
      · exact .inl (hfirst hkey)
      · rcases ih hrest hstage with hknown | hlater
        · rcases List.mem_cons.1 hknown with rfl | hknown
          · exact .inr (.head _)
          · exact .inl hknown
        · exact .inr (.tail _ hlater)

theorem Instance.Follows.has_row (h : w.Follows definition) (hstage : stage ∈ w.stages) {key : Text}
    (hkey : key ∈ stage.dependencies) : ∃ row ∈ w.stages, row.stageKey = key := by
  have hpair : (stage.stageKey, stage.dependencies) ∈
      definition.stages.map fun stage => (stage.key, stage.dependencies) := by
    rw [← h]
    exact List.mem_map_of_mem hstage
  obtain ⟨defined, hdefined, heq⟩ := List.mem_map.1 hpair
  have hdependency : key ∈ defined.dependencies := by
    rw [show defined.dependencies = stage.dependencies from (Prod.ext_iff.1 heq).2]
    exact hkey
  rcases definition.preceding.known hdefined hdependency with hnone | hmem
  · cases hnone
  have hkeys : definition.stages.map StageDefinition.key = w.stages.rows.map Stage.stageKey := by
    have hfirst := congrArg (List.map Prod.fst) h
    rw [List.map_map, List.map_map] at hfirst
    exact hfirst.symm
  rw [hkeys] at hmem
  exact List.mem_map.1 hmem

/-- The check of `activate_workflow_stage` is that every dependency is completed. -/
theorem Sound.dependenciesCompleted_iff (h : Sound definition w) (hstage : stage ∈ w.stages) :
    DependenciesCompleted w.stages stage ↔ ∀ key ∈ stage.dependencies, w.Done key := by
  constructor
  · intro hcompleted key hkey
    obtain ⟨row, hrow, rfl⟩ := h.follows.has_row hstage hkey
    exact ⟨row, hrow, rfl, hcompleted row hrow hkey⟩
  · intro hdone row hrow hkey
    obtain ⟨row', hrow', heq, hstate⟩ := hdone _ hkey
    rwa [Table.eq_of_key hrow hrow' heq.symm]

theorem Sound.consistent (h : Sound definition w) (hcurrent : w.state = .running → w.GoesOn) :
    Consistent definition w where
  follows := h.follows
  pending := by
    intro stage hstage
    rw [h.pending stage hstage, h.dependenciesCompleted_iff hstage]
    simp only [not_forall, exists_prop]
  closed := by
    intro stage hstage hstate
    refine (h.dependenciesCompleted_iff hstage).1 ?_
    by_contra hpending
    rw [← h.pending stage hstage, hstate] at hpending
    cases hpending
  completed := h.completed
  current := hcurrent

theorem follows_install (definition : WorkflowDefinition) :
    (installWorkflow definition).Follows definition := by
  unfold Instance.Follows installWorkflow
  rw [List.map_map]
  rfl

/-- A stage starts ready or pending. -/
theorem state_of_install (hstage : stage ∈ (installWorkflow definition).stages) :
    stage.dependencies = [] ∧ stage.state = .ready ∨
      stage.dependencies ≠ [] ∧ stage.state = .pending := by
  obtain ⟨defined, -, rfl⟩ := List.mem_map.1 hstage
  by_cases hnone : defined.dependencies = []
  · exact .inl ⟨hnone, if_pos hnone⟩
  · exact .inr ⟨hnone, if_neg hnone⟩

theorem sound_install (definition : WorkflowDefinition) :
    Sound definition (installWorkflow definition) where
  follows := follows_install definition
  pending := by
    intro stage hstage
    rcases state_of_install hstage with ⟨hnone, hready⟩ | ⟨hsome, hpending⟩
    · have hcompleted : DependenciesCompleted (installWorkflow definition).stages stage := by
        intro row _ hkey
        rw [hnone] at hkey
        cases hkey
      rw [hready]
      exact iff_of_false nofun (not_not_intro hcompleted)
    · refine iff_of_true hpending fun hcompleted => ?_
      obtain ⟨key, hkey⟩ := List.exists_mem_of_ne_nil _ hsome
      obtain ⟨row, hrow, rfl⟩ := (follows_install definition).has_row hstage hkey
      have hstate := hcompleted row hrow hkey
      rcases state_of_install hrow with ⟨-, hready⟩ | ⟨-, hpending⟩
      · rw [hready] at hstate
        cases hstate
      · rw [hpending] at hstate
        cases hstate
  completed := by
    refine iff_of_false nofun fun hall => ?_
    obtain ⟨first, hfirst⟩ := List.exists_mem_of_ne_nil _ definition.nonempty
    have hrow : first.row ∈ (installWorkflow definition).stages := List.mem_map_of_mem hfirst
    have hstate := hall _ hrow
    rcases state_of_install hrow with ⟨-, hready⟩ | ⟨-, hpending⟩
    · rw [hready] at hstate
      cases hstate
    · rw [hpending] at hstate
      cases hstate

/-! ## A stage that moves while it is open -/

/-- The rows of `w'` are those of `w`, changed by `g`, which keeps who is pending and who is
completed, and somebody is not. -/
structure Shifts (g : Stage → Stage) (w w' : Instance) : Prop where
  rows : w'.stages.rows = w.stages.rows.map g
  key : ∀ stage, (g stage).stageKey = stage.stageKey
  dependencies : ∀ stage, (g stage).dependencies = stage.dependencies
  pending : ∀ stage ∈ w.stages, (g stage).state = .pending ↔ stage.state = .pending
  completed : ∀ stage ∈ w.stages, (g stage).state = .completed ↔ stage.state = .completed
  unfinished : ∃ stage ∈ w.stages, stage.state ≠ .completed
  state : w'.state ≠ .completed

theorem Instance.Follows.of_rows {g : Stage → Stage} (h : w.Follows definition)
    (hrows : w'.stages.rows = w.stages.rows.map g)
    (hkey : ∀ stage, (g stage).stageKey = stage.stageKey)
    (hdependencies : ∀ stage, (g stage).dependencies = stage.dependencies) :
    w'.Follows definition := by
  unfold Instance.Follows
  rw [hrows, List.map_map, ← h]
  refine List.map_congr_left fun stage _ => ?_
  rw [Function.comp_apply, hkey, hdependencies]

theorem Shifts.dependenciesCompleted {g : Stage → Stage} (h : Shifts g w w') (stage : Stage) :
    DependenciesCompleted w'.stages (g stage) ↔ DependenciesCompleted w.stages stage := by
  unfold DependenciesCompleted
  rw [h.rows, h.dependencies]
  simp only [List.forall_mem_map, h.key]
  refine forall₂_congr fun row hrow => ?_
  rw [h.completed row hrow]

theorem Sound.of_shifts {g : Stage → Stage} (hsound : Sound definition w) (h : Shifts g w w') :
    Sound definition w' where
  follows := hsound.follows.of_rows h.rows h.key h.dependencies
  pending := by
    intro stage' hstage'
    rw [Table.mem_def, h.rows] at hstage'
    obtain ⟨stage, hstage, rfl⟩ := List.mem_map.1 hstage'
    rw [h.pending stage hstage, h.dependenciesCompleted, hsound.pending stage hstage]
  completed := by
    refine iff_of_false h.state fun hall => ?_
    obtain ⟨stage, hstage, hother⟩ := h.unfinished
    refine hother ((h.completed stage hstage).1 (hall _ ?_))
    rw [Table.mem_def, h.rows]
    exact List.mem_map_of_mem hstage

/-- Neither pending nor completed. -/
def StageState.IsOpen (state : StageState) : Prop := state ≠ .pending ∧ state ≠ .completed

/-- One open stage takes another open state. -/
theorem shifts_one {f : Stage → Stage} (hstage : w.stages.get? stageKey = some stage)
    (hrows : w'.stages.rows =
      w.stages.rows.map fun row => if row.stageKey = stageKey then f row else row)
    (hkey : ∀ row, (f row).stageKey = row.stageKey)
    (hdependencies : ∀ row, (f row).dependencies = row.dependencies)
    (hbefore : stage.state.IsOpen) (hafter : (f stage).state.IsOpen)
    (hstate : w'.state ≠ .completed) :
    Shifts (fun row => if row.stageKey = stageKey then f row else row) w w' := by
  obtain ⟨hmem, hkeyed⟩ := Table.get?_eq_some.1 hstage
  have hone : ∀ row ∈ w.stages, row.stageKey = stageKey → row = stage :=
    fun row hrow heq => Table.eq_of_key hrow hmem (heq.trans hkeyed.symm)
  refine ⟨hrows, fun row => ?_, fun row => ?_, fun row hrow => ?_, fun row hrow => ?_,
    ⟨stage, hmem, hbefore.2⟩, hstate⟩
  · split
    · exact hkey row
    · rfl
  · split
    · exact hdependencies row
    · rfl
  · split
    · rename_i heq
      obtain rfl := hone row hrow heq
      exact iff_of_false hafter.1 hbefore.1
    · rfl
  · split
    · rename_i heq
      obtain rfl := hone row hrow heq
      exact iff_of_false hafter.2 hbefore.2
    · rfl

/-! ## What each command does -/

variable {readings : StageReadings} {inputHash : Text} {workflowRevision stageRevision : ℕ}

theorem activate_spec
    (h : w.activateWorkflowStage readings stageKey inputHash workflowRevision stageRevision =
      .ok w') :
    ∃ stage, w.stages.get? stageKey = some stage ∧ stage.state = .ready ∧
      w' = { w with
        stages := w.stages.update (fun row => row.stageKey = stageKey)
          (fun row =>
            { row.moved .active with inputHash := some inputHash, attempt := row.attempt + 1 })
          fun _ => rfl
        state := .running, currentStageKey := some stageKey, revision := w.revision + 1 } := by
  simp only [Instance.activateWorkflowStage, Instance.stageRow, bind_eq_ok, require_eq_ok,
    orRaise_eq_ok, pure_eq_ok] at h
  obtain ⟨-, -, -, -, stage, hstage, -, -, -, -, -, hready, rfl⟩ := h
  exact ⟨stage, hstage, hready, rfl⟩

theorem createDecision_spec
    (h : w.createWorkflowDecision readings stageKey workflowRevision stageRevision = .ok w') :
    w' = w ∨ ∃ stage, w.stages.get? stageKey = some stage ∧ stage.state = .active ∧
      w' = { w with
        stages := w.setStage stageKey .waiting, state := .waiting, revision := w.revision + 1 } := by
  simp only [Instance.createWorkflowDecision, Instance.stageRow, bind_eq_ok, orRaise_eq_ok] at h
  obtain ⟨stage, hstage, h⟩ := h
  cases hexisting : readings.existingDecision with
  | some replay =>
      rw [hexisting] at h
      simp only [bind_eq_ok, pure_eq_ok] at h
      obtain ⟨-, -, rfl⟩ := h
      exact .inl rfl
  | none =>
      rw [hexisting] at h
      simp only [bind_eq_ok, require_eq_ok, pure_eq_ok] at h
      obtain ⟨-, -, -, -, -, -, -, hactive, -, -, rfl⟩ := h
      exact .inr ⟨stage, hstage, hactive.2, rfl⟩

theorem resolveDecision_spec (h : w.resolveDecision readings stageKey = .ok w') :
    ∃ stage, w.stages.get? stageKey = some stage ∧ stage.state = .waiting ∧
      w' = { w with
        stages := w.setStage stageKey .active, state := .running, revision := w.revision + 1 } := by
  simp only [Instance.resolveDecision, Instance.stageRow, bind_eq_ok, require_eq_ok,
    orRaise_eq_ok, pure_eq_ok] at h
  obtain ⟨stage, hstage, -, -, -, hwaiting, rfl⟩ := h
  exact ⟨stage, hstage, hwaiting, rfl⟩

theorem settleFailure_spec (h : w.settleWorkflowFailure readings stageKey = .ok w') :
    ∃ stage, w.stages.get? stageKey = some stage ∧
      (stage.state = .active ∨ stage.state = .waiting) ∧
      w'.stages = w.setStage stageKey .failed ∧
      (w'.state = .failed ∨ w'.state = w.state ∧ (w.state = .completed ∨ w.state = .failed)) := by
  simp only [Instance.settleWorkflowFailure, Instance.stageRow, bind_eq_ok, require_eq_ok,
    orRaise_eq_ok] at h
  obtain ⟨stage, hstage, -, -, -, hopen, h⟩ := h
  refine ⟨stage, hstage, hopen, ?_⟩
  split at h
  · cases h
    exact ⟨rfl, .inl rfl⟩
  · rename_i hsettled
    cases h
    refine ⟨rfl, .inr ⟨rfl, ?_⟩⟩
    cases hstate : w.state with
    | completed => exact .inl rfl
    | failed => exact .inr rfl
    | running => exact absurd (.inl hstate) hsettled
    | waiting => exact absurd (.inr (.inl hstate)) hsettled
    | manualRecovery => exact absurd (.inr (.inr hstate)) hsettled

theorem complete_spec
    (h : w.completeWorkflowStage readings stageKey workflowRevision stageRevision = .ok w') :
    ∃ stage, w.stages.get? stageKey = some stage ∧ stage.state = .active ∧
      w'.stages = Instance.promoted (w.setStage stageKey .completed) ∧
      w'.state = (if (w'.stages.rowcount fun row => row.state ≠ .completed) = 0 then
        WorkflowState.completed else .running) ∧
      w'.currentStageKey =
        (w'.stages.rows.find? fun row => row.state = .ready).map Stage.stageKey := by
  simp only [Instance.completeWorkflowStage, Instance.stageRow, bind_eq_ok, require_eq_ok,
    orRaise_eq_ok, pure_eq_ok] at h
  obtain ⟨-, -, -, -, stage, hstage, -, -, -, hactive, -, -, rfl⟩ := h
  exact ⟨stage, hstage, hactive, rfl, rfl, rfl⟩

/-! ## A completion -/

/-- Every dependency of the row is the stage of this key or is completed. -/
def Unblocked (w : Instance) (stageKey : Text) (row : Stage) : Prop :=
  ∀ dep ∈ w.stages, dep.stageKey ∈ row.dependencies → dep.stageKey = stageKey ∨
    dep.state = .completed

/-- What a completion makes of a row. -/
def finished (w : Instance) (stageKey : Text) (row : Stage) : Stage :=
  if row.stageKey = stageKey then row.moved .completed
  else if row.state = .pending ∧ DependenciesCompleted (w.setStage stageKey .completed) row then
    { row with state := .ready }
  else row

theorem rows_promoted (w : Instance) (stageKey : Text) :
    (Instance.promoted (w.setStage stageKey .completed)).rows =
      w.stages.rows.map (finished w stageKey) := by
  change ((w.stages.rows.map fun row => if row.stageKey = stageKey then row.moved .completed
    else row).map fun row =>
      if row.state = .pending ∧ DependenciesCompleted (w.setStage stageKey .completed) row then
        { row with state := .ready }
      else row) = _
  rw [List.map_map]
  refine List.map_congr_left fun row _ => ?_
  unfold finished
  rw [Function.comp_apply]
  split
  · exact if_neg fun h => StageState.noConfusion h.1
  · rfl

theorem dependenciesCompleted_setStage :
    DependenciesCompleted (w.setStage stageKey .completed) row ↔ Unblocked w stageKey row := by
  have hrows : (w.setStage stageKey .completed).rows = w.stages.rows.map
      fun row => if row.stageKey = stageKey then row.moved .completed else row := rfl
  unfold DependenciesCompleted Unblocked
  rw [hrows, List.forall_mem_map]
  refine forall₂_congr fun dep _ => ?_
  split
  · rename_i heq
    simp [Stage.moved, heq]
  · rename_i hne
    simp [hne]

@[simp] theorem finished_key (row : Stage) :
    (finished w stageKey row).stageKey = row.stageKey := by
  unfold finished
  split
  · rfl
  · split
    · rfl
    · rfl

@[simp] theorem finished_dependencies (row : Stage) :
    (finished w stageKey row).dependencies = row.dependencies := by
  unfold finished
  split
  · rfl
  · split
    · rfl
    · rfl

theorem finished_completed :
    (finished w stageKey row).state = .completed ↔
      row.stageKey = stageKey ∨ row.state = .completed := by
  unfold finished
  split
  · rename_i heq
    exact iff_of_true rfl (.inl heq)
  · rename_i hne
    rw [or_iff_right hne]
    split
    · rename_i hpending
      rw [hpending.1]
      exact iff_of_false nofun nofun
    · rfl

theorem finished_pending :
    (finished w stageKey row).state = .pending ↔
      row.stageKey ≠ stageKey ∧ row.state = .pending ∧ ¬ Unblocked w stageKey row := by
  rw [← dependenciesCompleted_setStage]
  unfold finished
  split
  · rename_i heq
    exact iff_of_false nofun fun h => h.1 heq
  · rename_i hne
    rw [and_iff_right hne]
    split
    · rename_i hready
      exact iff_of_false nofun fun h => h.2 hready.2
    · rename_i hready
      rw [not_and] at hready
      exact ⟨fun hpending => ⟨hpending, hready hpending⟩, fun h => h.1⟩

theorem finished_ready :
    (finished w stageKey row).state = .ready ↔
      row.stageKey ≠ stageKey ∧
        (row.state = .ready ∨ row.state = .pending ∧ Unblocked w stageKey row) := by
  rw [← dependenciesCompleted_setStage]
  unfold finished
  split
  · rename_i heq
    exact iff_of_false nofun fun h => h.1 heq
  · rename_i hne
    rw [and_iff_right hne]
    split
    · rename_i hready
      exact iff_of_true rfl (.inr hready)
    · rename_i hready
      exact (or_iff_left hready).symm

theorem dependenciesCompleted_finished
    (hrows : w'.stages.rows = w.stages.rows.map (finished w stageKey)) :
    DependenciesCompleted w'.stages (finished w stageKey row) ↔ Unblocked w stageKey row := by
  unfold DependenciesCompleted Unblocked
  rw [hrows, List.forall_mem_map, finished_dependencies]
  refine forall₂_congr fun dep _ => ?_
  rw [finished_key, finished_completed]

theorem Sound.unblocked_iff (h : Sound definition w) (hrow : row ∈ w.stages) :
    Unblocked w stageKey row ↔ ∀ key ∈ row.dependencies, key = stageKey ∨ w.Done key := by
  constructor
  · intro hunblocked key hkey
    obtain ⟨dep, hdep, rfl⟩ := h.follows.has_row hrow hkey
    exact (hunblocked dep hdep hkey).imp_right fun hstate => ⟨dep, hdep, rfl, hstate⟩
  · intro hdone dep hdep hkey
    refine (hdone _ hkey).imp_right ?_
    rintro ⟨row', hrow', heq, hstate⟩
    rwa [Table.eq_of_key hdep hrow' heq.symm]

/-- The state that a completion writes says whether a stage is left. -/
theorem completed_iff_rowcount {count : ℕ}
    (hcount : count = stages.rowcount fun row => row.state ≠ .completed) :
    (if count = 0 then WorkflowState.completed else .running) = .completed ↔
      ∀ row ∈ stages, row.state = .completed := by
  have hzero : count = 0 ↔ ∀ row ∈ stages, row.state = .completed := by
    rw [hcount, Table.rowcount, List.countP_eq_zero]
    refine forall₂_congr fun row _ => ?_
    simp
  rw [← hzero]
  split
  · rename_i h
    exact iff_of_true rfl h
  · rename_i h
    exact iff_of_false (fun hstate => WorkflowState.noConfusion hstate) h

theorem Sound.complete (h : Sound definition w) (hstage : w.stages.get? stageKey = some stage)
    (hactive : stage.state = .active)
    (hrows : w'.stages.rows = w.stages.rows.map (finished w stageKey))
    (hstate : w'.state = (if (w'.stages.rowcount fun row => row.state ≠ .completed) = 0 then
      WorkflowState.completed else .running)) : Sound definition w' where
  follows := h.follows.of_rows hrows finished_key finished_dependencies
  pending := by
    intro row' hrow'
    rw [Table.mem_def, hrows] at hrow'
    obtain ⟨row, hrow, rfl⟩ := List.mem_map.1 hrow'
    rw [dependenciesCompleted_finished hrows, finished_pending]
    refine ⟨fun hpending => hpending.2.2, fun hblocked => ?_⟩
    have hpending : row.state = .pending := by
      rw [h.pending row hrow]
      exact fun hcompleted => hblocked fun dep hdep hkey => .inr (hcompleted dep hdep hkey)
    refine ⟨fun heq => ?_, hpending, hblocked⟩
    obtain ⟨hmem, hkeyed⟩ := Table.get?_eq_some.1 hstage
    obtain rfl := Table.eq_of_key hrow hmem (heq.trans hkeyed.symm)
    rw [hpending] at hactive
    cases hactive
  completed := by
    rw [hstate]
    exact completed_iff_rowcount rfl

/-- What moves a stage while it is open is sound, whichever command it is. -/
theorem Sound.after (h : Sound definition w) (call : StageCall) :
    Sound definition (w.after call) := by
  unfold Instance.after
  cases hexec : w.exec call with
  | error error => exact h
  | ok w' =>
      obtain ⟨command, readings⟩ := call
      cases command with
      | activate stageKey inputHash workflowRevision stageRevision =>
          obtain ⟨stage, hstage, hready, rfl⟩ := activate_spec hexec
          refine h.of_shifts (shifts_one hstage rfl (fun _ => rfl) (fun _ => rfl) ?_ ?_ nofun)
          · rw [hready]
            exact ⟨nofun, nofun⟩
          · exact ⟨nofun, nofun⟩
      | createDecision stageKey workflowRevision stageRevision =>
          rcases createDecision_spec hexec with rfl | ⟨stage, hstage, hactive, rfl⟩
          · exact h
          · refine h.of_shifts (shifts_one hstage rfl (fun _ => rfl) (fun _ => rfl) ?_ ?_ nofun)
            · rw [hactive]
              exact ⟨nofun, nofun⟩
            · exact ⟨nofun, nofun⟩
      | resolveDecision stageKey =>
          obtain ⟨stage, hstage, hwaiting, rfl⟩ := resolveDecision_spec hexec
          refine h.of_shifts (shifts_one hstage rfl (fun _ => rfl) (fun _ => rfl) ?_ ?_ nofun)
          · rw [hwaiting]
            exact ⟨nofun, nofun⟩
          · exact ⟨nofun, nofun⟩
      | settleFailure stageKey =>
          obtain ⟨stage, hstage, hopen, hstages, hstate⟩ := settleFailure_spec hexec
          have hbefore : stage.state.IsOpen := by
            rcases hopen with hopen | hopen
            · rw [hopen]
              exact ⟨nofun, nofun⟩
            · rw [hopen]
              exact ⟨nofun, nofun⟩
          have hunfinished : w.state ≠ .completed := fun hcompleted =>
            hbefore.2 (h.completed.1 hcompleted stage (Table.get?_eq_some.1 hstage).1)
          refine h.of_shifts (shifts_one (f := Stage.moved .failed) hstage ?_ (fun _ => rfl)
            (fun _ => rfl) hbefore ⟨nofun, nofun⟩ ?_)
          · rw [hstages]
            rfl
          · rcases hstate with hfailed | ⟨hsame, -⟩
            · rw [hfailed]
              nofun
            · rw [hsame]
              exact hunfinished
      | complete stageKey workflowRevision stageRevision =>
          obtain ⟨stage, hstage, hactive, hstages, hstate, -⟩ := complete_spec hexec
          refine h.complete hstage hactive ?_ hstate
          rw [hstages, rows_promoted]

/-! ## The current stage -/

/-- An open stage that is there keeps a workflow from having no current stage. -/
theorem goesOn_iff (h : Sound definition w) (hopen : stage ∈ w.stages)
    (hstate : stage.state ≠ .completed) :
    w.GoesOn ↔ ∃ row ∈ w.stages, w.currentStageKey = some row.stageKey ∧
      (row.state = .ready ∨ row.state = .active) := by
  unfold Instance.GoesOn
  cases w.currentStageKey with
  | none =>
      refine iff_of_false (fun hall => hstate (hall stage hopen)) ?_
      rintro ⟨row, -, hnone, -⟩
      cases hnone
  | some key =>
      constructor
      · rintro ⟨row, hrow, rfl, hready, -⟩
        exact ⟨row, hrow, rfl, hready⟩
      · rintro ⟨row, hrow, hkey, hready⟩
        refine ⟨row, hrow, (Option.some.inj hkey).symm, hready, ?_⟩
        refine (h.dependenciesCompleted_iff hrow).1 ?_
        by_contra hpending
        rw [← h.pending row hrow] at hpending
        rcases hready with hready | hready
        · rw [hpending] at hready
          cases hready
        · rw [hpending] at hready
          cases hready

theorem exists_row_iff {g : Stage → Stage} {p : Stage → Prop}
    (hrows : w'.stages.rows = w.stages.rows.map g) :
    (∃ row ∈ w'.stages, p row) ↔ ∃ row ∈ w.stages, p (g row) := by
  simp only [Table.mem_def, hrows, List.mem_map, exists_exists_and_eq_and]

/-- A resolved decision sets the workflow running, on its current stage. -/
theorem goesOn_resolve (hsound : Sound definition w')
    (hstage : w.stages.get? stageKey = some stage)
    (hstages : w'.stages = w.setStage stageKey .active)
    (hkey : w'.currentStageKey = w.currentStageKey) :
    w'.GoesOn ↔ (StageCommand.resolveDecision stageKey).Steady w := by
  have hrows : w'.stages.rows = w.stages.rows.map
      fun row => if row.stageKey = stageKey then row.moved .active else row := by
    rw [hstages]
    rfl
  obtain ⟨hmem, hkeyed⟩ := Table.get?_eq_some.1 hstage
  have hopen : stage.moved .active ∈ w'.stages := by
    rw [Table.mem_def, hrows]
    exact List.mem_map.2 ⟨stage, hmem, if_pos hkeyed⟩
  rw [goesOn_iff hsound hopen nofun, hkey, exists_row_iff hrows]
  refine exists_congr fun row => and_congr_right fun _ => ?_
  split
  · rename_i heq
    simp [Stage.moved, heq]
  · rename_i hne
    simp [hne]

/-- A completion leaves a ready stage to go on with, or nothing at all. -/
theorem goesOn_complete (hbefore : Sound definition w) (hsound : Sound definition w')
    (hstage : w.stages.get? stageKey = some stage) (hactive : stage.state = .active)
    (hrows : w'.stages.rows = w.stages.rows.map (finished w stageKey))
    (hcurrent : w'.currentStageKey =
      (w'.stages.rows.find? fun row => row.state = .ready).map Stage.stageKey) :
    (w'.state ≠ .completed → w'.GoesOn) ↔
      (StageCommand.complete stageKey workflowRevision stageRevision).Steady w := by
  have hother : ∀ row ∈ w.stages, row.state ≠ .active → row.stageKey ≠ stageKey := by
    intro row hrow hstate heq
    obtain ⟨hmem, hkeyed⟩ := Table.get?_eq_some.1 hstage
    obtain rfl := Table.eq_of_key hrow hmem (heq.trans hkeyed.symm)
    exact hstate hactive
  have hready : (∃ row ∈ w'.stages, row.state = .ready) ↔
      (∃ row ∈ w.stages, row.state = .ready) ∨ ∃ row ∈ w.stages, row.state = .pending ∧
        ∀ key ∈ row.dependencies, key = stageKey ∨ w.Done key := by
    rw [exists_row_iff hrows]
    simp only [finished_ready]
    constructor
    · rintro ⟨row, hrow, -, hstate | ⟨hpending, hunblocked⟩⟩
      · exact .inl ⟨row, hrow, hstate⟩
      · exact .inr ⟨row, hrow, hpending, (hbefore.unblocked_iff hrow).1 hunblocked⟩
    · rintro (⟨row, hrow, hstate⟩ | ⟨row, hrow, hpending, hdone⟩)
      · exact ⟨row, hrow, hother row hrow (by rw [hstate]; nofun), .inl hstate⟩
      · exact ⟨row, hrow, hother row hrow (by rw [hpending]; nofun),
          .inr ⟨hpending, (hbefore.unblocked_iff hrow).2 hdone⟩⟩
  have hall : w'.state = .completed ↔
      ∀ row ∈ w.stages, row.stageKey ≠ stageKey → row.state = .completed := by
    rw [hsound.completed]
    simp only [Table.mem_def, hrows, List.forall_mem_map, finished_completed,
      Classical.or_iff_not_imp_left]
  rw [StageCommand.Steady, ← or_assoc, ← hready, ← hall]
  constructor
  · intro hgoes
    refine Classical.or_iff_not_imp_right.2 fun hrunning => ?_
    have hleft : ∃ row ∈ w'.stages, row.state ≠ .completed := by
      by_contra hnone
      simp only [not_exists, not_and, not_not] at hnone
      exact hrunning (hsound.completed.2 hnone)
    obtain ⟨row, hrow, hstate⟩ := hleft
    obtain ⟨next, hnext, hkey, -⟩ := (goesOn_iff hsound hrow hstate).1 (hgoes hrunning)
    rw [hcurrent, Option.map_eq_some_iff] at hkey
    obtain ⟨found, hfound, -⟩ := hkey
    exact ⟨found, List.mem_of_find?_eq_some hfound, by simpa using List.find?_some hfound⟩
  · rintro (⟨row, hrow, hstate⟩ | hcompleted) hrunning
    · refine (goesOn_iff hsound hrow (by rw [hstate]; nofun)).2 ?_
      have hfound : (w'.stages.rows.find? fun row => row.state = .ready).isSome = true :=
        List.find?_isSome.2 ⟨row, hrow, decide_eq_true hstate⟩
      obtain ⟨found, hfound⟩ := Option.isSome_iff_exists.1 hfound
      refine ⟨found, List.mem_of_find?_eq_some hfound, ?_,
        .inl (by simpa using List.find?_some hfound)⟩
      rw [hcurrent, hfound]
      rfl
    · exact absurd hcompleted hrunning

/-- The first stage has no dependencies, so a workflow starts with a ready one. -/
theorem goesOn_install (definition : WorkflowDefinition) : (installWorkflow definition).GoesOn := by
  obtain ⟨first, rest, hstages⟩ := List.exists_cons_of_ne_nil definition.nonempty
  have hpreceding := definition.preceding
  rw [hstages] at hpreceding
  have hnone : first.dependencies = [] := List.subset_nil.1 hpreceding.1
  have hkey : (installWorkflow definition).currentStageKey = some first.key := by
    change (definition.stages.find? _).map StageDefinition.key = _
    simp [hstages, hnone]
  have hrow : first.row ∈ (installWorkflow definition).stages := by
    refine List.mem_map_of_mem ?_
    rw [hstages]
    exact .head _
  have hready : first.row.state = .ready := if_pos hnone
  refine (goesOn_iff (sound_install definition) hrow (by rw [hready]; nofun)).2 ?_
  exact ⟨first.row, hrow, hkey, .inl hready⟩

/-- A call keeps a running workflow at a stage to go on with exactly if it is steady. -/
theorem goesOn_after (hsound : Sound definition w) (hgoes : w.state = .running → w.GoesOn)
    (call : StageCall) :
    ((w.after call).state = .running → (w.after call).GoesOn) ↔ Steady w call := by
  have hafter := hsound.after call
  unfold Instance.after at hafter ⊢
  cases hexec : w.exec call with
  | error error =>
      refine iff_of_true hgoes fun w' h => ?_
      rw [hexec] at h
      cases h
  | ok w' =>
      rw [hexec] at hafter
      have hsteady : Steady w call ↔ call.command.Steady w :=
        ⟨fun h => h w' hexec, fun h _ _ => h⟩
      rw [hsteady]
      obtain ⟨command, readings⟩ := call
      dsimp only at hafter ⊢
      cases command with
      | activate stageKey inputHash workflowRevision stageRevision =>
          obtain ⟨stage, hstage, -, rfl⟩ := activate_spec hexec
          obtain ⟨hmem, hkeyed⟩ := Table.get?_eq_some.1 hstage
          refine iff_of_true (fun _ => ?_) trivial
          have hopen := List.mem_map_of_mem (f := fun row : Stage =>
            if row.stageKey = stageKey then
              { row.moved .active with inputHash := some inputHash, attempt := row.attempt + 1 }
            else row) hmem
          rw [if_pos (show stage.stageKey = stageKey from hkeyed)] at hopen
          have hunfinished : StageState.active ≠ .completed := StageState.noConfusion
          refine (goesOn_iff hafter hopen hunfinished).2 ⟨_, hopen, ?_, .inr rfl⟩
          exact congrArg some hkeyed.symm
      | createDecision stageKey workflowRevision stageRevision =>
          rcases createDecision_spec hexec with rfl | ⟨stage, hstage, hactive, rfl⟩
          · exact iff_of_true hgoes trivial
          · exact iff_of_true (fun hstate => WorkflowState.noConfusion hstate) trivial
      | resolveDecision stageKey =>
          obtain ⟨stage, hstage, -, rfl⟩ := resolveDecision_spec hexec
          rw [← goesOn_resolve hafter hstage rfl rfl]
          exact ⟨fun h => h rfl, fun h _ => h⟩
      | settleFailure stageKey =>
          obtain ⟨-, -, -, -, hstate⟩ := settleFailure_spec hexec
          refine iff_of_true (fun hrunning => ?_) trivial
          rw [hrunning] at hstate
          rcases hstate with hfailed | ⟨hsame, hcompleted | hfailed⟩
          · cases hfailed
          · rw [hcompleted] at hsame
            cases hsame
          · rw [hfailed] at hsame
            cases hsame
      | complete stageKey workflowRevision stageRevision =>
          obtain ⟨stage, hstage, hactive, hstages, hstate, hcurrent⟩ := complete_spec hexec
          have hrows : w'.stages.rows = w.stages.rows.map (finished w stageKey) := by
            rw [hstages, rows_promoted]
          rw [← goesOn_complete hsound hafter hstage hactive hrows hcurrent]
          have hrunning : w'.state = .running ↔ w'.state ≠ .completed := by
            rw [hstate]
            split
            · exact iff_of_false (fun hstate => WorkflowState.noConfusion hstate) fun h => h rfl
            · exact iff_of_true rfl fun hstate => WorkflowState.noConfusion hstate
          rw [hrunning]

theorem sound_run (definition : WorkflowDefinition) (calls : List StageCall) :
    Sound definition (runStages definition calls) := by
  induction calls with
  | nil => exact sound_install definition
  | cons call earlier ih => exact ih.after call

/-- Every state of a run is as claimed exactly if every call of it is steady. -/
theorem consistent_iff_steady (definition : WorkflowDefinition) (calls : List StageCall) :
    (∀ earlier, earlier <:+ calls → Consistent definition (runStages definition earlier)) ↔
      Along (fun call earlier => Steady (runStages definition earlier) call) calls := by
  induction calls with
  | nil =>
      refine iff_of_true (fun earlier hsuffix => ?_) trivial
      rw [List.suffix_nil.1 hsuffix]
      exact (sound_install definition).consistent fun _ => goesOn_install definition
  | cons call earlier ih =>
      rw [along_cons, ← ih]
      constructor
      · intro hall
        refine ⟨?_, fun before hsuffix => hall before (hsuffix.trans (List.suffix_cons _ _))⟩
        have hbefore := (hall earlier (List.suffix_cons _ _)).current
        exact (goesOn_after (sound_run definition earlier) hbefore call).1
          (hall _ List.suffix_rfl).current
      · rintro ⟨hsteady, hall⟩ before hsuffix
        rcases List.suffix_cons_iff.1 hsuffix with rfl | hsuffix
        · have hbefore := (hall earlier List.suffix_rfl).current
          refine (sound_run definition (call :: earlier)).consistent ?_
          exact (goesOn_after (sound_run definition earlier) hbefore call).2 hsteady
        · exact hall before hsuffix

/-! ## A stage that is forgotten -/

private def root (key : String) : StageDefinition where
  key := key.toList
  effect := .control
  dependencies := []
  requiredReceipts := []
  requiredResults := []
  checkpoint := false

/-- Two stages without dependencies. -/
def twoRoots : WorkflowDefinition where
  definitionId := "research".toList
  version := 1
  stages := [root "a", root "b"]
  nonempty := List.cons_ne_nil _ _
  unique := by decide
  preceding := by decide

/-- Nothing stands in the way of a command. -/
def unhindered : StageReadings where
  runIsOpen := true
  existingDecision := none
  hasAttempt := true
  resolution := .ok ()
  failure := .ok ()
  completion := .ok ()

/-- Both stages are activated, then the first is completed. -/
def bothActivated : List StageCall :=
  [⟨.complete ['a'] 2 1, unhindered⟩, ⟨.activate ['b'] ['0'] 1 0, unhindered⟩,
    ⟨.activate ['a'] ['0'] 0 0, unhindered⟩]

/-- The workflow is running without a current stage, and its second stage is still active. -/
theorem active_stage_forgotten :
    (WorkflowDefinition.new twoRoots.definitionId twoRoots.version twoRoots.stages).isOk = true ∧
      (∀ stage ∈ twoRoots.stages, stage.check = .ok ()) ∧
      (runStages twoRoots bothActivated).state = .running ∧
      (runStages twoRoots bothActivated).currentStageKey = none ∧
      (runStages twoRoots bothActivated).stages.rows.map Stage.state = [.completed, .active] ∧
      ¬ Consistent twoRoots (runStages twoRoots bothActivated) := by
  have hstates : (runStages twoRoots bothActivated).stages.rows.map Stage.state =
      [.completed, .active] := by decide
  refine ⟨by decide, by decide, by decide, by decide, hstates, fun h => ?_⟩
  have hgoes := h.current (by decide)
  unfold Instance.GoesOn at hgoes
  rw [show (runStages twoRoots bothActivated).currentStageKey = none by decide] at hgoes
  have hall : ∀ state ∈ (runStages twoRoots bothActivated).stages.rows.map Stage.state,
      state = .completed := List.forall_mem_map.2 hgoes
  rw [hstates] at hall
  exact absurd (hall .active (by decide)) nofun

end Cortex.Workflow
