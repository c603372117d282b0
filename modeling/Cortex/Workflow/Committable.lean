import Cortex.Library.PyText
import Cortex.Workflow.Progress
import Cortex.Workflow.Readiness

/-!
# When a satisfied stage can be committed

A stage is satisfied when it is the current one, active, its run open and its requirements covered
by completed effects.  In every reachable state the results of these effects still pass the checks
of the store, and the coordinator lists exactly the references that the store requires
(`completeStage_eq_ok`).  What is left is `Committable`:

* a decision stage has a resolved decision, which its effects do not tell;
* the effects of replaced attempts have come to an end, as soon as one of the active attempt is
  there;
* no two references are the same.  Each result is checked for that by itself, and a lineage query
  only by the ids of its nodes; the store checks all of them, by the object they refer to.

`lineage_query_refused` is a stage that is satisfied and refused for the last of these.
-/

namespace Cortex.Workflow

open Control Transaction

variable {s s' : Progress} {stage : Stage}

/-! ## The invariant -/

/-- Every effect is of a kind that its stage requires, and every result has passed its checks. -/
structure Confirmed (s : Progress) : Prop where
  required : ∀ effect ∈ s.effects, ∀ stage ∈ s.workflow.stages,
    stage.stageKey = effect.stageKey → effect.request.body.effectKind ∈ stage.requiredKinds
  takes : ∀ effect ∈ s.effects, ∀ result, effect.state = .completed result →
    effect.request.body.takes result.body = true
  expected : ∀ effect ∈ s.effects, ∀ result, effect.state = .completed result →
    expectEffectResult s.facts s.run effect .effectCompleted result = .ok ()

/-- Every row has an earlier one of the same key and requirements. -/
def Descends (stages stages' : Table Stage) : Prop :=
  ∀ row' ∈ stages', ∃ row ∈ stages, row.stageKey = row'.stageKey ∧
    row.requiredKinds = row'.requiredKinds

theorem Descends.refl (stages : Table Stage) : Descends stages stages :=
  fun row hrow => ⟨row, hrow, rfl, rfl⟩

theorem Descends.trans {stages stages' stages'' : Table Stage} (h : Descends stages stages')
    (h' : Descends stages' stages'') : Descends stages stages'' := by
  intro row'' hrow''
  obtain ⟨row', hrow', hkey', hkinds'⟩ := h' row'' hrow''
  obtain ⟨row, hrow, hkey, hkinds⟩ := h row' hrow'
  exact ⟨row, hrow, hkey.trans hkey', hkinds.trans hkinds'⟩

theorem descends_update {stages : Table Stage} {p : Stage → Prop} [DecidablePred p]
    {f : Stage → Stage} (hf : ∀ row, Keyed.key (f row) = Keyed.key row)
    (hkinds : ∀ row, (f row).requiredKinds = row.requiredKinds) :
    Descends stages (stages.update p f hf) := by
  intro row' hrow'
  obtain ⟨row, hrow, rfl⟩ := Table.mem_update.1 hrow'
  refine ⟨row, hrow, ?_⟩
  split
  · exact ⟨(hf row).symm, (hkinds row).symm⟩
  · exact ⟨rfl, rfl⟩

theorem descends_setStage (w : Instance) (stageKey : Text) (state : StageState) :
    Descends w.stages (w.setStage stageKey state) := by
  apply descends_update
  intro row
  rfl

theorem descends_promoted (stages : Table Stage) : Descends stages (Instance.promoted stages) := by
  apply descends_update
  intro row
  rfl

/-- No command writes the requirements of a stage. -/
theorem descends_exec {w w' : Instance} {call : StageCall} (h : w.exec call = .ok w') :
    Descends w.stages w'.stages := by
  obtain ⟨command, readings⟩ := call
  cases command with
  | activate =>
      obtain ⟨-, -, -, rfl⟩ := activate_spec h
      apply descends_update
      · intro row
        rfl
      · intro row
        rfl
  | createDecision =>
      rcases createDecision_spec h with rfl | ⟨-, -, -, rfl⟩
      · exact .refl _
      · exact descends_setStage w _ _
  | resolveDecision =>
      obtain ⟨-, -, -, rfl⟩ := resolveDecision_spec h
      exact descends_setStage w _ _
  | settleFailure =>
      obtain ⟨-, -, -, hstages, -⟩ := settleFailure_spec h
      rw [hstages]
      exact descends_setStage w _ _
  | complete =>
      obtain ⟨-, -, -, hstages, -⟩ := complete_spec h
      rw [hstages]
      exact (descends_setStage w _ _).trans (descends_promoted _)

/-- Other rows may change as long as those that results were checked against stay. -/
theorem Confirmed.of_others (h : Confirmed s)
    (hstages : Descends s.workflow.stages s'.workflow.stages)
    (hfacts : s.facts.Keeps s'.facts) (hrun : s'.run.runId = s.run.runId)
    (hworkspace : s'.run.workspaceId = s.run.workspaceId) (heffects : s'.effects = s.effects) :
    Confirmed s' where
  required := by
    rw [heffects]
    intro effect heffect row' hrow' hkey'
    obtain ⟨row, hrow, hkey, hkinds⟩ := hstages row' hrow'
    rw [← hkinds]
    exact h.required effect heffect row hrow (hkey.trans hkey')
  takes := by
    rw [heffects]
    exact h.takes
  expected := by
    rw [heffects]
    intro effect heffect result hstate
    exact expectEffectResult_mono hfacts hrun hworkspace nofun
      (h.expected effect heffect result hstate)

theorem createWorkflowEffect_spec {effectId stageKey effectKey : Text} {request : EffectRequest}
    {workflowRevision stageRevision : ℕ} {inputHash : Text}
    (h : s.createWorkflowEffect effectId stageKey effectKey request workflowRevision stageRevision
      inputHash = .ok s') :
    s' = s ∨ ∃ stage effects effectKey, s.workflow.stages.get? stageKey = some stage ∧
      request.body.effectKind ∈ stage.requiredKinds ∧
      s.effects.insert? { effectId, stageKey, effectKey, request, state := .pending } =
        some effects ∧
      s' = { s with effects } := by
  simp only [Progress.createWorkflowEffect, Instance.stageRow, bind_eq_ok, require_eq_ok,
    orRaise_eq_ok] at h
  obtain ⟨key, -, inputHash, -, stage, hstage, -, -, -, -, -, hkind, hcreated⟩ := h
  split at hcreated
  · simp only [bind_eq_ok, pure_eq_ok] at hcreated
    obtain ⟨-, -, rfl⟩ := hcreated
    exact .inl rfl
  · simp only [bind_eq_ok, orRaise_eq_ok, pure_eq_ok] at hcreated
    obtain ⟨-, -, -, -, -, -, -, -, -, -, -, -, -, -, effects, hinsert, rfl⟩ := hcreated
    exact .inr ⟨stage, effects, key, hstage, hkind, hinsert, rfl⟩

theorem Confirmed.insert {effects : Table EffectCommand} {effect : EffectCommand}
    (h : Confirmed s) (hinsert : s.effects.insert? effect = some effects)
    (hstate : effect.state = .pending) (hstage : s.workflow.stages.get? effect.stageKey = some stage)
    (hkind : effect.request.body.effectKind ∈ stage.requiredKinds) :
    Confirmed { s with effects } where
  required := by
    intro other hother row hrow hkey
    rcases (Table.mem_insert hinsert).1 hother with hother | rfl
    · exact h.required other hother row hrow hkey
    · obtain ⟨hmem, hkeyed⟩ := Table.get?_eq_some.1 hstage
      rwa [Table.eq_of_key hrow hmem (hkey.trans hkeyed.symm)]
  takes := by
    intro other hother result hcompleted
    rcases (Table.mem_insert hinsert).1 hother with hother | rfl
    · exact h.takes other hother result hcompleted
    · rw [hstate] at hcompleted
      cases hcompleted
  expected := by
    intro other hother result hcompleted
    rcases (Table.mem_insert hinsert).1 hother with hother | rfl
    · exact h.expected other hother result hcompleted
    · rw [hstate] at hcompleted
      cases hcompleted

theorem mem_setState {effectId : Text} {state : CommandState} {effect : EffectCommand} :
    effect ∈ (s.setState effectId state).effects ↔ ∃ old ∈ s.effects,
      (if old.effectId = effectId then { old with state } else old) = effect := by
  simp only [Progress.setState, Table.mem_update]

/-- An effect takes a state whose result, if it has one, has passed its checks. -/
theorem Confirmed.setState {effect : EffectCommand} {state : CommandState} (h : Confirmed s)
    (heffect : effect ∈ s.effects)
    (hresult : ∀ result, state = .completed result →
      effect.request.body.takes result.body = true ∧
        expectEffectResult s.facts s.run effect .effectCompleted result = .ok ()) :
    Confirmed (s.setState effect.effectId state) := by
  have hrow : ∀ other ∈ (s.setState effect.effectId state).effects,
      ∃ old ∈ s.effects, old = effect ∧ other = { effect with state } ∨ old = other := by
    intro other hother
    obtain ⟨old, hold, rfl⟩ := mem_setState.1 hother
    refine ⟨old, hold, ?_⟩
    split
    · rename_i hid
      obtain rfl := Table.eq_of_key hold heffect hid
      exact .inl ⟨rfl, rfl⟩
    · exact .inr rfl
  refine ⟨?_, ?_, ?_⟩
  · intro other hother row hrow' hkey
    obtain ⟨old, hold, ⟨rfl, rfl⟩ | rfl⟩ := hrow other hother
    · exact h.required old hold row hrow' hkey
    · exact h.required old hold row hrow' hkey
  · intro other hother result hcompleted
    obtain ⟨old, hold, ⟨rfl, rfl⟩ | rfl⟩ := hrow other hother
    · exact (hresult result hcompleted).1
    · exact h.takes old hold result hcompleted
  · intro other hother result hcompleted
    obtain ⟨old, hold, ⟨rfl, rfl⟩ | rfl⟩ := hrow other hother
    · exact (hresult result hcompleted).2
    · exact h.expected old hold result hcompleted

theorem Confirmed.completeEffect {effectId : Text} {reconciled : Bool} {result : EffectResult}
    (h : Confirmed s) (hexec : s.completeEffect effectId reconciled result = .ok s') :
    Confirmed s' := by
  simp only [Progress.completeEffect, EffectRequest.validateResult, bind_eq_ok, orRaise_eq_ok,
    require_eq_ok, pure_eq_ok] at hexec
  obtain ⟨effect, heffect, -, -, -, ⟨-, -, htakes⟩, ⟨⟩, hexpected, rfl⟩ := hexec
  obtain ⟨hmem, rfl⟩ := Table.get?_eq_some.1 heffect
  refine h.setState hmem fun other hother => ?_
  injection hother with hother
  subst hother
  have htarget : ResultTarget.effectCompleted ≠ .stageCompleted := ResultTarget.noConfusion
  exact ⟨htakes, expectEffectResult_mono (.refl _) rfl rfl (fun h => absurd h htarget) hexpected⟩

theorem Confirmed.moveEffect {effectId : Text} {state : CommandState} (h : Confirmed s)
    (hexec : s.moveEffect effectId state = .ok s') : Confirmed s' := by
  simp only [Progress.moveEffect, bind_eq_ok, orRaise_eq_ok, require_eq_ok, pure_eq_ok] at hexec
  obtain ⟨effect, heffect, -, ⟨-, hopen⟩, rfl⟩ := hexec
  obtain ⟨hmem, rfl⟩ := Table.get?_eq_some.1 heffect
  refine h.setState hmem fun result hcompleted => ?_
  rw [hcompleted] at hopen
  cases hopen

theorem Confirmed.exec {command : ProgressCommand} (h : Confirmed s)
    (hexec : s.exec command = .ok s') : Confirmed s' := by
  cases command with
  | stage call =>
      simp only [Progress.exec, bind_eq_ok, pure_eq_ok] at hexec
      obtain ⟨w, hw, rfl⟩ := hexec
      exact h.of_others (descends_exec hw) (.refl _) rfl rfl rfl
  | createEffect effectId stageKey effectKey request workflowRevision stageRevision inputHash =>
      rcases createWorkflowEffect_spec hexec with
        rfl | ⟨stage, effects, key, hstage, hkind, hinsert, rfl⟩
      · exact h
      · exact h.insert hinsert rfl hstage hkind
  | completeEffect effectId reconciled result => exact h.completeEffect hexec
  | moveEffect effectId state => exact h.moveEffect hexec
  | moveRun activeAttemptId isOpen =>
      simp only [Progress.exec, pure_eq_ok] at hexec
      subst hexec
      exact h.of_others (.refl _) (.refl _) rfl rfl rfl
  | resolve stageKey decisionId choice =>
      simp only [Progress.exec, pure_eq_ok] at hexec
      subst hexec
      exact h.of_others (.refl _) (.refl _) rfl rfl rfl
  | record fact =>
      simp only [Progress.exec, bind_eq_ok, pure_eq_ok] at hexec
      obtain ⟨facts, hfacts, rfl⟩ := hexec
      exact h.of_others (.refl _) (Facts.keeps_record hfacts) rfl rfl rfl

theorem confirmed_run (definition : WorkflowDefinition) (run : RunView) (facts : Facts)
    (commands : List ProgressCommand) :
    Confirmed (runProgress (startProgress definition run facts) commands) := by
  induction commands with
  | nil => exact ⟨nofun, nofun, nofun⟩
  | cons command earlier ih =>
      rw [runProgress]
      split
      · rename_i s' hexec
        exact ih.exec hexec
      · exact ih

/-! ## What the coordinator lists -/

/-- A text that `_required_text` takes as it is. -/
structure IsPlain (value : Text) : Prop where
  nonempty : value ≠ []
  length : value.length ≤ 1000
  printable : ∀ c ∈ value, 32 < c.toNat ∧ c.toNat < 127

theorem strip_of_printable {value : Text} (h : ∀ c ∈ value, 32 < c.toNat ∧ c.toNat < 127) :
    strip value = value := by
  have hspace : ∀ c ∈ value, ¬isSpace c = true := by
    intro c hc
    have hc := h c hc
    rw [isSpace, decide_eq_true_eq]
    omega
  have hkept : ∀ {text : Text}, (∀ c ∈ text, c ∈ value) → text.dropWhile isSpace = text := by
    intro text htext
    cases text with
    | nil => rfl
    | cons c rest => exact List.dropWhile_cons_of_neg (hspace c (htext c (.head _)))
  rw [strip, hkept fun c hc => hc, hkept fun c hc => List.mem_reverse.1 hc, List.reverse_reverse]

theorem IsPlain.requiredText {value : Text} (h : IsPlain value) (name : String) :
    requiredText value name 1000 = .ok value := by
  unfold Control.requiredText
  rw [strip_of_printable h.printable, if_neg]
  rintro (hempty | hlong)
  · exact h.nonempty hempty
  · exact absurd h.length (Nat.not_le.2 hlong)

theorem printable_of_isAlphanum {c : Char} (h : c.isAlphanum = true) :
    32 < c.toNat ∧ c.toNat < 127 := by
  rw [PyText.isAlphanum_iff] at h
  omega

theorem printable_of_isIdentifierStart {c : Char} (h : isIdentifierStart c = true) :
    32 < c.toNat ∧ c.toNat < 127 := by
  refine printable_of_isAlphanum ?_
  simp only [isIdentifierStart, decide_eq_true_eq] at h
  change (c.isUpper || c.isLower || c.isDigit) = true
  rcases h with h | h
  · rw [h, Bool.or_true, Bool.true_or]
  · rw [h, Bool.or_true]

theorem isPlain_of_isIdentifier {value : Text} (h : isIdentifier value = true) :
    IsPlain value := by
  cases value with
  | nil => cases h
  | cons c rest =>
      simp only [isIdentifier, decide_eq_true_eq, List.all_eq_true] at h
      obtain ⟨hstart, hlength, hrest⟩ := h
      refine ⟨nofun, by simp only [List.length_cons]; omega, ?_⟩
      intro d hd
      rcases List.mem_cons.1 hd with rfl | hd
      · exact printable_of_isIdentifierStart hstart
      · rcases hrest d hd with hd | hd
        · exact printable_of_isIdentifierStart hd
        · simp only [List.mem_cons, List.not_mem_nil, or_false] at hd
          rcases hd with rfl | rfl | rfl | rfl <;> decide

theorem EngineReference.isPlain (reference : EngineReference) : IsPlain reference.value := by
  obtain ⟨kind, value, hvalid⟩ := reference
  simp only [isEngineRef, Bool.and_eq_true] at hvalid
  obtain ⟨hhead, hrest⟩ := hvalid
  obtain ⟨rest, rfl⟩ := List.isPrefixOf_iff_prefix.1 hhead
  rw [List.drop_left] at hrest
  have hstart : (kind.namespace ++ [':']).all (fun c => 32 < c.toNat ∧ c.toNat < 127) = true := by
    cases kind with
    | source => decide
    | lineage => decide
  have hshort : (kind.namespace ++ [':']).length ≤ 6 := by
    cases kind with
    | source => decide
    | lineage => decide
  cases rest with
  | nil => cases hrest
  | cons c rest =>
      simp only [Bool.and_eq_true, decide_eq_true_eq, List.all_eq_true] at hrest
      obtain ⟨⟨⟨⟨hc, hlength⟩, hchars⟩, -⟩, -⟩ := hrest
      refine ⟨?_, ?_, ?_⟩
      · simp
      · rw [List.length_append, List.length_cons]
        omega
      · intro d hd
        rcases List.mem_append.1 hd with hd | hd
        · exact of_decide_eq_true (List.all_eq_true.1 hstart d hd)
        rcases List.mem_cons.1 hd with rfl | hd
        · exact printable_of_isAlphanum hc
        · have hd := hchars d hd
          simp only [isEngineChar, decide_eq_true_eq] at hd
          rcases hd with hd | hd
          · exact printable_of_isAlphanum hd
          · simp only [List.mem_cons, List.not_mem_nil, or_false] at hd
            rcases hd with rfl | rfl | rfl | rfl <;> decide

/-- Whatever a result refers to has a plain name, and is no decision. -/
theorem ResultBody.identities_spec (body : ResultBody) :
    ∀ identity ∈ body.identities, IsPlain identity.2 ∧ identity.1 ≠ .decision := by
  intro identity hmem
  cases body with
  | sourceBinding _ reference =>
      obtain rfl := List.mem_singleton.1 hmem
      exact ⟨reference.isPlain, nofun⟩
  | sourceImport _ reference =>
      obtain rfl := List.mem_singleton.1 hmem
      exact ⟨reference.isPlain, nofun⟩
  | lineageQuery nodes =>
      obtain ⟨node, -, rfl⟩ := List.mem_map.1 hmem
      exact ⟨node.engineReference.isPlain, nofun⟩
  | successorCreation node =>
      obtain rfl := List.mem_singleton.1 hmem
      exact ⟨node.engineReference.isPlain, nofun⟩
  | runtimeStage result =>
      obtain rfl := List.mem_singleton.1 hmem
      exact ⟨isPlain_of_isIdentifier result.identified, nofun⟩
  | artifactWorkflow result =>
      rcases List.mem_append.1 hmem with hmem | hmem
      · obtain ⟨id, hid, rfl⟩ := List.mem_map.1 hmem
        exact ⟨isPlain_of_isIdentifier (List.all_eq_true.1 result.identified id hid), nofun⟩
      · obtain ⟨id, hid, rfl⟩ := List.mem_map.1 hmem
        exact ⟨isPlain_of_isIdentifier (result.snapshot id (Option.mem_toList.1 hid)), nofun⟩

/-- Only a runtime result refers to a runtime event. -/
theorem ResultBody.of_runtimeEvent {body : ResultBody} {identity : Identity}
    (hmem : identity ∈ body.identities) (hkind : identity.1 = .runtimeEvent) :
    ∃ result, body = .runtimeStage result ∧ identity.2 = result.runtimeEventId := by
  cases body with
  | runtimeStage result =>
      obtain rfl := List.mem_singleton.1 hmem
      exact ⟨result, rfl, rfl⟩
  | lineageQuery nodes =>
      obtain ⟨node, hnode, rfl⟩ := List.mem_map.1 hmem
      cases hkind
  | artifactWorkflow result =>
      rcases List.mem_append.1 hmem with hmem | hmem
      · obtain ⟨id, hid, rfl⟩ := List.mem_map.1 hmem
        cases hkind
      · obtain ⟨id, hid, rfl⟩ := List.mem_map.1 hmem
        cases hkind
  | _ =>
      obtain rfl := List.mem_singleton.1 hmem
      cases hkind

theorem EffectCommand.mem_identities {effect : EffectCommand} {identity : Identity}
    (h : identity ∈ effect.identities) : ∃ result, effect.state = .completed result ∧
      identity ∈ result.body.identities := by
  unfold EffectCommand.identities EffectCommand.result at h
  cases hstate : effect.state with
  | completed result =>
      rw [hstate] at h
      exact ⟨result, rfl, h⟩
  | _ =>
      rw [hstate] at h
      cases h

theorem identity_listReferences (effects : List EffectCommand) :
    (listReferences effects).map Reference.identity = effects.flatMap EffectCommand.identities := by
  rw [listReferences, List.map_flatMap]
  refine List.flatMap_congr fun effect _ => ?_
  rw [List.map_map]
  exact List.map_id _

theorem normalizeReferences_of_plain {references : List Reference}
    (h : ∀ reference ∈ references, IsPlain reference.id) :
    Progress.normalizeReferences references = .ok references := by
  induction references with
  | nil => rfl
  | cons reference rest ih =>
      rw [List.forall_mem_cons] at h
      rw [Progress.normalizeReferences, h.1.requiredText, ok_bind, ih h.2]
      rfl

theorem normalizeReferences_listReferences (effects : List EffectCommand) :
    Progress.normalizeReferences (listReferences effects) = .ok (listReferences effects) := by
  refine normalizeReferences_of_plain fun reference hmem => ?_
  obtain ⟨effect, -, hmem⟩ := List.mem_flatMap.1 hmem
  obtain ⟨identity, hidentity, rfl⟩ := List.mem_map.1 hmem
  obtain ⟨result, -, hidentity⟩ := EffectCommand.mem_identities hidentity
  exact (result.body.identities_spec identity hidentity).1

/-! ## A satisfied stage -/

/-- The current stage is active, its run open, and its requirements are covered by completed
effects, those of the active attempt where effects are bound to attempts. -/
structure Satisfied (s : Progress) (stage : Stage) : Prop where
  row : stage ∈ s.workflow.stages
  current : s.workflow.currentStageKey = some stage.stageKey
  active : stage.state = .active
  isOpen : s.run.isOpen = true
  covered : stage.Covered (s.satisfyingEffects stage)

/-- What the requirements of a stage do not tell. -/
structure Committable (s : Progress) (stage : Stage) : Prop where
  decided : stage.effect = .decision → (s.resolved stage.stageKey).isSome = true
  settled : s.activeAttemptEffects stage ≠ [] →
    ∀ effect ∈ s.staleAttemptEffects stage, effect.isSettled = true
  distinct : ((s.satisfyingEffects stage).flatMap EffectCommand.identities).Nodup

theorem mem_stageEffects {effect : EffectCommand} :
    effect ∈ s.stageEffects stage ↔ effect ∈ s.effects ∧ effect.stageKey = stage.stageKey := by
  rw [Progress.stageEffects, List.mem_filter, decide_eq_true_eq]
  rfl

theorem mem_attemptEffects {effect : EffectCommand} :
    effect ∈ s.attemptEffects stage ↔
      effect ∈ s.stageEffects stage ∧ effect.request.body.attemptId.isSome = true :=
  List.mem_filter

theorem mem_activeAttemptEffects {effect : EffectCommand} :
    effect ∈ s.activeAttemptEffects stage ↔ effect ∈ s.attemptEffects stage ∧
      effect.request.body.attemptId = s.run.activeAttemptId := by
  rw [Progress.activeAttemptEffects, List.mem_filter, decide_eq_true_eq]

/-- Where effects are bound to attempts, some are bound to the active one: the stage requires
their kinds. -/
theorem Satisfied.activeAttempt (hs : Confirmed s) (h : Satisfied s stage)
    (hattempt : s.attemptEffects stage ≠ []) : s.activeAttemptEffects stage ≠ [] := by
  intro hnone
  obtain ⟨effect, heffect⟩ := List.exists_mem_of_ne_nil _ hattempt
  obtain ⟨hmem, hkey⟩ := mem_stageEffects.1 (mem_attemptEffects.1 heffect).1
  have hkind := hs.required effect hmem stage h.row hkey.symm
  obtain ⟨other, hother, -⟩ := h.covered.1 _ hkind
  rw [Progress.satisfyingEffects, if_neg hattempt, hnone] at hother
  cases hother

/-- The coordinator and the store count the same effects. -/
theorem Satisfied.counted (hs : Confirmed s) (h : Satisfied s stage) :
    s.countedEffects stage = s.satisfyingEffects stage := by
  unfold Progress.countedEffects Progress.satisfyingEffects
  by_cases hattempt : s.attemptEffects stage = []
  · have hactive : s.activeAttemptEffects stage = [] := by
      rw [Progress.activeAttemptEffects, hattempt, List.filter_nil]
    rw [if_pos hactive, if_pos hattempt]
  · rw [if_neg hattempt, if_neg (h.activeAttempt hs hattempt)]

/-- The effects that are counted belong to the stage, and to the active attempt if to any. -/
theorem Satisfied.of_mem {effect : EffectCommand}
    (heffect : effect ∈ s.satisfyingEffects stage) :
    effect ∈ s.effects ∧ ∀ attemptId, effect.request.body.attemptId = some attemptId →
      s.run.activeAttemptId = some attemptId := by
  unfold Progress.satisfyingEffects at heffect
  split at heffect
  · rename_i hnone
    refine ⟨(mem_stageEffects.1 heffect).1, fun attemptId hattempt => ?_⟩
    have hmem : effect ∈ s.attemptEffects stage :=
      mem_attemptEffects.2 ⟨heffect, by rw [hattempt, Option.isSome_some]⟩
    rw [hnone] at hmem
    cases hmem
  · obtain ⟨hmem, hactive⟩ := mem_activeAttemptEffects.1 heffect
    refine ⟨(mem_stageEffects.1 (mem_attemptEffects.1 hmem).1).1, fun attemptId hattempt => ?_⟩
    rw [← hactive, hattempt]

/-- The result of a counted effect still passes, for the completion of its stage. -/
theorem Satisfied.expected (hs : Confirmed s) {effect : EffectCommand}
    (heffect : effect ∈ s.satisfyingEffects stage) {result : EffectResult}
    (hstate : effect.state = .completed result) :
    expectEffectResult s.facts s.run effect .stageCompleted result = .ok () := by
  obtain ⟨hmem, hactive⟩ := Satisfied.of_mem heffect
  exact expectEffectResult_mono (.refl _) rfl rfl (fun _ => hactive)
    (hs.expected effect hmem result hstate)

theorem expectResults_of_forall {effects : List EffectCommand}
    (h : ∀ effect ∈ effects, ∀ result, effect.state = .completed result →
      expectEffectResult s.facts s.run effect .stageCompleted result = .ok ()) :
    s.expectResults effects = .ok () := by
  induction effects with
  | nil => rfl
  | cons effect rest ih =>
      rw [List.forall_mem_cons] at h
      unfold Progress.expectResults EffectCommand.result
      cases hstate : effect.state with
      | completed result =>
          change (expectEffectResult s.facts s.run effect .stageCompleted result >>= fun _ =>
            s.expectResults rest) = .ok ()
          rw [h.1 result hstate, ok_bind]
          exact ih h.2
      | _ => exact ih h.2

theorem expectAttemptEvents_of_forall {identities : List Identity}
    (h : ∀ identity ∈ identities, identity.1 = .runtimeEvent →
      s.expectAttemptEvent identity.2 = .ok ()) :
    s.expectAttemptEvents identities = .ok () := by
  induction identities with
  | nil => rfl
  | cons identity rest ih =>
      obtain ⟨kind, id⟩ := identity
      rw [List.forall_mem_cons] at h
      unfold Progress.expectAttemptEvents
      split
      · rename_i hkind
        rw [h.1 hkind, ok_bind]
        exact ih h.2
      · exact ih h.2

/-- The event of a counted runtime effect is one of the active attempt. -/
theorem Satisfied.attemptEvent (hs : Confirmed s) {identity : Identity}
    (hmem : identity ∈ (s.satisfyingEffects stage).flatMap EffectCommand.identities)
    (hkind : identity.1 = .runtimeEvent) : s.expectAttemptEvent identity.2 = .ok () := by
  obtain ⟨effect, heffect, hidentity⟩ := List.mem_flatMap.1 hmem
  obtain ⟨result, hstate, hidentity⟩ := EffectCommand.mem_identities hidentity
  obtain ⟨body, hbody, hid⟩ := ResultBody.of_runtimeEvent hidentity hkind
  have hexpected := Satisfied.expected hs heffect hstate
  unfold expectEffectResult at hexpected
  rw [hbody] at hexpected
  obtain ⟨⟨-, -, hactive⟩, ⟨event, hevent⟩, -, -⟩ := expectRuntimeResult_eq_ok.1 hexpected
  simp only [Progress.expectAttemptEvent, bind_eq_ok, orRaise_eq_ok, require_eq_ok, hactive rfl,
    hid]
  exact ⟨event, hevent.found, (), hevent.runId, (), ⟨Option.some_ne_none _, hevent.attemptId⟩,
    hevent.type⟩

/-- The listed references are those that the store requires. -/
theorem Satisfied.checkReferences (hs : Confirmed s) (h : Satisfied s stage)
    {decision : List Reference} (hdecision : ∀ reference ∈ decision, reference.kind = .decision) :
    s.checkReferences stage (listReferences (s.satisfyingEffects stage)) decision = .ok () := by
  have hsupplied : (listReferences (s.satisfyingEffects stage) ++ decision).map
      Reference.identity = (s.countedEffects stage).flatMap EffectCommand.identities ++
        decision.map Reference.identity := by
    rw [List.map_append, identity_listReferences, h.counted hs]
  simp only [Progress.checkReferences, bind_eq_ok, require_eq_ok, hsupplied]
  refine ⟨(), List.Subset.refl _, (), ⟨fun identity hmem _ => hmem, fun _ => List.Subset.refl _⟩,
    expectAttemptEvents_of_forall fun identity hmem hkind => ?_⟩
  rw [h.counted hs] at hmem
  rcases List.mem_append.1 hmem with hmem | hmem
  · exact Satisfied.attemptEvent hs hmem hkind
  · obtain ⟨reference, hreference, rfl⟩ := List.mem_map.1 hmem
    rw [Reference.identity, hdecision reference hreference] at hkind
    cases hkind

/-! ## The completion -/

theorem decisionReferences_eq_ok {decision : List Reference}
    (h : s.decisionReferences stage = .ok decision) :
    decision.length ≤ 1 ∧ ∀ reference ∈ decision, reference.kind = .decision := by
  unfold Progress.decisionReferences at h
  split at h
  · split at h
    · cases h
    · cases h
      refine ⟨Nat.le_refl 1, fun reference hmem => ?_⟩
      rw [List.mem_singleton.1 hmem]
  · cases h
    exact ⟨Nat.zero_le 1, nofun⟩

theorem decisionReferences_isOk :
    (∃ decision, s.decisionReferences stage = .ok decision) ↔
      (stage.effect = .decision → (s.resolved stage.stageKey).isSome = true) := by
  unfold Progress.decisionReferences
  split
  · rename_i hdecision
    cases hresolved : s.resolved stage.stageKey with
    | none =>
        refine iff_of_false ?_ fun h => ?_
        · rintro ⟨decision, h⟩
          cases h
        · cases h hdecision
    | some resolved => exact iff_of_true ⟨_, rfl⟩ fun _ => rfl
  · rename_i hother
    exact iff_of_true ⟨[], rfl⟩ fun h => absurd h hother

/-- A decision is not among the references of the results. -/
theorem nodup_references {effects : List EffectCommand} {decision : List Reference}
    (hdecision : s.decisionReferences stage = .ok decision) :
    ((listReferences effects ++ decision).map Reference.identity).Nodup ↔
      (effects.flatMap EffectCommand.identities).Nodup := by
  obtain ⟨hlength, hkind⟩ := decisionReferences_eq_ok hdecision
  rw [List.map_append, identity_listReferences, List.nodup_append]
  refine ⟨fun h => h.1, fun h => ⟨h, ?_, ?_⟩⟩
  · match decision, hlength with
    | [], _ => exact List.nodup_nil
    | [reference], _ => exact List.nodup_singleton _
  · intro identity hmem other hother heq
    obtain ⟨effect, -, hmem⟩ := List.mem_flatMap.1 hmem
    obtain ⟨result, -, hmem⟩ := EffectCommand.mem_identities hmem
    obtain ⟨reference, hreference, rfl⟩ := List.mem_map.1 hother
    refine (result.body.identities_spec identity hmem).2 ?_
    rw [heq, Reference.identity, hkind reference hreference]

theorem isSome_checkpointOf (stage : Stage) (effects : List EffectCommand) :
    stage.checkpointEnabled = (checkpointOf stage effects).isSome := by
  unfold checkpointOf
  split
  · rename_i henabled
    rw [henabled, Option.isSome_some]
  · rename_i hdisabled
    rw [Bool.not_eq_true] at hdisabled
    rw [hdisabled, Option.isSome_none]

theorem Satisfied.checkCompletion (hs : Confirmed s) (h : Satisfied s stage) :
    (∃ recorded, s.checkCompletion stage (listReferences (s.satisfyingEffects stage))
      (checkpointOf stage (s.satisfyingEffects stage)) = .ok recorded) ↔ Committable s stage := by
  simp only [Progress.checkCompletion, bind_eq_ok, require_eq_ok, pure_eq_ok]
  constructor
  · rintro ⟨recorded, -, hsettled, -, -, -, -, decision, hdecision, -, -, -, -, -, hnodup, -⟩
    refine ⟨decisionReferences_isOk.1 ⟨decision, hdecision⟩, fun hactive => ?_,
      (nodup_references hdecision).1 hnodup⟩
    exact hsettled.resolve_left hactive
  · intro hcommittable
    obtain ⟨decision, hdecision⟩ := decisionReferences_isOk.2 hcommittable.decided
    have hcovered := h.covered
    have hresults : s.expectResults (s.countedEffects stage) = .ok () := by
      rw [h.counted hs]
      exact expectResults_of_forall fun effect heffect result hstate =>
        Satisfied.expected hs heffect hstate
    rw [← h.counted hs] at hcovered
    have hsettled : s.activeAttemptEffects stage = [] ∨
        ∀ effect ∈ s.staleAttemptEffects stage, effect.isSettled = true := by
      by_cases hactive : s.activeAttemptEffects stage = []
      · exact .inl hactive
      · exact .inr (hcommittable.settled hactive)
    exact ⟨_, (), hsettled, (), hcovered, (), hresults, decision, hdecision, (),
      h.checkReferences hs (decisionReferences_eq_ok hdecision).2, (), isSome_checkpointOf _ _, (),
      (nodup_references hdecision).2 hcommittable.distinct, rfl⟩

/-- The store takes what the coordinator lists exactly when the stage is committable. -/
theorem completeStage_eq_ok (hs : Confirmed s) (h : Satisfied s stage) :
    (∃ completion, s.completeStage stage.stageKey s.workflow.revision stage.revision
      (listReferences (s.satisfyingEffects stage))
      (checkpointOf stage (s.satisfyingEffects stage)) = .ok completion) ↔
    Committable s stage := by
  have hget : s.workflow.stages.get? stage.stageKey = some stage :=
    Table.get?_eq_some.2 ⟨h.row, rfl⟩
  have hrow : s.workflow.stageRow stage.stageKey = .ok stage := orRaise_eq_ok.2 hget
  rw [← h.checkCompletion hs]
  unfold Progress.completeStage
  rw [normalizeReferences_listReferences, ok_bind]
  dsimp only
  rw [hrow, ok_bind]
  constructor
  · rintro ⟨completion, hcompletion⟩
    simp only [bind_eq_ok, pure_eq_ok] at hcompletion
    obtain ⟨-, -, recorded, hrecorded, -⟩ := hcompletion
    exact ⟨recorded, hrecorded⟩
  · rintro ⟨recorded, hrecorded⟩
    rw [hrecorded]
    simp only [Instance.completeWorkflowStage, Instance.expectRevision, hrow, bind_eq_ok,
      require_eq_ok, pure_eq_ok]
    exact ⟨_, _, ⟨(), trivial, (), h.isOpen, stage, rfl, (), rfl, (), h.active, (), rfl, rfl⟩,
      recorded, rfl, rfl⟩

/-- A refused completion commits nothing. -/
theorem afterRefusal_ne_some {stageKey : Text} {error : StoreError}
    {completion : Instance × List Reference} :
    s.afterRefusal stageKey stage error ≠ .ok (some completion) := by
  unfold Progress.afterRefusal
  cases error with
  | invalidTransition =>
      dsimp only
      split <;> nofun
  | revisionConflict =>
      dsimp only
      split <;> nofun
  | _ => nofun

/-- In every reachable state, the coordinator commits a satisfied stage exactly when it is
committable. -/
theorem satisfied_stage_commits_iff (definition : WorkflowDefinition) (run : RunView)
    (facts : Facts) (commands : List ProgressCommand) (stage : Stage)
    (h : Satisfied (runProgress (startProgress definition run facts) commands) stage) :
    (∃ completion,
      (runProgress (startProgress definition run facts) commands).finishSatisfiedStage =
        .ok (some completion)) ↔
    Committable (runProgress (startProgress definition run facts) commands) stage := by
  have hs := confirmed_run definition run facts commands
  generalize runProgress (startProgress definition run facts) commands = s at h hs ⊢
  rw [← completeStage_eq_ok hs h]
  have hget : s.workflow.stages.get? stage.stageKey = some stage :=
    Table.get?_eq_some.2 ⟨h.row, rfl⟩
  have hbound : ¬(s.attemptEffects stage ≠ [] ∧ s.activeAttemptEffects stage = []) :=
    fun hnone => h.activeAttempt hs hnone.1 hnone.2
  simp only [Progress.finishSatisfiedStage, h.current, hget, h.active, ne_eq, not_true_eq_false,
    if_false, h.covered]
  rw [if_neg hbound]
  cases hcomplete : s.completeStage stage.stageKey s.workflow.revision stage.revision
      (listReferences (s.satisfyingEffects stage))
      (checkpointOf stage (s.satisfyingEffects stage)) with
  | ok completion => exact iff_of_true ⟨completion, rfl⟩ ⟨completion, rfl⟩
  | error error =>
      refine iff_of_false ?_ ?_
      · rintro ⟨completion, hfinish⟩
        exact afterRefusal_ne_some hfinish
      · rintro ⟨completion, hcompletion⟩
        cases hcompletion

/-! ## A lineage query -/

def lineageQuery : WorkflowDefinition where
  definitionId := "lineage".toList
  version := 1
  stages := [⟨"query".toList, .engineQuery, [], [], ["lineage_query".toList], true⟩]
  nonempty := by decide
  unique := by decide
  preceding := by decide

def queryRun : RunView where
  runId := "run".toList
  workspaceId := "workspace".toList
  activeAttemptId := none
  isOpen := true

def noFacts : Facts where
  event _ := none
  inbox _ _ := false
  version _ := none
  snapshot _ := none
  snapshotEvent _ _ _ := false

def queryRequest : EffectRequest where
  operationId := "operation".toList
  requestHash := "request".toList
  runId := some "run".toList
  body := .lineageQuery

def firstNode : LineageNode where
  nodeId := "a".toList
  title := "First".toList
  engineReference := ⟨.lineage, "idea:x".toList, by decide⟩
  lineage := rfl

/-- Another node, of the same object or of another one. -/
def secondNode (reference : EngineReference) (lineage : reference.kind = .lineage) :
    LineageNode where
  nodeId := "b".toList
  title := "Second".toList
  engineReference := reference
  lineage

def queryResult (reference : EngineReference) (lineage : reference.kind = .lineage) :
    EffectResult where
  operationId := "operation".toList
  requestHash := "request".toList
  resultIdentity := "result".toList
  body := .lineageQuery [firstNode, secondNode reference lineage]
    (List.pairwise_pair.2 (by decide : "a".toList < "b".toList))

/-- The query is created, claimed and completed. -/
def queried (result : EffectResult) : Progress :=
  runProgress (startProgress lineageQuery queryRun noFacts)
    [ .completeEffect "effect".toList false result
    , .moveEffect "effect".toList .claimed
    , .createEffect "effect".toList "query".toList "key".toList queryRequest 1 1 "hash".toList
    , .stage ⟨.activate "query".toList "hash".toList 0 0, unhindered⟩ ]

/-- The row of the stage, after it was activated. -/
def queryStage : Stage where
  stageKey := "query".toList
  effect := .engineQuery
  checkpointEnabled := true
  dependencies := []
  requiredKinds := ["lineage_query".toList]
  state := .active
  inputHash := some "hash".toList
  attempt := 1
  revision := 1

def sameObject : EngineReference := ⟨.lineage, "idea:x".toList, by decide⟩

def otherObject : EngineReference := ⟨.lineage, "idea:y".toList, by decide⟩

/-- Two nodes of two objects are committed. -/
theorem satisfied_stage_commits_query :
    ∃ completion, (queried (queryResult otherObject rfl)).finishSatisfiedStage =
      .ok (some completion) := by
  have hsatisfied : Satisfied (queried (queryResult otherObject rfl)) queryStage :=
    ⟨.head _, by decide +kernel, rfl, by decide +kernel, by decide +kernel⟩
  exact (satisfied_stage_commits_iff lineageQuery queryRun noFacts _ queryStage hsatisfied).2
    ⟨nofun, by decide +kernel, by decide +kernel⟩

/-- Two nodes of one object satisfy the same stage, and cannot be committed. -/
theorem lineage_query_refused :
    Satisfied (queried (queryResult sameObject rfl)) queryStage ∧
      (queried (queryResult sameObject rfl)).finishSatisfiedStage =
        .error (.valueError "workflow references must be unique") :=
  ⟨⟨.head _, by decide +kernel, rfl, by decide +kernel, by decide +kernel⟩, rfl⟩

end Cortex.Workflow
