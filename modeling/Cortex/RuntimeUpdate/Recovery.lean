import Cortex.RuntimeUpdate.Service

/-!
# Recovery

`recovered d` is the directory that a recovery leaves, and a recovery that crashes
and is repeated, any number of times, ends in the same one (`recovered_of_interrupted`).
-/

namespace Cortex.RuntimeUpdate

open Control Procedure

/-! ## Status marks -/

namespace Registry

variable {registry : Registry} {releaseId releaseId' : ReleaseId} {status status' : Status}

theorem get?_mark : (registry.mark releaseId status).get? releaseId' =
    if releaseId' = releaseId then (registry.get? releaseId).map fun r => { r with status }
    else registry.get? releaseId' := by
  unfold mark
  cases hrecord : registry.get? releaseId with
  | none =>
      by_cases h : releaseId' = releaseId
      · rw [if_pos h, h]
        exact hrecord
      · rw [if_neg h]
  | some record =>
      have hkey : record.releaseId = releaseId := Dict.key_of_get? hrecord
      rw [Dict.get?_set]
      simp only [hkey, Option.map_some]

theorem mark_absent (h : registry.get? releaseId = none) :
    registry.mark releaseId status = registry := by
  unfold mark
  rw [h]

/-- Only the last mark of a release counts. -/
theorem mark_mark :
    (registry.mark releaseId status).mark releaseId status' = registry.mark releaseId status' := by
  cases hrecord : registry.get? releaseId with
  | none => rw [mark_absent hrecord]
  | some record =>
      have hkey : record.releaseId = releaseId := Dict.key_of_get? hrecord
      have hmark : registry.mark releaseId status = registry.set { record with status } := by
        unfold mark
        rw [hrecord]
      have hget :
          (registry.mark releaseId status).get? releaseId = some { record with status } := by
        rw [get?_mark, if_pos rfl, hrecord, Option.map_some]
      calc (registry.mark releaseId status).mark releaseId status'
          = (registry.mark releaseId status).set { record with status := status' } := by
            rw [mark, hget]
        _ = registry.set { record with status := status' } := by
            rw [hmark]
            exact Dict.set_set rfl
        _ = registry.mark releaseId status' := by
            rw [mark, hrecord]

end Registry

/-! ## What a recovery leaves -/

/-- The directory that `_recover_activation_unlocked` leaves. -/
def recovered (d : Directory) : Directory :=
  (recoverActivation d).final

/-- The number of steps of a recovery. -/
def recoverySteps (d : Directory) : ℕ :=
  (recoverActivation d).passed.length

variable {d d' : Directory} {journal : Journal}

theorem recoverActivation_idle (h : d.journal = none) : recoverActivation d = ⟨[], d, .ok ()⟩ := by
  simp only [recoverActivation, bind, read_run, h]
  rfl

theorem recovered_idle (h : d.journal = none) : recovered d = d := by
  rw [recovered, recoverActivation_idle h]

/-- The directory after the pointer write of a recovery. -/
private def repointed (d : Directory) (journal : Journal) : Directory :=
  { d with active := journal.oldActive }

/-- The directory after the registry write of a recovery. -/
private def remarked (d : Directory) (journal : Journal) : Directory :=
  { repointed d journal with
    registry := d.registry.mark journal.candidate.releaseId .quarantined }

private theorem recoverActivation_marks (h : d.journal = some journal)
    (hrecord : (d.registry.get? journal.candidate.releaseId).isSome) :
    recoverActivation d =
      ⟨[d, repointed d journal, remarked d journal], { remarked d journal with journal := none },
        .ok ()⟩ := by
  simp only [recoverActivation, bind, read_run, h, hrecord]
  rfl

private theorem recoverActivation_unmarked (h : d.journal = some journal)
    (hrecord : ¬ (d.registry.get? journal.candidate.releaseId).isSome) :
    recoverActivation d =
      ⟨[d, repointed d journal], { repointed d journal with journal := none }, .ok ()⟩ := by
  simp only [recoverActivation, bind, read_run, h, hrecord]
  rfl

theorem recovered_journal (h : d.journal = some journal) :
    recovered d =
      { d with
        active := journal.oldActive
        registry := d.registry.mark journal.candidate.releaseId .quarantined
        journal := none } := by
  by_cases hrecord : (d.registry.get? journal.candidate.releaseId).isSome
  · rw [recovered, recoverActivation_marks h hrecord]
    rfl
  · rw [recovered, recoverActivation_unmarked h hrecord,
      Registry.mark_absent (Option.not_isSome_iff_eq_none.1 hrecord)]
    rfl

@[simp] theorem recovered_noJournal (d : Directory) : (recovered d).journal = none := by
  cases h : d.journal with
  | none => rw [recovered_idle h, h]
  | some journal => rw [recovered_journal h]

theorem recovered_recovered (d : Directory) : recovered (recovered d) = recovered d :=
  recovered_idle (recovered_noJournal d)

@[simp] theorem recovered_lastKnownGood (d : Directory) :
    (recovered d).lastKnownGood = d.lastKnownGood := by
  cases h : d.journal with
  | none => rw [recovered_idle h]
  | some journal => rw [recovered_journal h]

theorem recoverActivation_result (d : Directory) : (recoverActivation d).result = .ok () := by
  cases h : d.journal with
  | none => rw [recoverActivation_idle h]
  | some journal =>
      by_cases hrecord : (d.registry.get? journal.candidate.releaseId).isSome
      · rw [recoverActivation_marks h hrecord]
      · rw [recoverActivation_unmarked h hrecord]

theorem recoverActivation_run (d : Directory) :
    recoverActivation d = ⟨(recoverActivation d).passed, recovered d, .ok ()⟩ := by
  rw [← recoverActivation_result d]
  rfl

/-- A state that a crashed recovery leaves: the journal is as it was, or the recovery is done. -/
theorem left_recoverActivation (h : d' ∈ (recoverActivation d).left) :
    d' = recovered d ∨ d'.journal = d.journal ∧ recovered d' = recovered d := by
  cases hjournal : d.journal with
  | none =>
      rw [recoverActivation_idle hjournal] at h
      obtain rfl := List.mem_singleton.1 h
      exact .inl (recovered_idle hjournal).symm
  | some journal =>
      by_cases hrecord : (d.registry.get? journal.candidate.releaseId).isSome
      · rw [recoverActivation_marks hjournal hrecord] at h
        simp only [Outcome.left, List.mem_append, List.mem_cons, List.not_mem_nil, or_false] at h
        rw [recovered_journal hjournal]
        rcases h with (rfl | rfl | rfl) | rfl
        · exact .inr ⟨hjournal, recovered_journal hjournal⟩
        · have hpointed : (repointed d journal).journal = some journal := hjournal
          exact .inr ⟨hjournal, recovered_journal hpointed⟩
        · have hmarked : (remarked d journal).journal = some journal := hjournal
          refine .inr ⟨hjournal, ?_⟩
          rw [recovered_journal hmarked]
          simp only [remarked, repointed, Registry.mark_mark]
        · exact .inl rfl
      · have habsent :
            d.registry.mark journal.candidate.releaseId .quarantined = d.registry :=
          Registry.mark_absent (Option.not_isSome_iff_eq_none.1 hrecord)
        rw [recoverActivation_unmarked hjournal hrecord] at h
        simp only [Outcome.left, List.mem_append, List.mem_cons, List.not_mem_nil, or_false] at h
        rw [recovered_journal hjournal]
        rcases h with (rfl | rfl) | rfl
        · exact .inr ⟨hjournal, recovered_journal hjournal⟩
        · have hpointed : (repointed d journal).journal = some journal := hjournal
          exact .inr ⟨hjournal, recovered_journal hpointed⟩
        · rw [habsent]
          exact .inl rfl

theorem recovered_of_left (h : d' ∈ (recoverActivation d).left) : recovered d' = recovered d := by
  rcases left_recoverActivation h with rfl | ⟨-, h⟩
  · exact recovered_recovered d
  · exact h

/-- `d'` is left by recoveries of `d` that crashed, one after the other. -/
inductive Interrupted (d : Directory) : Directory → Prop
  | start : Interrupted d d
  | again {d' : Directory} (k : ℕ) :
      Interrupted d d' → Interrupted d ((recoverActivation d').crashed k)

/-- However often recoveries crash, the next one that does not ends in the same directory. -/
theorem recovered_of_interrupted (h : Interrupted d d') : recovered d' = recovered d := by
  induction h with
  | start => rfl
  | again k _ ih => exact (recovered_of_left (Outcome.crashed_mem_left _ k)).trans ih

end Cortex.RuntimeUpdate
