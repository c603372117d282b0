import Cortex.RuntimeUpdate.Recovery

/-!
# The states that a crashed activation leaves

`activate` first recovers, so its own steps start in `recovered d`.  A crash
leaves one of

* a state of that recovery;
* a state that is `Underway`: the journal is there, and a recovery gives back what
  was there before, with the candidate quarantined (`aborted`);
* `aborted` itself, or `completed`;
* after the last-known-good write and before the journal is removed, a state from
  which a recovery makes the old active release its own last known good one
  (`recovered_forgetful`).
-/

namespace Cortex.RuntimeUpdate

open Control Procedure

/-- An activation that came to nothing. -/
def aborted (d : Directory) (candidate : Pointer) : Directory :=
  { d with registry := d.registry.mark candidate.releaseId .quarantined, journal := none }

/-- An activation that is done. -/
def completed (d : Directory) (candidate : Pointer) : Directory :=
  { d with
    active := some candidate
    lastKnownGood :=
      match d.active with
      | none => d.lastKnownGood
      | some old => some old
    registry := activatedRegistry d.registry d.active candidate
    journal := none }

/-- The journal is there, and nothing changed but the active pointer and the candidate's record. -/
def Underway (d : Directory) (candidate : Pointer) (s : Directory) : Prop :=
  ∃ phase active registry,
    registry.mark candidate.releaseId .quarantined =
      d.registry.mark candidate.releaseId .quarantined ∧
    s = { d with journal := some ⟨phase, d.active, candidate⟩, active, registry }

/-- The same, with the old active release as the last known good one already. -/
def Forgetful (d : Directory) (candidate old : Pointer) (s : Directory) : Prop :=
  ∃ phase active registry,
    s = { d with
      journal := some ⟨phase, some old, candidate⟩, active, registry
      lastKnownGood := some old }

variable {P : Platform} {readings : Readings} {releaseId : ReleaseId} {d s : Directory}
  {candidate old : Pointer}

theorem Underway.recovered_eq (h : Underway d candidate s) : recovered s = aborted d candidate := by
  obtain ⟨phase, active, registry, hmark, rfl⟩ := h
  have hjournal : ({ d with
      journal := some ⟨phase, d.active, candidate⟩, active, registry } : Directory).journal =
        some ⟨phase, d.active, candidate⟩ := rfl
  rw [recovered_journal hjournal]
  simp only [aborted, hmark]

theorem Forgetful.recovered_eq (h : Forgetful d candidate old s) :
    (recovered s).active = some old ∧ (recovered s).lastKnownGood = some old := by
  obtain ⟨phase, active, registry, hs⟩ := h
  have hjournal : s.journal = some ⟨phase, some old, candidate⟩ := by rw [hs]
  rw [recovered_journal hjournal, hs]
  exact ⟨rfl, rfl⟩

theorem recovered_aborted : recovered (aborted d candidate) = aborted d candidate :=
  recovered_idle rfl

theorem recovered_completed : recovered (completed d candidate) = completed d candidate :=
  recovered_idle rfl

/-! ## The steps of an activation -/

/-- What `activate` does after its recovery. -/
private def activateRecovered (P : Platform) (readings : Readings) (releaseId : ReleaseId) :
    M Pointer := do
  let d ← read
  match ← lift (admitActivation P readings d releaseId) with
  | .active pointer => pure pointer
  | .admitted candidate => do
      write fun d' => { d' with journal := some ⟨.prepared, d.active, candidate⟩ }
      switchActive readings d candidate
      match d.active with
      | none => pure ()
      | some old => write fun d' => { d' with lastKnownGood := some old }
      write fun d' => { d' with registry := activatedRegistry d.registry d.active candidate }
      write fun d' => { d' with journal := none }
      pure candidate

private theorem activate_run (P : Platform) (readings : Readings) (releaseId : ReleaseId)
    (d : Directory) :
    activate P readings releaseId d =
      ⟨(recoverActivation d).passed ++
          (activateRecovered P readings releaseId (recovered d)).passed,
        (activateRecovered P readings releaseId (recovered d)).final,
        (activateRecovered P readings releaseId (recovered d)).result⟩ :=
  bind_run_ok d (recoverActivation_run d)

/-- A crash of `activate` is one of its recovery, or one of what follows. -/
private theorem activate_crashed (k : ℕ) :
    (activate P readings releaseId d).crashed k ∈ (recoverActivation d).left ∨
      ∃ i, k = recoverySteps d + i ∧
        (activate P readings releaseId d).crashed k =
          (activateRecovered P readings releaseId (recovered d)).crashed i := by
  rw [activate_run]
  rcases Nat.lt_or_ge k (recoverySteps d) with hk | hk
  · exact .inl (List.mem_append_left _ (Outcome.crashed_before hk))
  · obtain ⟨i, rfl⟩ := Nat.exists_eq_add_of_le hk
    exact .inr ⟨i, rfl, Outcome.crashed_append i⟩

/-- The states of an admitted activation up to the second probe. -/
private def prepared (d : Directory) (candidate : Pointer) : Directory :=
  { d with journal := some ⟨.prepared, d.active, candidate⟩ }

private def certified (d : Directory) (candidate : Pointer) : Directory :=
  { prepared d candidate with registry := d.registry.mark candidate.releaseId .certified }

private def switched (d : Directory) (candidate : Pointer) : Directory :=
  { certified d candidate with active := some candidate }

private def journaled (d : Directory) (candidate : Pointer) : Directory :=
  { switched d candidate with journal := some ⟨.activePointerSwitched, d.active, candidate⟩ }

/-- The states of the `except` branch, begun in `s`. -/
private def repointedTo (d s : Directory) : Directory :=
  { s with active := d.active }

private def requarantined (d : Directory) (candidate : Pointer) (s : Directory) : Directory :=
  { repointedTo d s with registry := d.registry.mark candidate.releaseId .quarantined }

section Runs

variable (hadmitted : admitActivation P readings d releaseId = .ok (.admitted candidate))

include hadmitted

private theorem activate_unhealthy (hprobe : readings.probe 0 ≠ .healthy) :
    ∃ error, activateRecovered P readings releaseId d =
      ⟨[d, prepared d candidate, repointedTo d (prepared d candidate),
          requarantined d candidate (prepared d candidate)],
        aborted d candidate, .error error⟩ := by
  cases hhealth : readings.probe 0 with
  | healthy => exact absurd hhealth hprobe
  | unhealthy | raises =>
      refine ⟨?_, ?_⟩
      case refine_2 =>
        simp only [activateRecovered, switchActive, rescue, bind, read_run, lift_run, hadmitted,
          write_run, checkHealth, hhealth, raise_run]
        rfl

private theorem activate_unhealthyAfter (hprobe : readings.probe 0 = .healthy)
    (hafter : readings.probe 1 ≠ .healthy) :
    ∃ error, activateRecovered P readings releaseId d =
      ⟨[d, prepared d candidate, certified d candidate, switched d candidate,
          journaled d candidate, repointedTo d (journaled d candidate),
          requarantined d candidate (journaled d candidate)],
        aborted d candidate, .error error⟩ := by
  cases hhealth : readings.probe 1 with
  | healthy => exact absurd hhealth hafter
  | unhealthy | raises =>
      refine ⟨?_, ?_⟩
      case refine_2 =>
        simp only [activateRecovered, switchActive, rescue, bind, read_run, lift_run, hadmitted,
          write_run, checkHealth, hprobe, hhealth, pure_run, raise_run]
        rfl

private theorem activate_first (hprobe : readings.probe 0 = .healthy)
    (hafter : readings.probe 1 = .healthy) (hold : d.active = none) :
    activateRecovered P readings releaseId d =
      ⟨[d, prepared d candidate, certified d candidate, switched d candidate,
          journaled d candidate,
          { journaled d candidate with
            registry := activatedRegistry d.registry d.active candidate }],
        completed d candidate, .ok candidate⟩ := by
  obtain ⟨slots, generations, registry, manager, active⟩ := d
  obtain rfl : active = none := hold
  simp only [activateRecovered, switchActive, rescue, bind, read_run, lift_run, hadmitted,
    write_run, checkHealth, hprobe, hafter, pure_run, completed]
  rfl

private theorem activate_next (hprobe : readings.probe 0 = .healthy)
    (hafter : readings.probe 1 = .healthy) (hold : d.active = some old) :
    activateRecovered P readings releaseId d =
      ⟨[d, prepared d candidate, certified d candidate, switched d candidate,
          journaled d candidate, { journaled d candidate with lastKnownGood := some old },
          { journaled d candidate with
            lastKnownGood := some old
            registry := activatedRegistry d.registry d.active candidate }],
        completed d candidate, .ok candidate⟩ := by
  obtain ⟨slots, generations, registry, manager, active⟩ := d
  obtain rfl : active = some old := hold
  simp only [activateRecovered, switchActive, rescue, bind, read_run, lift_run, hadmitted,
    write_run, checkHealth, hprobe, hafter, pure_run, completed]
  rfl

end Runs

private theorem underway_journaled : Underway d candidate (journaled d candidate) :=
  ⟨_, _, _, Registry.mark_mark, rfl⟩

private theorem underway_certified : Underway d candidate (certified d candidate) :=
  ⟨_, _, _, Registry.mark_mark, rfl⟩

private theorem underway_switched : Underway d candidate (switched d candidate) :=
  ⟨_, _, _, Registry.mark_mark, rfl⟩

private theorem underway_prepared : Underway d candidate (prepared d candidate) :=
  ⟨_, _, _, rfl, rfl⟩

private theorem Underway.repointedTo (h : Underway d candidate s) :
    Underway d candidate (repointedTo d s) := by
  obtain ⟨phase, active, registry, hmark, rfl⟩ := h
  exact ⟨phase, _, registry, hmark, rfl⟩

private theorem Underway.requarantined (h : Underway d candidate s) :
    Underway d candidate (requarantined d candidate s) := by
  obtain ⟨phase, active, registry, hmark, rfl⟩ := h
  exact ⟨phase, _, _, Registry.mark_mark, rfl⟩

private theorem forgetful_journaled (hold : d.active = some old) (registry : Registry) :
    Forgetful d candidate old
      { journaled d candidate with lastKnownGood := some old, registry } := by
  refine ⟨.activePointerSwitched, some candidate, registry, ?_⟩
  rw [← hold]
  rfl

/-- The candidate answers both probes of an activation. -/
def BothHealthy (readings : Readings) : Prop :=
  readings.probe 0 = .healthy ∧ readings.probe 1 = .healthy

/-- What a crash leaves of an activation, in terms of the directory `d` it began in. -/
inductive Stopped (readings : Readings) (d : Directory) (candidate : Pointer) (i : ℕ)
    (s : Directory) : Prop
  | before (h : s = d)
  | underway (h : Underway d candidate s)
  | aborted (h : s = aborted d candidate)
  | completed (hhealthy : BothHealthy readings) (h : s = completed d candidate)
  | forgetful (old : Pointer) (hhealthy : BothHealthy readings) (hold : d.active = some old)
      (hi : i = 5 ∨ i = 6) (h : Forgetful d candidate old s)

private theorem stopped_unhealthy {error : RuntimeUpdateError} {middle : Directory} {i : ℕ}
    (states : List Directory) (hmiddle : Underway d candidate middle)
    (hstates : ∀ s ∈ states, Underway d candidate s) :
    Stopped readings d candidate i
      ((Outcome.mk (d :: states ++ [repointedTo d middle, requarantined d candidate middle])
        (RuntimeUpdate.aborted d candidate) (.error error : Except _ Pointer)).crashed i) := by
  have hmem := Outcome.crashed_mem_left
    (Outcome.mk (d :: states ++ [repointedTo d middle, requarantined d candidate middle])
      (RuntimeUpdate.aborted d candidate) (.error error : Except _ Pointer)) i
  generalize Outcome.crashed _ i = s at hmem ⊢
  simp only [Outcome.left, List.cons_append, List.append_assoc, List.mem_cons, List.mem_append,
    List.not_mem_nil, or_false, false_or] at hmem
  rcases hmem with rfl | hmem | rfl | rfl | rfl
  · exact .before rfl
  · exact .underway (hstates s hmem)
  · exact .underway hmiddle.repointedTo
  · exact .underway hmiddle.requarantined
  · exact .aborted rfl

private theorem stopped_first (hold : d.active = none) (hhealthy : BothHealthy readings)
    {i : ℕ} : Stopped readings d candidate i
      ((Outcome.mk [d, prepared d candidate, certified d candidate, switched d candidate,
          journaled d candidate,
          { journaled d candidate with
            registry := activatedRegistry d.registry d.active candidate }]
        (RuntimeUpdate.completed d candidate)
        (.ok candidate : Except RuntimeUpdateError Pointer)).crashed i) := by
  rcases i with _ | _ | _ | _ | _ | _ | i
  · exact .before rfl
  · exact .underway underway_prepared
  · exact .underway underway_certified
  · exact .underway underway_switched
  · exact .underway underway_journaled
  · refine .underway ⟨_, _, activatedRegistry d.registry d.active candidate, ?_, rfl⟩
    rw [hold]
    exact Registry.mark_mark
  · exact .completed hhealthy rfl

private theorem stopped_next (hold : d.active = some old) (hhealthy : BothHealthy readings)
    {i : ℕ} : Stopped readings d candidate i
      ((Outcome.mk [d, prepared d candidate, certified d candidate, switched d candidate,
          journaled d candidate, { journaled d candidate with lastKnownGood := some old },
          { journaled d candidate with
            lastKnownGood := some old
            registry := activatedRegistry d.registry d.active candidate }]
        (RuntimeUpdate.completed d candidate)
        (.ok candidate : Except RuntimeUpdateError Pointer)).crashed i) := by
  rcases i with _ | _ | _ | _ | _ | _ | _ | i
  · exact .before rfl
  · exact .underway underway_prepared
  · exact .underway underway_certified
  · exact .underway underway_switched
  · exact .underway underway_journaled
  · exact .forgetful old hhealthy hold (.inl rfl) (forgetful_journaled hold _)
  · exact .forgetful old hhealthy hold (.inr rfl) (forgetful_journaled hold _)
  · exact .completed hhealthy rfl

/-- A crashed activation: its recovery did not end, or nothing was admitted, or it was stopped
after some of its own steps. -/
theorem activate_stopped (P : Platform) (readings : Readings) (releaseId : ReleaseId)
    (d : Directory) (k : ℕ) :
    (activate P readings releaseId d).crashed k ∈ (recoverActivation d).left ∨
      ∃ candidate i,
        admitActivation P readings (recovered d) releaseId = .ok (.admitted candidate) ∧
          k = recoverySteps d + i ∧
          Stopped readings (recovered d) candidate i
            ((activate P readings releaseId d).crashed k) := by
  rcases activate_crashed (P := P) (d := d) k with hleft | ⟨i, hk, hcrashed⟩
  · exact .inl hleft
  have hstart : recovered d ∈ (recoverActivation d).left := Outcome.final_mem_left _
  rw [hcrashed]
  cases hadmitted : admitActivation P readings (recovered d) releaseId with
  | error error =>
      refine .inl ?_
      have hrun : activateRecovered P readings releaseId (recovered d) =
          ⟨[], recovered d, .error error⟩ := by
        simp only [activateRecovered, bind, read_run, lift_run, hadmitted]
        rfl
      rw [hrun]
      exact hstart
  | ok admission =>
      cases admission with
      | active pointer =>
          refine .inl ?_
          have hrun : activateRecovered P readings releaseId (recovered d) =
              ⟨[], recovered d, .ok pointer⟩ := by
            simp only [activateRecovered, bind, read_run, lift_run, hadmitted]
            rfl
          rw [hrun]
          exact hstart
      | admitted candidate =>
          refine .inr ⟨candidate, i, rfl, hk, ?_⟩
          by_cases hprobe : readings.probe 0 = .healthy
          · by_cases hafter : readings.probe 1 = .healthy
            · cases hold : (recovered d).active with
              | none =>
                  rw [activate_first hadmitted hprobe hafter hold]
                  exact stopped_first hold ⟨hprobe, hafter⟩
              | some old =>
                  rw [activate_next hadmitted hprobe hafter hold]
                  exact stopped_next hold ⟨hprobe, hafter⟩
            · obtain ⟨error, hrun⟩ := activate_unhealthyAfter hadmitted hprobe hafter
              rw [hrun]
              refine stopped_unhealthy [_, _, _, _] underway_journaled ?_
              simp only [List.forall_mem_cons]
              exact ⟨underway_prepared, underway_certified, underway_switched,
                underway_journaled, List.forall_mem_nil _⟩
          · obtain ⟨error, hrun⟩ := activate_unhealthy hadmitted hprobe
            rw [hrun]
            refine stopped_unhealthy [_] underway_prepared ?_
            simp only [List.forall_mem_cons]
            exact ⟨underway_prepared, List.forall_mem_nil _⟩

/-- Between the last-known-good write and the removal of the journal, a crash leaves a
directory whose recovery forgets the last known good release. -/
theorem activate_forgets
    (hadmitted : admitActivation P readings (recovered d) releaseId = .ok (.admitted candidate))
    (hhealthy : BothHealthy readings) (hold : (recovered d).active = some old) {i : ℕ}
    (hi : i = 5 ∨ i = 6) :
    Forgetful (recovered d) candidate old
      ((activate P readings releaseId d).crashed (recoverySteps d + i)) := by
  rw [activate_run, show recoverySteps d = (recoverActivation d).passed.length from rfl,
    Outcome.crashed_append, activate_next hadmitted hhealthy.1 hhealthy.2 hold]
  rcases hi with rfl | rfl
  · exact forgetful_journaled hold _
  · exact forgetful_journaled hold _

/-- An activation that ended: nothing changed after the recovery, or it is aborted or completed. -/
theorem activate_final (P : Platform) (readings : Readings) (releaseId : ReleaseId)
    (d : Directory) :
    (activate P readings releaseId d).final = recovered d ∨
      ∃ candidate,
        admitActivation P readings (recovered d) releaseId = .ok (.admitted candidate) ∧
          ((activate P readings releaseId d).final = aborted (recovered d) candidate ∨
            (activate P readings releaseId d).final = completed (recovered d) candidate) := by
  rw [activate_run]
  cases hadmitted : admitActivation P readings (recovered d) releaseId with
  | error error =>
      left
      simp only [activateRecovered, bind, read_run, lift_run, hadmitted]
  | ok admission =>
      cases admission with
      | active pointer =>
          left
          simp only [activateRecovered, bind, read_run, lift_run, hadmitted]
          rfl
      | admitted candidate =>
          refine .inr ⟨candidate, rfl, ?_⟩
          by_cases hprobe : readings.probe 0 = .healthy
          · by_cases hafter : readings.probe 1 = .healthy
            · right
              cases hold : (recovered d).active with
              | none => rw [activate_first hadmitted hprobe hafter hold]
              | some old => rw [activate_next hadmitted hprobe hafter hold]
            · obtain ⟨error, hrun⟩ := activate_unhealthyAfter hadmitted hprobe hafter
              rw [hrun]
              exact .inl rfl
          · obtain ⟨error, hrun⟩ := activate_unhealthy hadmitted hprobe
            rw [hrun]
            exact .inl rfl

end Cortex.RuntimeUpdate
