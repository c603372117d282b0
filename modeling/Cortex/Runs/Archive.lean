import Cortex.Runs.ActiveRun

/-!
# Archived threads stay still

A thread is archived only without a run at work, and an archived thread takes no
new run.  A paused run is the active run of its thread, so it is not resumed on
an archived thread either.  A failed run is not, and `retry_run` does not ask
whether the thread is archived: `archived_still` is about the histories that
retry no run of an archived thread, and `retried_while_archived` is one that does.
-/

namespace Cortex.Runs

open Control Time Transaction

/-- Archived threads have no run at work. -/
def ArchivedStill (s : Ledger) : Prop :=
  ∀ t ∈ s.threads, t.archivedAt.isSome → t.activeRunId = none

theorem ArchivedStill.kept {s s' : Ledger} {closes unarchived unclaimed : Prop}
    (hs : WellFormed s) (h : Effect closes unarchived unclaimed s s') (hunarchived : unarchived)
    (hstill : ArchivedStill s) : ArchivedStill s' := by
  intro t' ht' harchived
  have hkept : ∀ {t : Thread}, t ∈ s.threads → ThreadKept t t' → t'.activeRunId = none :=
    fun ht hkept => hkept.activeRunId.trans (hstill _ ht (hkept.archivedAt ▸ harchived))
  cases h with
  | touched subject runs threads attempts states work =>
      rcases threads.origin t' ht' with ⟨t, ht, -, h⟩ | hnew
      · exact hkept ht h
      · exact hnew.1
  | archived threadId threads same =>
      obtain ⟨t, ht, -, hactive, hwas | hnone | hidle⟩ := threads.source ht'
      · exact hactive.trans (hstill t ht (hwas ▸ harchived))
      · rw [hnone] at harchived
        cases harchived
      · exact hactive.trans hidle
  | created run attempt thread runs attempts threads hthread id hopen idle =>
      obtain ⟨t, ht, -, h⟩ := threads.source ht'
      rw [h.archivedAt] at harchived
      rw [h.activeRunId, if_neg]
      · exact hstill t ht harchived
      · intro htid
        obtain rfl : t = thread := Table.eq_of_key ht hthread (htid.trans id.symm)
        rw [hopen] at harchived
        cases harchived
  | moved r r' step =>
      obtain ⟨t, ht, -, h⟩ := step.threads.source ht'
      exact hkept ht h
  | finished r r' step =>
      obtain ⟨t, ht, -, h⟩ := step.threads.source ht'
      rcases h.activeRunId with hsame | ⟨-, hnone⟩
      · exact hsame.trans (hstill t ht (h.archivedAt ▸ harchived))
      · exact hnone
  | restarted r r' attempt thread step attempts own active source fresh hthread threadId idle live'
      running hopen =>
      obtain ⟨t, ht, -, h⟩ := step.threads.source ht'
      rw [h.archivedAt] at harchived
      rw [h.activeRunId, if_neg]
      · exact hstill t ht harchived
      · intro htid
        obtain rfl : t = thread := Table.eq_of_key ht hthread (htid.trans threadId.symm)
        rcases hopen with hpaused | hretried
        · -- A paused run is at work on its thread, which is then not archived.
          have hlive : ¬r.state.isTerminal := by
            rw [hpaused]
            decide
          obtain ⟨u, hu, huid, hactive⟩ := hs.attached r step.before hlive
          obtain rfl : u = t := Table.eq_of_key hu ht (huid.trans htid.symm)
          rw [hstill u ht harchived] at hactive
          cases hactive
        · rw [hretried hunarchived] at harchived
          cases harchived
  | putBack r r' step =>
      obtain ⟨t, ht, -, h⟩ := step.threads.source ht'
      exact hkept ht h
  | claimedRelease releaseId releases same =>
      rw [same] at ht'
      exact hstill t' ht' harchived

section Histories

variable {Digest : Type} [DecidableEq Digest] {platform : Platform Digest}

/-- A committed `retry_run` is not about a run of an archived thread. -/
def RetriesUnarchived (s : Store Digest) (event : Event) : Prop :=
  event.2.replayed = false → event.1.1.RetriesUnarchived s.tables.ledger

/-- While no run of an archived thread is retried, an archived thread has no run at work, and
none of its runs is live. -/
theorem archived_still {events : List Event} {s : Store Digest}
    (h : History (restrict (Step platform) RetriesUnarchived) emptyStore events s) :
    ∀ thread ∈ s.tables.ledger.threads, thread.archivedAt.isSome →
      thread.activeRunId = none ∧
        ∀ r ∈ s.tables.ledger.runs, r.threadId = thread.id → r.state.isTerminal := by
  have hinv : WellFormed s.tables.ledger ∧ ArchivedStill s.tables.ledger := by
    refine h.invariant (P := fun s => WellFormed s.tables.ledger ∧ ArchivedStill s.tables.ledger)
      ⟨wellFormed_empty, fun t ht => absurd ht (Table.not_mem_empty t)⟩ ?_
    rintro s event s' ⟨hs, hstill⟩ ⟨hstep, hretries⟩
    refine ⟨step_wellFormed hs hstep, ?_⟩
    rcases step_effect hs hstep with ⟨-, rfl⟩ | ⟨hnew, heffect⟩
    · exact hstill
    · exact hstill.kept hs heffect (hretries hnew)
  obtain ⟨hs, hstill⟩ := hinv
  intro thread hthread harchived
  have hidle := hstill thread hthread harchived
  refine ⟨hidle, fun r hr hid => ?_⟩
  by_contra hlive
  obtain ⟨t, ht, htid, hactive⟩ := hs.attached r hr hlive
  obtain rfl : t = thread := Table.eq_of_key ht hthread (htid.trans hid)
  rw [hidle] at hactive
  cases hactive

end Histories

/-- A run fails before it is bound, and its thread is archived. -/
def archivedRun : List (Call × Readings) :=
  [ (.archiveThread 1 2 (someCaller 'd'), noon 0)
  , (.failUnboundRun 2 3 0 ['c'] none true (someCaller 'c'), noon 0) ] ++ firstRun

theorem archived_still_archivedRun :
    ∃ thread ∈ (after archivedRun).2.tables.ledger.threads, thread.archivedAt.isSome ∧
      thread.activeRunId = none ∧
        ∀ r ∈ (after archivedRun).2.tables.ledger.runs, r.threadId = thread.id →
          r.state.isTerminal := by
  have hhistory : History (restrict (Step plainPlatform) RetriesUnarchived) emptyStore
      (after archivedRun).1 (after archivedRun).2 := by
    refine (history_after archivedRun).restrict fun event hevent s _ => ?_
    have hcall := mem_runCalls hevent
    simp only [archivedRun, firstRun, List.cons_append, List.nil_append, List.mem_cons,
      List.not_mem_nil, or_false] at hcall
    rcases hcall with h | h | h | h <;> rw [h] <;> trivial
  exact ⟨_, List.mem_cons_self, rfl, archived_still hhistory _ List.mem_cons_self rfl⟩

/-- The run is then retried. -/
def retriedWhileArchived : List (Call × Readings) :=
  (.retryRun 2 1 ['r'] (someCaller 'e'), noon 4) :: archivedRun

theorem retried_while_archived :
    ∃ events s, History (Step plainPlatform) emptyStore events s ∧
      ∃ thread ∈ s.tables.ledger.threads, thread.archivedAt.isSome ∧
        thread.activeRunId = some 2 ∧ ∃ r ∈ s.tables.ledger.runs, r.threadId = thread.id ∧
          ¬r.state.isTerminal :=
  ⟨_, _, history_after retriedWhileArchived, _, List.mem_cons_self, rfl, rfl, _,
    List.mem_cons_self, rfl, by decide⟩

end Cortex.Runs
