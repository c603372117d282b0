import Cortex.Runs.Effects

/-!
# Effects of the commands about threads

None of them moves a run.  A thread is archived only without a run at work, and
a run is created only on a thread that is not archived and has no run at work.
-/

namespace Cortex.Runs

open Control Time Transaction

variable {closes unarchived unclaimed : Prop} {s s' : Ledger} {readings : Readings}
  {value : Response}

/-- A command that keeps every table except threads, messages and bindings. -/
theorem Effect.ofThreads
    (threads : s.threads.Grows ThreadKept (fun t => t.activeRunId = none ∧ t.archivedAt = none)
      s'.threads)
    (hruns : s'.runs = s.runs) (hattempts : s'.attempts = s.attempts)
    (work : ∀ subject own, WorkFrame subject own False s s') :
    Effect closes unarchived unclaimed s s' := by
  refine .touched 0 ?_ threads ?_ ?_ (work _ _)
  · rw [hruns]
    exact .refl .refl
  · rw [AttemptsKept, hattempts]
    exact .refl .refl
  · rw [hattempts]
    exact .refl fun _ => rfl

theorem createThread_effect {workspaceId title : Text} {expectedRevision : ℤ}
    (h : s.createThread readings workspaceId title expectedRevision = .ok (s', value)) :
    Effect closes unarchived unclaimed s s' := by
  simp only [Ledger.createThread, bind_eq_ok, orRaise_eq_ok, pure_eq_ok, Prod.mk.injEq] at h
  obtain ⟨_, -, -, -, threads, hinsert, rfl, -⟩ := h
  exact .ofThreads (.insert hinsert (fun t _ => .refl t) ⟨rfl, rfl⟩) (by rfl) (by rfl) fun _ _ => .same (by rfl)

/-- Only the thread that is named changes, and it was at the revision expected. -/
private theorem updateThread_eq_ok {threadId : ℕ} {expectedRevision : ℤ} {now : Stamp}
    {change : Thread → Thread} {hchange : ∀ t, (change t).id = t.id}
    (h : s.updateThread threadId expectedRevision now change hchange = .ok s') :
    s' = { s with threads := s'.threads } ∧
      ∀ R N, (∀ t ∈ s.threads, R t t) →
        (∀ t ∈ s.threads, t.id = threadId →
          R t { change t with revision := t.revision + 1, updatedAt := now }) →
        s.threads.Grows R N s'.threads := by
  simp only [Ledger.updateThread, bind_eq_ok, orRaise_eq_ok, pure_eq_ok] at h
  obtain ⟨threads, hupdate, rfl⟩ := h
  refine ⟨rfl, fun R N hrefl hR => ?_⟩
  apply Table.Grows.updateRow hupdate
  · exact fun t ht _ => hrefl t ht
  · exact fun t ht hkey _ => hR t ht hkey

theorem renameThread_effect {threadId : ℕ} {title : Text} {expectedRevision : ℤ}
    (h : s.renameThread readings threadId title expectedRevision = .ok (s', value)) :
    Effect closes unarchived unclaimed s s' := by
  simp only [Ledger.renameThread, bind_eq_ok, pure_eq_ok, Prod.mk.injEq] at h
  obtain ⟨thread, -, -, -, m, hupdate, _, -, rfl, -⟩ := h
  obtain ⟨hsame, hgrows⟩ := updateThread_eq_ok hupdate
  rw [hsame]
  exact .ofThreads (hgrows _ _ (fun t _ => .refl t) fun t _ _ => ⟨rfl, rfl⟩) (by rfl) (by rfl) fun _ _ => .same (by rfl)

theorem setThreadArchived_effect {threadId : ℕ} {archived : Bool} {expectedRevision : ℤ}
    (h : s.setThreadArchived readings threadId archived expectedRevision = .ok (s', value)) :
    Effect closes unarchived unclaimed s s' := by
  simp only [Ledger.setThreadArchived, bind_eq_ok, require_eq_ok, Ledger.thread_eq_ok] at h
  obtain ⟨thread, ⟨hthread, hid⟩, -, -, -, hidle, h⟩ := h
  split at h
  · simp only [pure_eq_ok, Prod.mk.injEq] at h
    obtain ⟨rfl, -⟩ := h
    exact .ofThreads (.refl .refl) (by rfl) (by rfl) fun _ _ => .same (by rfl)
  · simp only [bind_eq_ok, pure_eq_ok, Prod.mk.injEq] at h
    obtain ⟨m, hupdate, _, -, rfl, -⟩ := h
    obtain ⟨hsame, hgrows⟩ := updateThread_eq_ok hupdate
    refine .archived threadId ?_ hsame
    apply hgrows
    · exact fun t _ => ⟨rfl, .inl rfl⟩
    · intro t ht htid
      obtain rfl : t = thread := Table.eq_of_key ht hthread (htid.trans hid.symm)
      refine ⟨rfl, .inr ?_⟩
      cases archived with
      | false => exact .inl rfl
      | true =>
          right
          cases hactive : t.activeRunId with
          | none => rfl
          | some active => exact absurd ⟨rfl, by rw [hactive]; rfl⟩ hidle

theorem insertMessage_eq_ok {threadId newId : ℕ} {role : MessageRole} {content : Text}
    {now : Stamp} {message : Message}
    (h : s.insertMessage threadId role content newId now = .ok (s', message)) :
    s' = { s with messages := s'.messages } := by
  simp only [Ledger.insertMessage, bind_eq_ok, orRaise_eq_ok, pure_eq_ok, Prod.mk.injEq] at h
  obtain ⟨messages, -, rfl, -⟩ := h
  rfl

theorem appendMessage_effect {threadId : ℕ} {role : MessageRole} {content : Text}
    {expectedRevision : ℤ}
    (h : s.appendMessage readings threadId role content expectedRevision = .ok (s', value)) :
    Effect closes unarchived unclaimed s s' := by
  simp only [Ledger.appendMessage, bind_eq_ok, pure_eq_ok, Prod.mk.injEq] at h
  obtain ⟨thread, -, -, -, -, -, ⟨m, message⟩, hinsert, m', hupdate, rfl, -⟩ := h
  obtain ⟨hsame, hgrows⟩ := updateThread_eq_ok hupdate
  rw [insertMessage_eq_ok hinsert] at hsame hgrows
  rw [hsame]
  exact .ofThreads (hgrows _ _ (fun t _ => .refl t) fun t _ _ => ⟨rfl, rfl⟩) (by rfl) (by rfl) fun _ _ => .same (by rfl)

/-- The active run of a thread has not ended, so a thread that takes a new run has none. -/
private theorem expectNoActiveRun_eq_ok {thread : Thread} {u : Unit} (hs : WellFormed s)
    (hthread : thread ∈ s.threads) (h : s.expectNoActiveRun thread = .ok u) :
    thread.activeRunId = none := by
  unfold Ledger.expectNoActiveRun at h
  split at h
  · rename_i id hactive
    simp only [bind_eq_ok, require_eq_ok, Ledger.run_eq_ok] at h
    obtain ⟨active, ⟨hmem, hid⟩, hterminal⟩ := h
    obtain ⟨r, hr, hrid, -, hlive⟩ := hs.active thread hthread id hactive
    obtain rfl : r = active := Table.eq_of_key hr hmem (hrid.trans hid.symm)
    exact absurd hterminal hlive
  · assumption

theorem createRun_effect {threadId : ℕ} {expectedRevision : ℤ} (hs : WellFormed s)
    (h : s.createRun readings threadId expectedRevision = .ok (s', value)) :
    Effect closes unarchived unclaimed s s' := by
  simp only [Ledger.createRun, bind_eq_ok, orRaise_eq_ok, require_eq_ok, pure_eq_ok,
    Prod.mk.injEq, Ledger.thread_eq_ok, expectRevision_eq_ok] at h
  obtain ⟨thread, ⟨hthread, hid⟩, -, hrevision, -, hopen, _, hidle, runs, hruns, attempts,
    hattempts, rfl, -⟩ := h
  refine .created _ _ thread hruns hattempts ?_ hthread hid hopen
    (expectNoActiveRun_eq_ok hs hthread hidle) rfl rfl rfl rfl ?_ (.same (by rfl))
  · refine .update (by intro; rfl) (fun t ht hne => ⟨rfl, ?_⟩) fun t _ ht => ⟨rfl, (if_pos ht.1).symm⟩
    rw [if_neg]
    intro htid
    obtain rfl : t = thread := Table.eq_of_key ht hthread (htid.trans hid.symm)
    exact hne ⟨htid, hrevision⟩
  · rintro ⟨uri, huri, -⟩
    cases huri

theorem createRuntimeBinding_effect {threadId generation : ℕ}
    {adapterId runtimeSessionRef adapterVersion : Text} {parentRef : Option Text}
    (h : s.createRuntimeBinding readings threadId adapterId runtimeSessionRef generation
      adapterVersion parentRef = .ok (s', value)) :
    Effect closes unarchived unclaimed s s' := by
  simp only [Ledger.createRuntimeBinding, bind_eq_ok, orRaise_eq_ok, pure_eq_ok,
    Prod.mk.injEq] at h
  obtain ⟨_, -, -, -, bindings, -, rfl, -⟩ := h
  exact .ofThreads (.refl .refl) (by rfl) (by rfl) fun _ _ => .same (by rfl)

end Cortex.Runs
