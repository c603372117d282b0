import Cortex.Runs.StepEffects

/-!
# One live run per thread

`WellFormed` holds of the empty ledger and is kept by every effect, so it holds
of every store that is reached.  The three parts are kept for different reasons:
the references because rows stay with their attempts, the active attempts
because only the run of a command takes another one, and the agreement of runs
and threads because a run and its thread are always changed together.
-/

namespace Cortex.Runs

open Control Time Transaction

variable {s s' : Ledger} {closes unarchived unclaimed : Prop}

/-! ## References -/

section References

variable {subject : ℕ} {adds : Prop} {N : Attempt → Prop}

/-- Attempts stay with their runs. -/
private theorem hasAttempt_kept (h : s.attempts.Grows (AttemptKept subject) N s'.attempts)
    {runId attemptId : ℕ} (hown : s.HasAttempt runId attemptId) :
    s'.HasAttempt runId attemptId := by
  obtain ⟨a, ha, rfl, rfl⟩ := hown
  obtain ⟨a', ha', hkey, hkept⟩ := h.kept a ha
  exact ⟨a', ha', hkey, hkept.runId⟩

/-- Rows of work refer to attempts, old or new. -/
private theorem work_kept {ρ : Type} [WorkRow ρ] [Keyed ρ ℕ] {t t' : Table ρ}
    (h : s.attempts.Grows (AttemptKept subject) N s'.attempts)
    (hwork : t.Grows WorkKept (WorkAdded subject (s.HasAttempt subject) adds) t')
    (hold : ∀ r ∈ t, s.HasAttempt (WorkRow.runId r) (WorkRow.attemptId r)) :
    ∀ r ∈ t', s'.HasAttempt (WorkRow.runId r) (WorkRow.attemptId r) := by
  intro r' hr'
  rcases hwork.origin r' hr' with ⟨r, hr, -, hkept⟩ | hnew
  · rw [hkept.runId, hkept.attemptId]
    exact hasAttempt_kept h (hold r hr)
  · rw [hnew.runId]
    exact hasAttempt_kept h hnew.attemptId

theorem References.kept (hs : References s)
    (h : s.attempts.Grows (AttemptKept subject) N s'.attempts)
    (hnew : ∀ a, N a → a.CheckpointIsBound ∧
      ∀ source, a.sourceAttemptId = some source → s.HasAttempt a.runId source)
    (hwork : WorkFrame subject (s.HasAttempt subject) adds s s') : References s' where
  lineage := by
    intro a' ha' source hsource
    rcases h.origin a' ha' with ⟨a, ha, -, hkept⟩ | hN
    · rw [hkept.runId]
      exact hasAttempt_kept h (hs.lineage a ha source (hkept.sourceAttemptId ▸ hsource))
    · exact hasAttempt_kept h ((hnew a' hN).2 source hsource)
  checkpoints := by
    intro a' ha'
    rcases h.origin a' ha' with ⟨a, ha, -, hkept⟩ | hN
    · exact hkept.bound (hs.checkpoints a ha)
    · exact (hnew a' hN).1
  decisions := work_kept h hwork.decisions hs.decisions
  intents := work_kept h hwork.intents hs.intents
  actions := work_kept h hwork.actions hs.actions
  releases := by
    intro r' hr'
    rcases hwork.releases.origin r' hr' with ⟨r, hr, -, hkept⟩ | hadded
    · rw [hkept.runId, hkept.attemptId]
      exact hasAttempt_kept h (hs.releases r hr)
    · rw [hadded.runId]
      exact hasAttempt_kept h hadded.attemptId

/-- The attempts of a step that adds one. -/
theorem attempts_inserted (subject : ℕ) {attempt : Attempt}
    (h : s.attempts.insert? attempt = some s'.attempts) :
    s.attempts.Grows (AttemptKept subject) (fun a => a = attempt) s'.attempts :=
  .insert h (fun a _ => .refl a) rfl

end References

/-! ## Active attempts -/

section Runs

variable {adds : Prop} {T : Thread → Thread → Prop} {r r' : Run}

/-- Every run but the one of the command keeps its state and its active attempt. -/
theorem RunStep.origin (h : RunStep adds T s s' r r') {q' : Run} (hq' : q' ∈ s'.runs) :
    q' = r' ∨ q'.id ≠ r.id ∧ ∃ q ∈ s.runs, q'.id = q.id ∧ q'.threadId = q.threadId ∧
      q'.state = q.state ∧ q'.activeAttemptId = q.activeAttemptId := by
  obtain ⟨q, hq, hkey, hkept⟩ := h.runs.source hq'
  rcases hkept.others with hid | ⟨hstate, hactive⟩
  · exact .inl (Table.eq_of_key hq' h.after (hkey.trans (hid.trans h.id.symm)))
  · by_cases hid : q'.id = r.id
    · exact .inl (Table.eq_of_key hq' h.after (hid.trans h.id.symm))
    · exact .inr ⟨hid, q, hq, hkept.id, hkept.threadId, hstate, hactive⟩

/-- The run of the command stays on its thread. -/
theorem RunStep.threadId (h : RunStep adds T s s' r r') : r'.threadId = r.threadId :=
  (h.runs.rel h.before h.after h.id).threadId

/-- A run that is not the one of the command is still there. -/
theorem RunStep.kept (h : RunStep adds T s s' r r') {q : Run} (hq : q ∈ s.runs)
    (hne : q.id ≠ r.id) : ∃ q' ∈ s'.runs, q'.id = q.id ∧ q'.threadId = q.threadId ∧
      q'.state = q.state ∧ q'.activeAttemptId = q.activeAttemptId := by
  obtain ⟨q', hq', hkey, hkept⟩ := h.runs.kept q hq
  rcases hkept.others with hid | ⟨hstate, hactive⟩
  · exact absurd hid hne
  · exact ⟨q', hq', hkey, hkept.threadId, hstate, hactive⟩

theorem RunStep.activeAttempt (h : RunStep adds T s s' r r')
    (hs : ∀ q ∈ s.runs, s.HasAttempt q.id q.activeAttemptId)
    (hkept : ∀ {runId attemptId}, s.HasAttempt runId attemptId → s'.HasAttempt runId attemptId)
    (hactive : s'.HasAttempt r.id r'.activeAttemptId) :
    ∀ q ∈ s'.runs, s'.HasAttempt q.id q.activeAttemptId := by
  intro q' hq'
  rcases h.origin hq' with rfl | ⟨-, q, hq, hid, -, -, hqactive⟩
  · rw [h.id]
    exact hactive
  · rw [hid, hqactive]
    exact hkept (hs q hq)

/-! ## Runs and threads -/

/-- Threads and runs that stay as they are. -/
theorem ThreadsAgree.same (hs : ThreadsAgree s)
    (hruns : s.runs.Grows RunSame (fun _ => False) s'.runs)
    (hthreads : s.threads.Grows (fun t t' => t'.activeRunId = t.activeRunId)
      (fun t => t.activeRunId = none) s'.threads) : ThreadsAgree s' where
  attached := by
    intro r' hr' hlive
    obtain ⟨r, hr, hkey, hsame⟩ := hruns.source hr'
    obtain ⟨t, ht, hid, hactive⟩ := hs.attached r hr (hsame.state ▸ hlive)
    obtain ⟨t', ht', htkey, hkept⟩ := hthreads.kept t ht
    refine ⟨t', ht', htkey.trans (hid.trans hsame.threadId.symm), hkept.trans (hactive.trans ?_)⟩
    exact congrArg some hkey.symm
  active := by
    intro t' ht' id hactive
    rcases hthreads.origin t' ht' with ⟨t, ht, hkey, hkept⟩ | hnew
    · obtain ⟨r, hr, hid, hthread, hlive⟩ := hs.active t ht id (hkept.symm.trans hactive)
      obtain ⟨r', hr', hrkey, hsame⟩ := hruns.kept r hr
      refine ⟨r', hr', hrkey.trans hid, ?_, hsame.state ▸ hlive⟩
      exact hsame.threadId.trans (hthread.trans hkey.symm)
    · rw [hnew] at hactive
      cases hactive

/-- A live run that stays live, on a thread that stays as it is. -/
theorem ThreadsAgree.moved (hs : ThreadsAgree s) (h : RunStep adds ThreadKept s s' r r')
    (hlive : ¬r.state.isTerminal) (hlive' : ¬r'.state.isTerminal) : ThreadsAgree s' where
  attached := by
    intro q' hq' hqlive
    have hold : ∃ q ∈ s.runs, q'.id = q.id ∧ q'.threadId = q.threadId ∧ ¬q.state.isTerminal := by
      rcases h.origin hq' with rfl | ⟨-, q, hq, hid, hthread, hstate, -⟩
      · exact ⟨r, h.before, h.id, h.threadId, hlive⟩
      · exact ⟨q, hq, hid, hthread, hstate ▸ hqlive⟩
    obtain ⟨q, hq, hid, hthread, hqlive⟩ := hold
    obtain ⟨t, ht, htid, hactive⟩ := hs.attached q hq hqlive
    obtain ⟨t', ht', hkey, hkept⟩ := h.threads.kept t ht
    exact ⟨t', ht', hkey.trans (htid.trans hthread.symm),
      hkept.activeRunId.trans (hactive.trans (congrArg some hid.symm))⟩
  active := by
    intro t' ht' id hactive
    obtain ⟨t, ht, hkey, hkept⟩ := h.threads.source ht'
    obtain ⟨q, hq, hid, hthread, hqlive⟩ := hs.active t ht id (hkept.activeRunId.symm.trans hactive)
    by_cases hqr : q.id = r.id
    · obtain rfl : q = r := Table.eq_of_key hq h.before hqr
      exact ⟨r', h.after, h.id.trans hid, h.threadId.trans (hthread.trans hkey.symm), hlive'⟩
    · obtain ⟨q', hq', hid', hthread', hstate, -⟩ := h.kept hq hqr
      exact ⟨q', hq', hid'.trans hid, hthread'.trans (hthread.trans hkey.symm), hstate ▸ hqlive⟩

/-- A run that ends, and leaves its thread. -/
theorem ThreadsAgree.finished (hs : ThreadsAgree s)
    (h : RunStep adds (ThreadDetached r.id) s s' r r') (hterminal : r'.state.isTerminal)
    (hdetached : ∀ t' ∈ s'.threads, t'.activeRunId ≠ some r.id) : ThreadsAgree s' where
  attached := by
    intro q' hq' hqlive
    rcases h.origin hq' with rfl | ⟨hne, q, hq, hid, hthread, hstate, -⟩
    · exact absurd hterminal hqlive
    · obtain ⟨t, ht, htid, hactive⟩ := hs.attached q hq (hstate ▸ hqlive)
      obtain ⟨t', ht', hkey, hkept⟩ := h.threads.kept t ht
      refine ⟨t', ht', hkey.trans (htid.trans hthread.symm), ?_⟩
      rcases hkept.activeRunId with hsame | ⟨hdropped, -⟩
      · exact hsame.trans (hactive.trans (congrArg some hid.symm))
      · rw [hactive] at hdropped
        exact absurd (hid.trans (Option.some.inj hdropped)) hne
  active := by
    intro t' ht' id hactive
    obtain ⟨t, ht, hkey, hkept⟩ := h.threads.source ht'
    have hsame : t.activeRunId = some id := by
      rcases hkept.activeRunId with hsame | ⟨-, hnone⟩
      · exact hsame.symm.trans hactive
      · rw [hnone] at hactive
        cases hactive
    obtain ⟨q, hq, hid, hthread, hqlive⟩ := hs.active t ht id hsame
    have hqr : q.id ≠ r.id := by
      rintro heq
      exact hdetached t' ht' (hactive.trans (congrArg some (hid.symm.trans heq)))
    obtain ⟨q', hq', hid', hthread', hstate, -⟩ := h.kept hq hqr
    exact ⟨q', hq', hid'.trans hid, hthread'.trans (hthread.trans hkey.symm), hstate ▸ hqlive⟩

/-- A run that is set going on a thread without another one. -/
theorem ThreadsAgree.restarted {thread : Thread} (hs : ThreadsAgree s)
    (h : RunStep adds (ThreadAttached r.threadId r.id) s s' r r') (hthread : thread ∈ s.threads)
    (hid : thread.id = r.threadId)
    (hidle : thread.activeRunId = none ∨ thread.activeRunId = some r.id)
    (hlive' : ¬r'.state.isTerminal) : ThreadsAgree s' where
  attached := by
    intro q' hq' hqlive
    rcases h.origin hq' with rfl | ⟨hne, q, hq, hqid, hqthread, hstate, -⟩
    · obtain ⟨t', ht', hkey, hkept⟩ := h.threads.kept thread hthread
      refine ⟨t', ht', hkey.trans (hid.trans h.threadId.symm), ?_⟩
      rw [hkept.activeRunId, if_pos hid, h.id]
    · obtain ⟨t, ht, htid, hactive⟩ := hs.attached q hq (hstate ▸ hqlive)
      obtain ⟨t', ht', hkey, hkept⟩ := h.threads.kept t ht
      refine ⟨t', ht', hkey.trans (htid.trans hqthread.symm), ?_⟩
      rw [hkept.activeRunId, if_neg, hactive, hqid]
      intro heq
      obtain rfl : t = thread := Table.eq_of_key ht hthread (heq.trans hid.symm)
      rcases hidle with hnone | hsome
      · rw [hnone] at hactive
        cases hactive
      · rw [hsome] at hactive
        exact hne (hqid.trans (Option.some.inj hactive).symm)
  active := by
    intro t' ht' id hactive
    obtain ⟨t, ht, hkey, hkept⟩ := h.threads.source ht'
    rw [hkept.activeRunId] at hactive
    split at hactive
    · rename_i htid
      refine ⟨r', h.after, h.id.trans (Option.some.inj hactive), ?_, hlive'⟩
      exact h.threadId.trans (htid.symm.trans hkey.symm)
    · rename_i htid
      obtain ⟨q, hq, hqid, hqthread, hqlive⟩ := hs.active t ht id hactive
      have hqr : q.id ≠ r.id := by
        intro heq
        obtain rfl : q = r := Table.eq_of_key hq h.before heq
        exact htid hqthread.symm
      obtain ⟨q', hq', hid', hthread', hstate, -⟩ := h.kept hq hqr
      exact ⟨q', hq', hid'.trans hqid, hthread'.trans (hqthread.trans hkey.symm), hstate ▸ hqlive⟩

/-- A new run on a thread that has none. -/
theorem ThreadsAgree.created {run : Run} {thread : Thread} (hs : ThreadsAgree s)
    (hruns : s.runs.insert? run = some s'.runs)
    (hthreads : s.threads.Grows (ThreadAttached run.threadId run.id) (fun _ => False) s'.threads)
    (hthread : thread ∈ s.threads) (hid : thread.id = run.threadId)
    (hidle : thread.activeRunId = none) (hlive : ¬run.state.isTerminal) : ThreadsAgree s' where
  attached := by
    intro q hq hqlive
    rcases (Table.mem_insert hruns).1 hq with hq | rfl
    · obtain ⟨t, ht, htid, hactive⟩ := hs.attached q hq hqlive
      obtain ⟨t', ht', hkey, hkept⟩ := hthreads.kept t ht
      refine ⟨t', ht', hkey.trans htid, ?_⟩
      rw [hkept.activeRunId, if_neg, hactive]
      intro heq
      obtain rfl : t = thread := Table.eq_of_key ht hthread (heq.trans hid.symm)
      rw [hidle] at hactive
      cases hactive
    · obtain ⟨t', ht', hkey, hkept⟩ := hthreads.kept thread hthread
      exact ⟨t', ht', hkey.trans hid, hkept.activeRunId.trans (if_pos hid)⟩
  active := by
    intro t' ht' id hactive
    obtain ⟨t, ht, hkey, hkept⟩ := hthreads.source ht'
    rw [hkept.activeRunId] at hactive
    split at hactive
    · rename_i htid
      exact ⟨run, (Table.mem_insert hruns).2 (.inr rfl), Option.some.inj hactive,
        htid.symm.trans hkey.symm, hlive⟩
    · obtain ⟨q, hq, hqid, hqthread, hqlive⟩ := hs.active t ht id hactive
      exact ⟨q, (Table.mem_insert hruns).2 (.inl hq), hqid, hqthread.trans hkey.symm, hqlive⟩

end Runs

/-! ## Every reachable store -/

theorem wellFormed_empty : WellFormed .empty where
  attached r hr := absurd hr (Table.not_mem_empty r)
  active t ht := absurd ht (Table.not_mem_empty t)
  activeAttempt r hr := absurd hr (Table.not_mem_empty r)
  lineage a ha := absurd ha (Table.not_mem_empty a)
  checkpoints a ha := absurd ha (Table.not_mem_empty a)
  decisions d hd := absurd hd (Table.not_mem_empty d)
  intents i hi := absurd hi (Table.not_mem_empty i)
  actions a ha := absurd ha (Table.not_mem_empty a)
  releases r hr := absurd hr (Table.not_mem_empty r)

/-- Every effect leaves the tables well-formed. -/
theorem Effect.wellFormed (hs : WellFormed s) (h : Effect closes unarchived unclaimed s s') :
    WellFormed s' := by
  cases h with
  | touched subject runs threads attempts states work =>
      refine { hs.toThreadsAgree.same runs ?_,
        hs.toReferences.kept attempts (fun _ => False.elim) work with activeAttempt := ?_ }
      · exact threads.mono (fun _ _ _ h => h.activeRunId) fun _ h => h.1
      · intro r' hr'
        obtain ⟨r, hr, hkey, hsame⟩ := runs.source hr'
        rw [show r'.id = r.id from hkey, hsame.activeAttemptId]
        exact hasAttempt_kept attempts (hs.activeAttempt r hr)
  | archived threadId threads same =>
      rw [same]
      have hagree : ThreadsAgree { s with threads := s'.threads } :=
        hs.toThreadsAgree.same (.refl .refl) (threads.mono (fun _ _ _ h => h.1) fun _ => False.elim)
      have hreferences : References { s with threads := s'.threads } := { hs.toReferences with }
      exact { hagree, hreferences with activeAttempt := hs.activeAttempt }
  | created run attempt thread runs attempts threads hthread id hopen idle state own active first
      fresh work =>
      have hgrows := attempts_inserted run.id attempts
      have hlive : ¬run.state.isTerminal := by
        rw [state]
        decide
      refine { hs.toThreadsAgree.created runs threads hthread id idle hlive,
        hs.toReferences.kept hgrows ?_ work with activeAttempt := ?_ }
      · rintro a rfl
        refine ⟨fresh, fun source hsource => ?_⟩
        rw [first] at hsource
        cases hsource
      · intro q hq
        rcases (Table.mem_insert runs).1 hq with hq | rfl
        · exact hasAttempt_kept hgrows (hs.activeAttempt q hq)
        · exact ⟨attempt, (Table.mem_insert attempts).2 (.inr rfl), active.symm, own⟩
  | moved r r' step attempts active live live' paused =>
      refine { hs.toThreadsAgree.moved step live live',
        hs.toReferences.kept attempts (fun _ => False.elim) step.work with
        activeAttempt := step.activeAttempt hs.activeAttempt (hasAttempt_kept attempts) ?_ }
      rw [active]
      exact hasAttempt_kept attempts (hs.activeAttempt r step.before)
  | finished r r' step attempts active terminal detached closed =>
      refine { hs.toThreadsAgree.finished step terminal detached,
        hs.toReferences.kept attempts (fun _ => False.elim) step.work with
        activeAttempt := step.activeAttempt hs.activeAttempt (hasAttempt_kept attempts) ?_ }
      rw [active]
      exact hasAttempt_kept attempts (hs.activeAttempt r step.before)
  | restarted r r' attempt thread step attempts own active source fresh hthread threadId idle live'
      running hopen =>
      have hgrows := attempts_inserted r.id attempts
      refine { hs.toThreadsAgree.restarted step hthread threadId idle live',
        hs.toReferences.kept hgrows ?_ step.work with
        activeAttempt := step.activeAttempt hs.activeAttempt (hasAttempt_kept hgrows) ?_ }
      · rintro a rfl
        refine ⟨fresh, fun id hid => ?_⟩
        rw [source] at hid
        rw [own, ← Option.some.inj hid]
        exact hs.activeAttempt r step.before
      · exact ⟨attempt, (Table.mem_insert attempts).2 (.inr rfl), active.symm, own⟩
  | putBack r r' step attempts live state own paused unclaimed =>
      have hlive' : ¬r'.state.isTerminal := by
        rw [state]
        decide
      exact { hs.toThreadsAgree.moved step live hlive',
        hs.toReferences.kept attempts (fun _ => False.elim) step.work with
        activeAttempt := step.activeAttempt hs.activeAttempt (hasAttempt_kept attempts)
          (hasAttempt_kept attempts own) }
  | claimedRelease releaseId releases same grows free =>
      rw [same]
      refine { hs with releases := fun release' hrelease' => ?_ }
      obtain ⟨release, hrelease, -, hrun, hattempt, -⟩ := grows.source hrelease'
      rw [hrun, hattempt]
      exact hs.releases release hrelease

section Histories

variable {Digest : Type} [DecidableEq Digest] {platform : Platform Digest}

theorem step_wellFormed {s s' : Store Digest} {event : Event} (hs : WellFormed s.tables.ledger)
    (h : Step platform s event s') : WellFormed s'.tables.ledger := by
  rcases step_effect hs h with ⟨-, rfl⟩ | ⟨-, heffect⟩
  · exact hs
  · exact heffect.wellFormed hs

private theorem wellFormed_of_history {events : List Event} {s : Store Digest}
    (h : History (Step platform) emptyStore events s) : WellFormed s.tables.ledger :=
  h.invariant (P := fun s => WellFormed s.tables.ledger) wellFormed_empty step_wellFormed

/-- In every store that is reached, the live run of a thread is its active run, so that there
is at most one, and its active attempt is an attempt of it. -/
theorem one_live_run {events : List Event} {s : Store Digest}
    (h : History (Step platform) emptyStore events s) :
    ∀ thread ∈ s.tables.ledger.threads,
      (∀ r ∈ s.tables.ledger.runs, ∀ r' ∈ s.tables.ledger.runs, r.threadId = thread.id →
        r'.threadId = thread.id → ¬r.state.isTerminal → ¬r'.state.isTerminal → r = r') ∧
      (∀ r ∈ s.tables.ledger.runs, r.threadId = thread.id →
        (¬r.state.isTerminal ↔ thread.activeRunId = some r.id)) ∧
      (∀ id, thread.activeRunId = some id →
        ∃ r ∈ s.tables.ledger.runs, r.id = id ∧ r.threadId = thread.id ∧
          ∃ a ∈ s.tables.ledger.attempts, a.id = r.activeAttemptId ∧ a.runId = r.id) := by
  have hs := wellFormed_of_history h
  intro thread hthread
  have hiff : ∀ r ∈ s.tables.ledger.runs, r.threadId = thread.id →
      (¬r.state.isTerminal ↔ thread.activeRunId = some r.id) := by
    intro r hr hid
    constructor
    · intro hlive
      obtain ⟨t, ht, htid, hactive⟩ := hs.attached r hr hlive
      obtain rfl : t = thread := Table.eq_of_key ht hthread (htid.trans hid)
      exact hactive
    · intro hactive
      obtain ⟨r', hr', hid', -, hlive⟩ := hs.active thread hthread r.id hactive
      obtain rfl : r' = r := Table.eq_of_key hr' hr hid'
      exact hlive
  refine ⟨fun r hr r' hr' hid hid' hlive hlive' => ?_, hiff, fun id hactive => ?_⟩
  · have hactive := (hiff r hr hid).1 hlive
    rw [(hiff r' hr' hid').1 hlive'] at hactive
    exact Table.eq_of_key hr hr' (Option.some.inj hactive).symm
  · obtain ⟨r, hr, hid, hthreadId, -⟩ := hs.active thread hthread id hactive
    exact ⟨r, hr, hid, hthreadId, hs.activeAttempt r hr⟩

end Histories

/-! ## Runs of the store -/

/-- Readings whose clock stands still at noon of a day. -/
def noon (newId : ℕ) : Readings where
  clock _ :=
    { year := 2026, month := 9, day := 3, hour := 12, minute := 0, second := 0, microsecond := 0
      validDate := by decide, validTime := Civil.validTime_noon }
  newId k := newId + k
  workspaceRevision _ := some 0
  isEngineOwnedRun _ := false
  workflowDecisionRef _ := none
  isAtDecisionStage _ := false
  hasFailedEffect _ := false
  titleCandidates _ := 0
  importsAreConsistent _ := true

/-- A platform on which requests stand for their own digests. -/
def plainPlatform : Platform Hashed where
  requestHash := id
  resourceRoot _ := some ['a', 'r', 't', 'i', 'f', 'a', 'c', 't', 's']

def someCaller (key : Char) : Caller :=
  { actorId := ['o'], idempotencyKey := List.replicate 16 key }

/-- The store after some calls, the latest first. -/
def after (calls : List (Call × Readings)) : List Event × Store Hashed :=
  runCalls (exec plainPlatform) emptyStore calls

theorem history_after (calls : List (Call × Readings)) :
    History (Step plainPlatform) emptyStore (after calls).1 (after calls).2 :=
  history_runCalls _ emptyStore calls

/-- A thread with a run. -/
def firstRun : List (Call × Readings) :=
  [ (.createRun 1 0 none (someCaller 'b'), noon 2)
  , (.createThread ['w'] ['t'] 0 (someCaller 'a'), noon 1) ]

theorem one_live_run_firstRun :
    ∃ thread ∈ (after firstRun).2.tables.ledger.threads, thread.activeRunId = some 2 ∧
      ∃ r ∈ (after firstRun).2.tables.ledger.runs, r.id = 2 ∧ r.threadId = thread.id ∧
        ∃ a ∈ (after firstRun).2.tables.ledger.attempts,
          a.id = r.activeAttemptId ∧ a.runId = r.id :=
  ⟨_, List.mem_cons_self, rfl,
    (one_live_run (history_after firstRun) _ List.mem_cons_self).2.2 2 rfl⟩

end Cortex.Runs
