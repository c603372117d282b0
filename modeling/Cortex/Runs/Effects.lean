import Cortex.Runs.Frames

/-!
# The effect of a command

What one committed command does, seen from the run it is about: it leaves the
run where it is, moves it to another live state, ends it, starts another attempt
of it, or puts the paused attempt back that it was resumed from.  Besides these
a command may create a run, archive a thread, or claim the release of a pin.

`WellFormed` says how the tables refer to one another.  The effects are stated
for commands that start from a well-formed ledger.
-/

namespace Cortex.Runs

open Control Time Transaction

/-! ## Well-formed ledgers -/

/-- An attempt was resumed or retried from an attempt of the same run. -/
def Lineage (attempts : Table Attempt) : Prop :=
  ∀ a ∈ attempts, ∀ source, a.sourceAttemptId = some source →
    ∃ b ∈ attempts, b.id = source ∧ b.runId = a.runId

/-- The live runs are the active runs of their threads. -/
structure ThreadsAgree (s : Ledger) : Prop where
  attached : ∀ r ∈ s.runs, ¬r.state.isTerminal →
    ∃ t ∈ s.threads, t.id = r.threadId ∧ t.activeRunId = some r.id
  active : ∀ t ∈ s.threads, ∀ id, t.activeRunId = some id →
    ∃ r ∈ s.runs, r.id = id ∧ r.threadId = t.id ∧ ¬r.state.isTerminal

/-- Every row about an attempt names the run of the attempt. -/
structure References (s : Ledger) : Prop where
  lineage : Lineage s.attempts
  checkpoints : ∀ a ∈ s.attempts, a.CheckpointIsBound
  decisions : ∀ d ∈ s.decisions, s.HasAttempt d.runId d.attemptId
  intents : ∀ i ∈ s.intents, s.HasAttempt i.runId i.attemptId
  actions : ∀ a ∈ s.actions, s.HasAttempt a.runId a.attemptId
  releases : ∀ r ∈ s.releases, s.HasAttempt r.runId r.attemptId

/-- How the tables refer to one another. -/
structure WellFormed (s : Ledger) : Prop extends ThreadsAgree s, References s where
  activeAttempt : ∀ r ∈ s.runs, s.HasAttempt r.id r.activeAttemptId

namespace WellFormed

variable {s : Ledger}

/-- The active attempt of a run is an attempt of the run. -/
theorem runId_of_active (hs : WellFormed s) {run : Run} {attempt : Attempt} (hrun : run ∈ s.runs)
    (hattempt : attempt ∈ s.attempts) (hid : attempt.id = run.activeAttemptId) :
    attempt.runId = run.id := by
  obtain ⟨a, ha, haid, harun⟩ := hs.activeAttempt run hrun
  obtain rfl : attempt = a := Table.eq_of_key hattempt ha (hid.trans haid.symm)
  exact harun

/-- Only the thread of a run has it as its active run. -/
theorem thread_of_active (hs : WellFormed s) {run : Run} (hrun : run ∈ s.runs) :
    ∀ t ∈ s.threads, t.activeRunId = some run.id → t.id = run.threadId := by
  intro t ht hactive
  obtain ⟨r, hr, hid, hthread, -⟩ := hs.active t ht run.id hactive
  obtain rfl : r = run := Table.eq_of_key hr hrun hid
  exact hthread.symm

end WellFormed

/-- The pending decisions of a run are those of its pending source intents. -/
def DecisionsAreOfIntents (s : Ledger) (runId : ℕ) : Prop :=
  ∀ d ∈ s.decisions, d.runId = runId → d.state = .pending →
    ∃ i ∈ s.intents, i.runId = runId ∧ i.state = .pending ∧ i.decisionId = d.id

/-- The pending actions of a run are for one attempt. -/
def ActionsAreOf (s : Ledger) (runId attemptId : ℕ) : Prop :=
  ∀ a ∈ s.actions, a.runId = runId → a.state = .pending → a.attemptId = attemptId

/-- Nothing of a run waits for anybody. -/
structure NoWork (s : Ledger) (runId : ℕ) : Prop where
  decisions : ∀ d ∈ s.decisions, d.runId = runId → d.state ≠ .pending
  intents : ∀ i ∈ s.intents, i.runId = runId → i.state ≠ .pending
  actions : ∀ a ∈ s.actions, a.runId = runId → a.state ≠ .pending

/-- An attempt is paused at a checkpoint. -/
def Ledger.IsPausedAt (s : Ledger) (attemptId : ℕ) : Prop :=
  ∃ a ∈ s.attempts, a.id = attemptId ∧ a.state = .paused ∧ isSet a.checkpointUri

/-! ## Effects -/

/-- The part of an effect that all changes of a run have in common. -/
structure RunStep (adds : Prop) (T : Thread → Thread → Prop) (s s' : Ledger) (r r' : Run) :
    Prop where
  before : r ∈ s.runs
  after : r' ∈ s'.runs
  id : r'.id = r.id
  runs : s.runs.Grows (RunKept r.id) (fun _ => False) s'.runs
  threads : s.threads.Grows T (fun _ => False) s'.threads
  work : WorkFrame r.id (s.HasAttempt r.id) adds s s'

/-- The effect of a committed command.  `closes`, `unarchived` and `unclaimed` are conditions
on the call and the state it starts from, under which it does what the store promises. -/
inductive Effect (closes unarchived unclaimed : Prop) (s s' : Ledger) : Prop
  /-- Runs and attempts stay in their states. -/
  | touched (subject : ℕ)
      (runs : s.runs.Grows RunSame (fun _ => False) s'.runs)
      (threads : s.threads.Grows ThreadKept
        (fun t => t.activeRunId = none ∧ t.archivedAt = none) s'.threads)
      (attempts : AttemptsKept subject s s')
      (states : s.attempts.Grows (fun a a' => a'.state = a.state) (fun _ => False) s'.attempts)
      (work : WorkFrame subject (s.HasAttempt subject) False s s')
  /-- A thread without a run at work is archived, or any thread brought back. -/
  | archived (threadId : ℕ)
      (threads : s.threads.Grows
        (fun t t' => t'.activeRunId = t.activeRunId ∧ (t'.archivedAt = t.archivedAt ∨
          t'.archivedAt = none ∨ t.activeRunId = none)) (fun _ => False) s'.threads)
      (same : s' = { s with threads := s'.threads })
  /-- A run is created on a thread that is not archived and has no run at work. -/
  | created (run : Run) (attempt : Attempt) (thread : Thread)
      (runs : s.runs.insert? run = some s'.runs)
      (attempts : s.attempts.insert? attempt = some s'.attempts)
      (threads : s.threads.Grows (ThreadAttached run.threadId run.id) (fun _ => False) s'.threads)
      (hthread : thread ∈ s.threads) (id : thread.id = run.threadId)
      (hopen : thread.archivedAt = none) (idle : thread.activeRunId = none)
      (state : run.state = .queued) (own : attempt.runId = run.id)
      (active : run.activeAttemptId = attempt.id) (first : attempt.sourceAttemptId = none)
      (fresh : attempt.CheckpointIsBound)
      (work : WorkFrame run.id (s.HasAttempt run.id) False s s')
  /-- A live run goes on in another live state. -/
  | moved (r r' : Run) (step : RunStep True ThreadKept s s' r r')
      (attempts : AttemptsKept r.id s s')
      (active : r'.activeAttemptId = r.activeAttemptId)
      (live : ¬r.state.isTerminal) (live' : ¬r'.state.isTerminal)
      (paused : r'.state = .paused → s'.IsPausedAt r'.activeAttemptId)
  /-- A run ends, and its thread lets go of it. -/
  | finished (r r' : Run) (step : RunStep False (ThreadDetached r.id) s s' r r')
      (attempts : AttemptsKept r.id s s')
      (active : r'.activeAttemptId = r.activeAttemptId) (terminal : r'.state.isTerminal)
      (detached : ∀ t' ∈ s'.threads, t'.activeRunId ≠ some r.id)
      (closed : closes → NoWork s' r.id)
  /-- A paused or failed run goes on with another attempt. -/
  | restarted (r r' : Run) (attempt : Attempt) (thread : Thread)
      (step : RunStep False (ThreadAttached r.threadId r.id) s s' r r')
      (attempts : s.attempts.insert? attempt = some s'.attempts)
      (own : attempt.runId = r.id) (active : r'.activeAttemptId = attempt.id)
      (source : attempt.sourceAttemptId = some r.activeAttemptId)
      (fresh : attempt.CheckpointIsBound)
      (hthread : thread ∈ s.threads) (threadId : thread.id = r.threadId)
      (idle : thread.activeRunId = none ∨ thread.activeRunId = some r.id)
      (live' : ¬r'.state.isTerminal) (running : r'.state ≠ .paused)
      (hopen : r.state = .paused ∨ (unarchived → thread.archivedAt = none))
  /-- A live run goes back to a paused attempt of its own. -/
  | putBack (r r' : Run) (step : RunStep False ThreadKept s s' r r')
      (attempts : AttemptsKept r.id s s')
      (live : ¬r.state.isTerminal) (state : r'.state = .paused)
      (own : s.HasAttempt r.id r'.activeAttemptId)
      (paused : s'.IsPausedAt r'.activeAttemptId)
      (unclaimed : unclaimed → ∀ release ∈ s.releases,
        release.attemptId = r'.activeAttemptId → release.claim.epoch = 0)
  /-- A release is claimed that no live attempt needs. -/
  | claimedRelease (releaseId : ℕ) (releases : Table PinRelease)
      (same : s' = { s with releases })
      (grows : s.releases.Grows (fun r r' => r'.runId = r.runId ∧ r'.attemptId = r.attemptId ∧
        r.claim.epoch ≤ r'.claim.epoch ∧ (r.WasClaimed → r'.WasClaimed) ∧
        (r' = r ∨ r.id = releaseId)) (fun _ => False) releases)
      (free : ∀ release ∈ s.releases, release.id = releaseId →
        ∀ r ∈ s.runs, r.id = release.runId →
          r.state.isTerminal ∨ r.activeAttemptId ≠ release.attemptId)

/-! ## The run a command has read -/

/-- The table still holds the run that was read, up to its stage and its dates. -/
structure Holds (s : Ledger) (run : Run) (r : Run) : Prop where
  mem : r ∈ s.runs
  id : r.id = run.id
  threadId : r.threadId = run.threadId
  state : r.state = run.state
  activeAttemptId : r.activeAttemptId = run.activeAttemptId
  revision : r.revision = run.revision

theorem Holds.self {s : Ledger} {run : Run} (h : run ∈ s.runs) : Holds s run run :=
  ⟨h, rfl, rfl, rfl, rfl, rfl⟩

/-- The row of the run after an update. -/
theorem Holds.mem_updateRun {s : Ledger} {run r : Run} (h : Holds s run r) (now : Stamp)
    (f : Run → Run) (hf : ∀ r, (f r).id = r.id) :
    { f r with revision := r.revision + 1, updatedAt := now } ∈ (s.updateRun run now f hf).runs := by
  apply Table.mem_update.2
  · exact ⟨r, h.mem, if_pos ⟨h.id, h.revision⟩⟩
  · exact hf

theorem runs_updateRun {s : Ledger} {run : Run} (now : Stamp) (f : Run → Run)
    (hf : ∀ r, (f r).id = r.id)
    (hthread : ∀ r, (f r).threadId = r.threadId) :
    s.runs.Grows (RunKept run.id) (fun _ => False) (s.updateRun run now f hf).runs := by
  apply Table.Grows.update
  · exact hf
  · exact fun r _ _ => .refl r
  · exact fun r _ hr => ⟨hf r, hthread r, .inl hr.1⟩

theorem runs_updateRun_same {s : Ledger} {run : Run} {now : Stamp} :
    s.runs.Grows RunSame (fun _ => False) (s.updateRun run now id run_id_same).runs :=
  .update (by intro; rfl) (fun r _ _ => .refl r) fun _ _ _ => ⟨rfl, rfl, rfl⟩

/-! ## Closing a run -/

section Closing

variable {s : Ledger} {runId attemptId : ℕ} {now : Stamp}

theorem actions_failed (h : ActionsAreOf s runId attemptId) :
    ∀ a ∈ (s.failPendingRuntimeActions runId attemptId now).actions,
      a.runId = runId → a.state ≠ .pending := by
  refine Table.forall_update (by intro; rfl) ?_ ?_
  · intro a ha hne hrun hpending
    exact hne ⟨hrun, h a ha hrun hpending, hpending⟩
  · intro a _ _ _ hpending
    cases hpending

theorem intents_closed :
    ∀ i ∈ (s.closeSourceWorkForRun runId now).intents, i.runId = runId → i.state ≠ .pending := by
  refine Table.forall_update (by intro; rfl) ?_ ?_
  · intro i _ hne hrun hpending
    exact hne ⟨hrun, hpending⟩
  · intro i _ _ _ hpending
    cases hpending

theorem decisions_closed (h : DecisionsAreOfIntents s runId) :
    ∀ d ∈ (s.closeSourceWorkForRun runId now).decisions, d.runId = runId → d.state ≠ .pending := by
  refine Table.forall_update (by intro; rfl) ?_ ?_
  · intro d hd hne hrun hpending
    obtain ⟨i, hi, hirun, hipending, hid⟩ := h d hd hrun hpending
    refine hne ⟨List.mem_map.2 ⟨i, ?_, hid⟩, hpending⟩
    exact List.mem_filter.2 ⟨hi, by simp [hirun, hipending]⟩
  · intro d _ _ _ hpending
    cases hpending

theorem decisions_expired :
    ∀ d ∈ (s.expireDecisions runId now).decisions, d.runId = runId → d.state ≠ .pending := by
  refine Table.forall_update (by intro; rfl) ?_ ?_
  · intro d _ hne hrun hpending
    exact hne ⟨hrun, hpending⟩
  · intro d _ _ _ hpending
    cases hpending

/-- The only thread that has the run lets go of it. -/
theorem detachRun_threads {run : Run} {state : RunState}
    (hthread : ∀ t ∈ s.threads, t.activeRunId = some run.id → t.id = run.threadId) :
    ∀ t ∈ (s.detachRun run state now).threads, t.activeRunId ≠ some run.id := by
  refine Table.forall_update (by intro; rfl) ?_ ?_
  · intro t ht hne hactive
    exact hne ⟨hthread t ht hactive, hactive⟩
  · intro t _ _ hactive
    cases hactive

theorem threads_detachRun {run : Run} {state : RunState} :
    s.threads.Grows (ThreadDetached run.id) (fun _ => False) (s.detachRun run state now).threads :=
  .update (by intro; rfl) (fun _ _ _ => ⟨rfl, .inl rfl⟩) fun _ _ ht => ⟨rfl, .inr ⟨ht.2, rfl⟩⟩

end Closing

end Cortex.Runs
