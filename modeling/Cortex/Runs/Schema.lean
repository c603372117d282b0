import Cortex.Control.Receipts

/-!
# The tables of runs

A thread has runs and a run has attempts, one of which is active.  Decisions and
source intents wait for an operator, runtime actions wait to be delivered to the
worker of an attempt, and pin releases wait to hand the managed runtime of an
attempt back.

`Ledger` holds these tables.  The event inbox of the attempts stands beside
them, in `Tables`: the commands that offer a runtime event write it, and no
other command does.
-/

namespace Cortex.Runs

open Control Time Transaction

/-! ## States -/

/-- The states of a run, which are those of an attempt. -/
inductive RunState
  | queued | starting | running | waitingForDecision | pauseRequested | paused | resuming
  | cancelRequested | retrying | completed | failed | canceled
  deriving DecidableEq

namespace RunState

/-- The spelling of a state in the tables and in errors. -/
def text : RunState → String
  | queued => "queued"
  | starting => "starting"
  | running => "running"
  | waitingForDecision => "waiting_for_decision"
  | pauseRequested => "pause_requested"
  | paused => "paused"
  | resuming => "resuming"
  | cancelRequested => "cancel_requested"
  | retrying => "retrying"
  | completed => "completed"
  | failed => "failed"
  | canceled => "canceled"

/-- `_RUN_TRANSITIONS`. -/
def transitions : RunState → List RunState
  | queued => [starting, cancelRequested, failed]
  | starting => [running, cancelRequested, failed]
  | running => [waitingForDecision, pauseRequested, cancelRequested, completed, failed]
  | waitingForDecision => [resuming, cancelRequested, failed]
  | pauseRequested => [paused, canceled, cancelRequested, failed]
  | paused => [cancelRequested]
  | resuming => [starting, running, cancelRequested, failed]
  | cancelRequested => [canceled, failed]
  | retrying => [starting, cancelRequested, failed]
  | completed => []
  | failed => []
  | canceled => []

/-- `_TERMINAL_RUN_STATES`. -/
def isTerminal (state : RunState) : Prop := state ∈ [completed, failed, canceled]

instance (state : RunState) : Decidable state.isTerminal := by
  unfold isTerminal
  infer_instance

/-- `_WORKFLOW_FENCED_RUN_STATES`. -/
def isWorkflowFenced (state : RunState) : Prop := state.isTerminal ∨ state = cancelRequested

instance (state : RunState) : Decidable state.isWorkflowFenced := by
  unfold isWorkflowFenced
  infer_instance

end RunState

/-- The states a source intent interrupts, and puts back when it is resolved. -/
inductive ResumableState
  | queued | starting | running
  deriving DecidableEq

namespace ResumableState

def state : ResumableState → RunState
  | queued => .queued
  | starting => .starting
  | running => .running

/-- The test `state in {"queued", "starting", "running"}`. -/
def ofState : RunState → Option ResumableState
  | .queued => some queued
  | .starting => some starting
  | .running => some running
  | _ => none

theorem ofState_eq_some {s : RunState} {r : ResumableState} (h : ofState s = some r) :
    r.state = s := by
  cases s <;> simp only [ofState, Option.some.injEq, reduceCtorEq] at h <;> subst h <;> rfl

theorem not_isTerminal (r : ResumableState) : ¬r.state.isTerminal := by
  cases r <;> decide

end ResumableState

inductive ThreadStatus
  | idle
  | run (state : RunState)
  deriving DecidableEq

inductive DecisionState
  | pending | resolved | expired
  deriving DecidableEq

inductive IntentState
  | pending | resolved | canceled
  deriving DecidableEq

/-- The states of a runtime action and of a pin release. -/
inductive DeliveryState
  | pending | acked | failed
  deriving DecidableEq

def DeliveryState.text : DeliveryState → String
  | pending => "pending"
  | acked => "acked"
  | failed => "failed"

inductive OutcomeState
  | ready | outcomeUnknown | reconcile
  deriving DecidableEq

def OutcomeState.text : OutcomeState → String
  | ready => "ready"
  | outcomeUnknown => "outcome_unknown"
  | reconcile => "reconcile"

/-! ## Leases -/

/-- The lease `expires_at` is still running: `expires_at > now`. -/
def isLive (expiresAt : Option Stamp) (now : Stamp) : Prop := ∃ expires ∈ expiresAt, now < expires

/-- The lease `expires_at` has run out: `expires_at <= now`. -/
def hasExpired (expiresAt : Option Stamp) (now : Stamp) : Prop :=
  ∃ expires ∈ expiresAt, expires ≤ now

instance (expiresAt : Option Stamp) (now : Stamp) : Decidable (isLive expiresAt now) := by
  unfold isLive
  cases expiresAt <;> simp only [Option.mem_def] <;> infer_instance

instance (expiresAt : Option Stamp) (now : Stamp) : Decidable (hasExpired expiresAt now) := by
  unfold hasExpired
  cases expiresAt <;> simp only [Option.mem_def] <;> infer_instance

/-- The columns by which a worker holds a row under a lease. -/
structure Claim where
  owner : Option Text
  expiresAt : Option Stamp
  epoch : ℕ
  deriving DecidableEq

namespace Claim

def unclaimed : Claim := { owner := none, expiresAt := none, epoch := 0 }

/-- The row is let go of; the epoch is retained. -/
def drop (claim : Claim) : Claim := { claim with owner := none, expiresAt := none }

/-- The row is taken over, under the next epoch. -/
def take (claim : Claim) (workerId : Text) (expires : Stamp) : Claim :=
  { owner := some workerId, expiresAt := some expires, epoch := claim.epoch + 1 }

/-- `_claim_fence_is_current`. -/
def fenceIsCurrent (claim : Claim) (workerId : Text) (claimEpoch : ℤ) (now : Stamp) : Prop :=
  claim.owner = some workerId ∧ (claim.epoch : ℤ) = claimEpoch ∧ isLive claim.expiresAt now

/-- The takeover clause `claim_owner IS NULL OR claim_expires_at <= now`. -/
def isFree (claim : Claim) (now : Stamp) : Prop :=
  claim.owner = none ∨ hasExpired claim.expiresAt now

instance (claim : Claim) (workerId : Text) (claimEpoch : ℤ) (now : Stamp) :
    Decidable (claim.fenceIsCurrent workerId claimEpoch now) := by
  unfold fenceIsCurrent
  infer_instance

instance (claim : Claim) (now : Stamp) : Decidable (claim.isFree now) := by
  unfold isFree
  infer_instance

end Claim

/-! ## Rows -/

/-- A row of `threads`. -/
structure Thread where
  id : ℕ
  workspaceId : Text
  title : Text
  status : ThreadStatus
  activeRunId : Option ℕ
  archivedAt : Option Stamp
  revision : ℕ
  createdAt : Stamp
  updatedAt : Stamp
  deriving DecidableEq

inductive MessageRole
  | user | assistant | system
  deriving DecidableEq

/-- A row of `messages`. -/
structure Message where
  id : ℕ
  threadId : ℕ
  role : MessageRole
  content : Text
  position : ℕ
  createdAt : Stamp
  deriving DecidableEq

/-- A row of `runs`; every run is created with an active attempt. -/
structure Run where
  id : ℕ
  threadId : ℕ
  state : RunState
  activeAttemptId : ℕ
  stage : Option Text
  revision : ℕ
  createdAt : Stamp
  updatedAt : Stamp
  deriving DecidableEq

/-- The managed-runtime identity of an attempt: the five columns that
`reserve_attempt_dispatch` writes together under `runtime_identity_version` 1. -/
structure RuntimeIdentity where
  runtimeReleaseId : Text
  stateGenerationId : Text
  runtimeSlotId : Text
  runtimeArtifactDigest : Text
  runtimeWorkerProtocol : Text
  deriving DecidableEq

/-- Every column of the identity is a text that is not empty. -/
def RuntimeIdentity.isComplete (identity : RuntimeIdentity) : Prop :=
  identity.runtimeReleaseId ≠ [] ∧ identity.stateGenerationId ≠ [] ∧
    identity.runtimeSlotId ≠ [] ∧ identity.runtimeArtifactDigest ≠ [] ∧
    identity.runtimeWorkerProtocol ≠ []

instance (identity : RuntimeIdentity) : Decidable identity.isComplete := by
  unfold RuntimeIdentity.isComplete
  infer_instance

/-- A row of `attempts`. -/
structure Attempt where
  id : ℕ
  runId : ℕ
  number : ℕ
  state : RunState
  runtimeBindingId : Option ℕ
  identity : Option RuntimeIdentity
  dispatchOwner : Option Text
  dispatchExpiresAt : Option Stamp
  checkpointUri : Option Text
  sourceAttemptId : Option ℕ
  sourceCheckpointUri : Option Text
  startedAt : Option Stamp
  finishedAt : Option Stamp
  deriving DecidableEq

/-- The truth value of an optional text: present and not empty. -/
def isSet (value : Option Text) : Prop := ∃ text ∈ value, text ≠ []

instance (value : Option Text) : Decidable (isSet value) := by
  unfold isSet
  cases value <;> simp only [Option.mem_def] <;> infer_instance

/-- A row of `runtime_bindings`. -/
structure RuntimeBinding where
  id : ℕ
  threadId : ℕ
  adapterId : Text
  runtimeSessionRef : Text
  generation : ℕ
  adapterVersion : Text
  parentRef : Option Text
  createdAt : Stamp
  updatedAt : Stamp
  deriving DecidableEq

structure DecisionOption where
  id : Text
  label : Option Text
  description : Option Text
  deriving DecidableEq

structure Resolution where
  choice : Text
  actorId : Text
  deriving DecidableEq

/-- A row of `decisions`. -/
structure Decision where
  id : ℕ
  runId : ℕ
  attemptId : ℕ
  kind : Text
  prompt : Text
  options : List DecisionOption
  state : DecisionState
  resolution : Option Resolution
  revision : ℕ
  createdAt : Stamp
  resolvedAt : Option Stamp
  runtimeDecisionRef : Option Text
  runtimeDecisionRevision : Option ℕ
  deriving DecidableEq

/-- A row of `source_intents`, with the decision created in the same transaction. -/
structure SourceIntent where
  id : ℕ
  runId : ℕ
  attemptId : ℕ
  titleClaim : Option Text
  locatorClaim : Option Text
  locatorSha256 : Option Text
  resumeRunState : ResumableState
  resumeAttemptState : ResumableState
  state : IntentState
  decisionId : ℕ
  revision : ℕ
  createdAt : Stamp
  updatedAt : Stamp
  deriving DecidableEq

/-- The kind of a runtime action, with its payload. -/
inductive ActionKind
  | decisionResolve (decisionId : ℕ) (runtimeDecisionRef : Option Text)
      (runtimeDecisionRevision : Option ℕ) (choice : Text)
  | controlPause
  | controlCancel
  deriving DecidableEq

/-- `kind = 'decision.resolve'`. -/
def ActionKind.isDecisionResolve : ActionKind → Bool
  | decisionResolve .. => true
  | _ => false

/-- A row of `runtime_actions`. -/
structure RuntimeAction where
  id : ℕ
  runId : ℕ
  attemptId : ℕ
  runtimeBindingId : ℕ
  runtimeReleaseId : Text
  kind : ActionKind
  state : DeliveryState
  outcomeState : OutcomeState
  claim : Claim
  failureCategory : Option Text
  createdAt : Stamp
  acknowledgedAt : Option Stamp
  deriving DecidableEq

/-- A row of `runtime_pin_releases`. -/
structure PinRelease where
  id : ℕ
  runId : ℕ
  attemptId : ℕ
  identity : RuntimeIdentity
  state : DeliveryState
  claim : Claim
  failureCategory : Option Text
  createdAt : Stamp
  acknowledgedAt : Option Stamp
  deriving DecidableEq

instance : Keyed Thread ℕ := ⟨Thread.id⟩
instance : Keyed Message ℕ := ⟨Message.id⟩
instance : Keyed Run ℕ := ⟨Run.id⟩
instance : Keyed Attempt ℕ := ⟨Attempt.id⟩
instance : Keyed RuntimeBinding ℕ := ⟨RuntimeBinding.id⟩
instance : Keyed Decision ℕ := ⟨Decision.id⟩
instance : Keyed SourceIntent ℕ := ⟨SourceIntent.id⟩
instance : Keyed RuntimeAction ℕ := ⟨RuntimeAction.id⟩
instance : Keyed PinRelease ℕ := ⟨PinRelease.id⟩

/-! ## The ledger -/

structure Ledger where
  threads : Table Thread
  messages : Table Message
  runs : Table Run
  attempts : Table Attempt
  bindings : Table RuntimeBinding
  decisions : Table Decision
  intents : Table SourceIntent
  actions : Table RuntimeAction
  releases : Table PinRelease

namespace Ledger

def empty : Ledger where
  threads := .empty
  messages := .empty
  runs := .empty
  attempts := .empty
  bindings := .empty
  decisions := .empty
  intents := .empty
  actions := .empty
  releases := .empty

variable (s : Ledger)

/-- `_thread`. -/
def thread (id : ℕ) : Except StoreError Thread := orRaise (s.threads.get? id) (.notFound "thread")

/-- `_run`. -/
def run (id : ℕ) : Except StoreError Run := orRaise (s.runs.get? id) (.notFound "run")

/-- `_attempt`. -/
def attempt (id : ℕ) : Except StoreError Attempt :=
  orRaise (s.attempts.get? id) (.notFound "attempt")

/-- `_runtime_binding`. -/
def binding (id : ℕ) : Except StoreError RuntimeBinding :=
  orRaise (s.bindings.get? id) (.notFound "runtime binding")

/-- `_decision`. -/
def decision (id : ℕ) : Except StoreError Decision :=
  orRaise (s.decisions.get? id) (.notFound "decision")

/-- `_source_intent`. -/
def intent (id : ℕ) : Except StoreError SourceIntent :=
  orRaise (s.intents.get? id) (.notFound "source intent")

/-- `_runtime_action`. -/
def action (id : ℕ) : Except StoreError RuntimeAction :=
  orRaise (s.actions.get? id) (.notFound "runtime action")

/-- `_pin_release`. -/
def pinRelease (id : ℕ) : Except StoreError PinRelease :=
  orRaise (s.releases.get? id) (.notFound "pin release")

variable {s} {id : ℕ}

@[simp] theorem thread_eq_ok {t : Thread} : s.thread id = .ok t ↔ t ∈ s.threads ∧ t.id = id := by
  rw [thread, orRaise_eq_ok, Table.get?_eq_some]
  rfl

@[simp] theorem run_eq_ok {r : Run} : s.run id = .ok r ↔ r ∈ s.runs ∧ r.id = id := by
  rw [run, orRaise_eq_ok, Table.get?_eq_some]
  rfl

@[simp] theorem attempt_eq_ok {a : Attempt} :
    s.attempt id = .ok a ↔ a ∈ s.attempts ∧ a.id = id := by
  rw [attempt, orRaise_eq_ok, Table.get?_eq_some]
  rfl

@[simp] theorem binding_eq_ok {b : RuntimeBinding} :
    s.binding id = .ok b ↔ b ∈ s.bindings ∧ b.id = id := by
  rw [binding, orRaise_eq_ok, Table.get?_eq_some]
  rfl

@[simp] theorem decision_eq_ok {d : Decision} :
    s.decision id = .ok d ↔ d ∈ s.decisions ∧ d.id = id := by
  rw [decision, orRaise_eq_ok, Table.get?_eq_some]
  rfl

@[simp] theorem intent_eq_ok {i : SourceIntent} :
    s.intent id = .ok i ↔ i ∈ s.intents ∧ i.id = id := by
  rw [intent, orRaise_eq_ok, Table.get?_eq_some]
  rfl

@[simp] theorem action_eq_ok {a : RuntimeAction} :
    s.action id = .ok a ↔ a ∈ s.actions ∧ a.id = id := by
  rw [action, orRaise_eq_ok, Table.get?_eq_some]
  rfl

@[simp] theorem pinRelease_eq_ok {r : PinRelease} :
    s.pinRelease id = .ok r ↔ r ∈ s.releases ∧ r.id = id := by
  rw [pinRelease, orRaise_eq_ok, Table.get?_eq_some]
  rfl

end Ledger

end Cortex.Runs
