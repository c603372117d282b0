import Cortex.Workflow.Effects
import Cortex.Library.History
import Mathlib.Logic.Function.Basic

/-!
# Coordinators at work on an effect

A call of `recover` classifies the effect, and then dispatches it or reconciles
it.  Between its transactions it talks to an adapter, so that any number of calls
interleave, each at some `Phase`; a call may stop at any phase.

`advance` is one transaction, or one message to an adapter, of one call.  The
`journal` keeps what happened outside the store: every request that was handed
over, and every reconciliation that was completed.
-/

namespace Cortex.Workflow

open Control Time Transaction

/-- A coordinator. -/
structure Worker where
  workerId : Text
  leaseSeconds : ℤ

/-- Where a call of `recover` is with the effect. -/
inductive Phase (ρ : Type)
  | idle
  /-- The effect was pending: `_dispatch` is next. -/
  | dispatching (worker : Worker)
  /-- `claim_workflow_effect` returned: the request is handed over next. -/
  | holding (worker : Worker) (claim : Loaded ρ)
  /-- The adapter has the request. -/
  | handedOver (worker : Worker) (claim : Loaded ρ)
  /-- The outcome was unknown: `_reconcile` is next, of a claim that has run out or not. -/
  | reconciling (worker : Worker) (wasClaimed : Bool)
  /-- `claim_workflow_effect_reconciliation` is next. -/
  | claimingReconciliation (worker : Worker)
  /-- The adapter is asked what became of the request. -/
  | asking (worker : Worker) (claim : Loaded ρ)

/-- How an adapter answers a request. -/
inductive Reply (ρ : Type)
  | result (value : ρ)
  | permanentlyRejected (category : Text)
  | outcomeUnknown

/-- The classifications of `classify_workflow_recovery`. -/
inductive Classification
  | fenced | pending | unknown | claimed | terminal
  deriving DecidableEq

/-- What becomes of a call, or of the effect between calls. -/
inductive Action (ρ : Type)
  | classify (worker : Worker)
  | claim
  | handOver
  | reply (answer : Reply ρ)
  | normalize
  | claimReconciliation
  | answer (disposition : Disposition ρ)
  | stop
  | supersede (category : Text)

structure Event (ρ : Type) where
  call : ℕ
  action : Action ρ
  readings : Readings

/-- What happened outside the store, and to the results in it. -/
inductive Entry
  /-- The request was handed over, under a claim of this epoch. -/
  | delivered (claimEpoch : ℕ)
  /-- A reconciliation answered `not_found`. -/
  | notFound
  /-- A result was recorded. -/
  | recorded
  deriving DecidableEq

/-- An effect, the calls at work on it, and the journal, the latest first. -/
structure System (ρ : Type) where
  store : EffectStore ρ
  phase : ℕ → Phase ρ
  journal : List Entry

variable {ρ : Type}

/-- `classify_workflow_recovery` of the effect. -/
def EffectStore.classify (s : EffectStore ρ) (readings : Readings) : Classification :=
  match s.effect.state with
  | .pending => if readings.runIsOpen then .pending else .fenced
  | .claimed _ expiresAt =>
      if expiresAt ≤ readings.stamp 0 then
        if s.effect.effectClass = .mutation then .unknown
        else if readings.runIsOpen then .pending else .fenced
      else .claimed
  | .outcomeUnknown => .unknown
  | .reconciling _ _ => .unknown
  | .completed _ => .terminal
  | .failed _ => .terminal
  | .manualRequired => .terminal

/-- The fence of a claim that was returned. -/
def Loaded.fence (claim : Loaded ρ) (worker : Worker) : Fence :=
  { workerId := worker.workerId
    claimEpoch := claim.effect.claimEpoch
    deliveryEpoch := claim.effect.deliveryEpoch }

namespace System

variable (s : System ρ)

/-- The call is at another phase. -/
def goTo (call : ℕ) (phase : Phase ρ) : System ρ :=
  { s with phase := Function.update s.phase call phase }

/-- A transaction of the call: what it commits is kept, and an error ends the call. -/
def transact (call : ℕ) (outcome : Except StoreError (EffectStore ρ × Loaded ρ))
    (next : Loaded ρ → Phase ρ) : System ρ :=
  match outcome with
  | .ok (store, value) => { s with store }.goTo call (next value)
  | .error _ => s.goTo call .idle

def note (entry : Entry) : System ρ := { s with journal := entry :: s.journal }

/-- The entry of a transaction that commits. -/
def noteCommitted (entry : Entry) (outcome : Except StoreError (EffectStore ρ × Loaded ρ)) :
    System ρ :=
  match outcome with
  | .ok _ => s.note entry
  | .error _ => s

/-- `classify_workflow_recovery`, and what `recover` chooses by it. -/
def classify (call : ℕ) (readings : Readings) (worker : Worker) : System ρ :=
  match s.store.classify readings with
  | .pending => s.goTo call (.dispatching worker)
  | .unknown => s.goTo call (.reconciling worker s.store.effect.state.dispatchClaim.isSome)
  | _ => s

/-- `_dispatch`, up to the claim; the state that the claim returns is not looked at. -/
def claim (call : ℕ) (readings : Readings) (worker : Worker) : System ρ :=
  s.transact call
    (s.store.claimWorkflowEffect readings worker.workerId worker.leaseSeconds)
    (.holding worker)

/-- `_dispatch`: the request is handed over. -/
def handOver (call : ℕ) (worker : Worker) (claim : Loaded ρ) : System ρ :=
  (s.goTo call (.handedOver worker claim)).note (.delivered claim.effect.claimEpoch)

/-- `_dispatch`, after the adapter has answered. -/
def reply (call : ℕ) (readings : Readings) (worker : Worker) (claim : Loaded ρ) :
    Reply ρ → System ρ
  | .result value =>
      let outcome := s.store.completeWorkflowEffect readings (claim.fence worker) value
      (s.transact call outcome fun _ => .idle).noteCommitted .recorded outcome
  | .permanentlyRejected category =>
      s.transact call
        (s.store.rejectWorkflowEffect readings (claim.fence worker) category none) fun _ => .idle
  | .outcomeUnknown =>
      if claim.effect.effectClass = .query then s.goTo call .idle
      else
        s.transact call (s.store.markWorkflowEffectOutcomeUnknown (claim.fence worker))
          fun _ => .idle

/-- `_reconcile`, up to the claim: a claim that has run out is normalized first. -/
def normalize (call : ℕ) (readings : Readings) (worker : Worker) (wasClaimed : Bool) : System ρ :=
  if wasClaimed then
    s.transact call
      (s.store.claimWorkflowEffect readings worker.workerId worker.leaseSeconds) fun normalized =>
        if normalized.effect.state.isOutcomeUnknown then .claimingReconciliation worker
        else .idle
  else s.goTo call (.claimingReconciliation worker)

/-- `_reconcile`: the claim. -/
def claimReconciliation (call : ℕ) (readings : Readings) (worker : Worker) : System ρ :=
  s.transact call
    (s.store.claimWorkflowEffectReconciliation readings worker.workerId worker.leaseSeconds)
    (.asking worker)

/-- `_reconcile`, after the adapter has answered. -/
def answer (maxMutationDeliveries call : ℕ) (readings : Readings) (worker : Worker)
    (claim : Loaded ρ) (disposition : Disposition ρ) : System ρ :=
  match disposition with
  | .notFound =>
      if maxMutationDeliveries ≤ claim.dispatchAttemptCount then
        s.transact call
          (s.store.rejectWorkflowEffect readings (claim.fence worker)
            "redelivery_exhausted".toList (some .notFound)) fun _ => .idle
      else
        let outcome := s.store.completeWorkflowEffectReconciliation readings (claim.fence worker)
          .notFound
        (s.transact call outcome fun _ => .idle).noteCommitted .notFound outcome
  | .committed value =>
      let outcome := s.store.completeWorkflowEffectReconciliation readings (claim.fence worker)
        (.committed value)
      (s.transact call outcome fun _ => .idle).noteCommitted .recorded outcome
  | .unknown =>
      s.transact call
        (s.store.completeWorkflowEffectReconciliation readings (claim.fence worker) .unknown)
        fun _ => .idle

/-- `supersede_workflow_attempt_effect`, by whoever finds the attempt replaced. -/
def supersede (readings : Readings) (category : Text) : System ρ :=
  match s.store.supersedeWorkflowAttemptEffect readings category with
  | .ok (store, _) => { s with store }
  | .error _ => s

end System

/-- One transaction or message of a call; a call that is not at the phase stays where it is. -/
def advance (maxMutationDeliveries : ℕ) (s : System ρ) (event : Event ρ) : System ρ :=
  match event.action, s.phase event.call with
  | .classify worker, .idle => s.classify event.call event.readings worker
  | .claim, .dispatching worker => s.claim event.call event.readings worker
  | .handOver, .holding worker claim => s.handOver event.call worker claim
  | .reply answer, .handedOver worker claim => s.reply event.call event.readings worker claim answer
  | .normalize, .reconciling worker wasClaimed =>
      s.normalize event.call event.readings worker wasClaimed
  | .claimReconciliation, .claimingReconciliation worker =>
      s.claimReconciliation event.call event.readings worker
  | .answer disposition, .asking worker claim =>
      s.answer maxMutationDeliveries event.call event.readings worker claim disposition
  | .stop, _ => s.goTo event.call .idle
  | .supersede category, _ => s.supersede event.readings category
  | _, _ => s

/-- One step of the calls at work. -/
def Step (maxMutationDeliveries : ℕ) (s : System ρ) (event : Event ρ) (s' : System ρ) : Prop :=
  s' = advance maxMutationDeliveries s event

/-- A mutation that was just asked for. -/
def System.initial : System ρ where
  store :=
    { effect := { effectClass := .mutation, state := .pending, claimEpoch := 0, deliveryEpoch := 0 }
      audit := [] }
  phase _ := .idle
  journal := []

end Cortex.Workflow
