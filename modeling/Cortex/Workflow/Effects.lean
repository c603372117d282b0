import Cortex.Control.Errors
import Cortex.Time.Stamp
import Mathlib.Data.Char
import Mathlib.Data.List.Lex

/-!
# The effects of a workflow

A workflow asks for an effect outside the store by a row of
`workflow_effect_commands`.  A worker claims the row, hands its request over, and
completes, rejects or gives up the claim; a mutation whose outcome is unknown is
claimed again to be reconciled.  Every claim takes the next epochs, and every
claim of a mutation is audited.

`EffectStore` is the row of one effect with its audit.  What the commands read of
other tables, and the checks of results, are `Readings`.
-/

namespace Cortex.Workflow

open Control Time Transaction

inductive EffectClass
  | mutation | query
  deriving DecidableEq

/-- The state of an effect, with the columns that are set in it. -/
inductive EffectState (ρ : Type)
  | pending
  | claimed (owner : Text) (expiresAt : Stamp)
  | outcomeUnknown
  | reconciling (owner : Text) (expiresAt : Stamp)
  | completed (result : ρ)
  | failed (category : Text)
  | manualRequired
  deriving DecidableEq

/-- A row of `workflow_effect_commands`. -/
structure Effect (ρ : Type) where
  effectClass : EffectClass
  state : EffectState ρ
  claimEpoch : ℕ
  deliveryEpoch : ℕ
  deriving DecidableEq

/-- What an adapter that was asked about an effect answers. -/
inductive Disposition (ρ : Type)
  | committed (result : ρ)
  | notFound
  | unknown
  deriving DecidableEq

/-- An effect, with the epochs of its `workflow.effect.dispatched` rows, the latest first. -/
structure EffectStore (ρ : Type) where
  effect : Effect ρ
  audit : List (ℕ × ℕ)
  deriving DecidableEq

/-- An effect as `_workflow_effect` returns it. -/
structure Loaded (ρ : Type) where
  effect : Effect ρ
  dispatchAttemptCount : ℕ
  deriving DecidableEq

/-- What a command reads besides the effect. -/
structure Readings where
  clock : ℕ → Civil
  /-- The run of the workflow is not fenced. -/
  runIsOpen : Bool
  /-- The result of an adapter matches the request, and the other tables. -/
  resultIsValid : Bool
  /-- The stage can fail, and `_settle_workflow_failure` commits. -/
  failureIsSettled : Bool
  /-- The attempt of the request was replaced, by an attempt that descends from it. -/
  attemptIsReplaced : Bool

def Readings.stamp (readings : Readings) (k : ℕ) : Stamp := formatTime (readings.clock k)

/-- The arguments by which a worker proves its claim. -/
structure Fence where
  workerId : Text
  claimEpoch : ℕ
  deliveryEpoch : ℕ

namespace EffectState

variable {ρ : Type}

def text : EffectState ρ → String
  | pending => "pending"
  | claimed _ _ => "claimed"
  | outcomeUnknown => "outcome_unknown"
  | reconciling _ _ => "reconciling"
  | completed _ => "completed"
  | failed _ => "failed"
  | manualRequired => "manual_required"

/-- The owner and the end of a claim for dispatch. -/
def dispatchClaim : EffectState ρ → Option (Text × Stamp)
  | claimed owner expiresAt => some (owner, expiresAt)
  | _ => none

/-- The owner and the end of a claim for reconciliation. -/
def reconciliationClaim : EffectState ρ → Option (Text × Stamp)
  | reconciling owner expiresAt => some (owner, expiresAt)
  | _ => none

def isPending : EffectState ρ → Bool
  | pending => true
  | _ => false

def isOutcomeUnknown : EffectState ρ → Bool
  | outcomeUnknown => true
  | _ => false

def isTerminal : EffectState ρ → Bool
  | completed _ => true
  | failed _ => true
  | manualRequired => true
  | _ => false

end EffectState

/-- `_ARTIFACT_FAILURE_RE`, and not the category of an unknown outcome. -/
def isFailureCategory : Text → Bool
  | [] => false
  | c :: rest =>
      c.isLower ∧ rest.length ≤ 99 ∧
        rest.all (fun c => c.isLower ∨ c.isDigit ∨ c ∈ ['_', '.', '-']) = true ∧
        c :: rest ≠ "outcome_unknown".toList

/-- The claim is the worker's, and has not run out. -/
def isHeld (claim : Option (Text × Stamp)) (workerId : Text) (now : Stamp) : Bool :=
  claim.any fun held => held.1 = workerId ∧ now < held.2

/-- The claim has run out. -/
def hasExpired (claim : Option (Text × Stamp)) (now : Stamp) : Bool :=
  claim.any fun held => held.2 ≤ now

namespace EffectStore

variable {ρ : Type} (s : EffectStore ρ) (readings : Readings)

/-- `_workflow_effect`. -/
def load : Loaded ρ := { effect := s.effect, dispatchAttemptCount := s.audit.length }

def setState (state : EffectState ρ) : EffectStore ρ :=
  { s with effect := { s.effect with state } }

/-- A claim takes the next epochs. -/
def takeClaim (state : EffectState ρ) : EffectStore ρ :=
  { s with
    effect := { s.effect with
      state, claimEpoch := s.effect.claimEpoch + 1, deliveryEpoch := s.effect.deliveryEpoch + 1 } }

/-- `claim_workflow_effect`; of a mutation whose claim has run out the outcome is unknown. -/
def claimWorkflowEffect (workerId : Text) (leaseSeconds : ℤ) :
    Except StoreError (EffectStore ρ × Loaded ρ) := do
  let workerId ← requiredText workerId "worker_id" 200
  require (1 ≤ leaseSeconds ∧ leaseSeconds ≤ 3600)
    (.valueError "lease_seconds must be between 1 and 3600")
  let now := readings.stamp 0
  if hasExpired s.effect.state.dispatchClaim now ∧ s.effect.effectClass = .mutation then
    let s := s.setState .outcomeUnknown
    pure (s, s.load)
  else do
    require (readings.runIsOpen = true) (.invalidTransition "run" "workflow_active")
    require (s.effect.state.isPending ∨ hasExpired s.effect.state.dispatchClaim now)
      (.invalidTransition s.effect.state.text "claimed")
    let expires ← orRaise ((readings.clock 0).addSeconds leaseSeconds.toNat) .overflowError
    let s := s.takeClaim (.claimed workerId (formatTime expires))
    let s := { s with
      audit :=
        if s.effect.effectClass = .mutation then
          (s.effect.claimEpoch, s.effect.deliveryEpoch) :: s.audit
        else s.audit }
    pure (s, s.load)

/-- `_expect_workflow_effect_claim`. -/
def expectClaim (fence : Fence) (isCurrent : Bool) : Except StoreError Unit :=
  require (isCurrent = true ∧ s.effect.claimEpoch = fence.claimEpoch ∧
      s.effect.deliveryEpoch = fence.deliveryEpoch)
    (.invalidTransition "stale_claim" "completed")

/-- `complete_workflow_effect`. -/
def completeWorkflowEffect (fence : Fence) (result : ρ) :
    Except StoreError (EffectStore ρ × Loaded ρ) := do
  let workerId ← requiredText fence.workerId "worker_id" 200
  s.expectClaim fence (isHeld s.effect.state.dispatchClaim workerId (readings.stamp 0))
  require (readings.resultIsValid = true) (.valueError "result does not match")
  require (isHeld s.effect.state.dispatchClaim workerId (readings.stamp 1))
    (.invalidTransition "stale_claim" "completed")
  let s := s.setState (.completed result)
  pure (s, s.load)

/-- `mark_workflow_effect_outcome_unknown`, also of a claim that has run out. -/
def markWorkflowEffectOutcomeUnknown (fence : Fence) :
    Except StoreError (EffectStore ρ × Loaded ρ) := do
  let workerId ← requiredText fence.workerId "worker_id" 200
  require (s.effect.effectClass = .mutation) (.invalidTransition "query" "outcome_unknown")
  s.expectClaim fence (s.effect.state.dispatchClaim.any fun held => held.1 = workerId)
  let s := s.setState .outcomeUnknown
  pure (s, s.load)

/-- The answer that a rejection of a claim for reconciliation comes with. -/
def checkRejection (reconciliationResult : Option (Disposition ρ)) : Except StoreError Unit :=
  match s.effect.state.reconciliationClaim, reconciliationResult with
  | some _, some .notFound =>
      require (readings.resultIsValid = true) (.valueError "result does not match")
  | some _, _ => throw (.invalidTransition "disposition" "failed")
  | none, none => pure ()
  | none, some _ => throw (.valueError "reconciliation_result requires a reconciling effect")

/-- `reject_workflow_effect`: a claim for dispatch is rejected by itself, a claim for
reconciliation with the answer `not_found`. -/
def rejectWorkflowEffect (fence : Fence) (failureCategory : Text)
    (reconciliationResult : Option (Disposition ρ)) :
    Except StoreError (EffectStore ρ × Loaded ρ) := do
  let workerId ← requiredText fence.workerId "worker_id" 200
  let failureCategory ← requiredText failureCategory "failure_category" 100
  require (isFailureCategory failureCategory = true) (.valueError "failure_category is invalid")
  let claim := s.effect.state.dispatchClaim <|> s.effect.state.reconciliationClaim
  require (claim.isSome = true) (.invalidTransition "stale_claim" "failed")
  s.expectClaim fence (isHeld claim workerId (readings.stamp 0))
  s.checkRejection readings reconciliationResult
  require (readings.failureIsSettled = true) (.invalidTransition "stage" "failed")
  require (isHeld claim workerId (readings.stamp 1)) (.invalidTransition "stale_claim" "failed")
  let s := s.setState (.failed failureCategory)
  pure (s, s.load)

/-- `claim_workflow_effect_reconciliation`. -/
def claimWorkflowEffectReconciliation (workerId : Text) (leaseSeconds : ℤ) :
    Except StoreError (EffectStore ρ × Loaded ρ) := do
  let workerId ← requiredText workerId "worker_id" 200
  require (1 ≤ leaseSeconds ∧ leaseSeconds ≤ 3600)
    (.valueError "lease_seconds must be between 1 and 3600")
  require (s.effect.effectClass = .mutation) (.invalidTransition "query" "reconciling")
  let now := readings.stamp 0
  require (s.effect.state.isOutcomeUnknown ∨
      hasExpired s.effect.state.reconciliationClaim now)
    (.invalidTransition s.effect.state.text "reconciling")
  let expires ← orRaise ((readings.clock 0).addSeconds leaseSeconds.toNat) .overflowError
  let s := s.takeClaim (.reconciling workerId (formatTime expires))
  pure (s, s.load)

/-- `complete_workflow_effect_reconciliation`. -/
def completeWorkflowEffectReconciliation (fence : Fence) (result : Disposition ρ) :
    Except StoreError (EffectStore ρ × Loaded ρ) := do
  let workerId ← requiredText fence.workerId "worker_id" 200
  s.expectClaim fence (isHeld s.effect.state.reconciliationClaim workerId (readings.stamp 0))
  require (readings.resultIsValid = true) (.valueError "result does not match")
  let s := s.setState <|
    match result with
    | .committed result => .completed result
    | .notFound => .pending
    | .unknown => .manualRequired
  pure (s, s.load)

/-- `supersede_workflow_attempt_effect`, for an effect of an attempt. -/
def supersedeWorkflowAttemptEffect (supersededCategory : Text) :
    Except StoreError (EffectStore ρ × Loaded ρ) := do
  require (readings.runIsOpen = true) (.invalidTransition "run" "workflow_active")
  require (readings.attemptIsReplaced = true) (.invalidTransition "attempt" "superseded")
  match s.effect.state with
  | .completed _ => pure (s, s.load)
  | .failed category => do
      require (category = supersededCategory) (.invalidTransition "effect_unsettled" "superseded")
      pure (s, s.load)
  | .pending =>
      let s := s.setState (.failed supersededCategory)
      pure (s, s.load)
  | _ => throw (.invalidTransition "effect_unsettled" "superseded")

end EffectStore

end Cortex.Workflow
