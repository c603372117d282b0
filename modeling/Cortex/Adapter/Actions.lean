import Cortex.Control.Errors
import Cortex.Library.Cache
import Cortex.Library.History
import Cortex.Library.Transaction

/-!
# The actions of the runtime adapter

`request_control`, `resolve_decision` and `query_action_outcome` of one adapter.
A delivery looks for a recorded outcome, is decided under the lock of its kind,
may call the backend, and records its outcome.  Equal resolutions of one decision
share a claim, which a task of its own completes.  Each section under a lock, each
call of the backend and each answer is one step; any number of deliveries, claims
and queries are under way at a time.
-/

namespace Cortex.Adapter

open Control (Text)
open Transaction

/-! ## Requests and outcomes -/

/-- `ActionOutcomeStatus`. -/
inductive Status
  | accepted | rejected | unknown | deduplicated
  deriving DecidableEq

def Status.accepts : Status → Bool
  | .accepted | .deduplicated => true
  | _ => false

/-- `RuntimeActionOutcome`. -/
structure Outcome where
  operationId : Text
  deliveryEpoch : ℕ
  status : Status
  reasonCode : Option Text
  deriving DecidableEq

inductive ControlAction
  | cancel | pause | steer
  deriving DecidableEq

/-- What an action is about: a session, and an attempt of a run in it. -/
structure Target where
  sessionRef : Text
  runId : Text
  attemptId : Text
  deriving DecidableEq

structure ControlRequest where
  target : Target
  action : ControlAction
  text : Option Text

structure Resolution where
  target : Target
  decisionId : Text
  choice : Text
  revision : ℤ

inductive Request
  | control (request : ControlRequest)
  | decision (resolution : Resolution)

/-- One delivery of an operation. -/
structure Delivery where
  operationId : Text
  deliveryEpoch : ℕ
  request : Request

/-- The identity of an action, with the digest of the text. -/
inductive Identity
  | control (action : ControlAction) (target : Target) (textDigest : Text)
  | decision (target : Target) (decisionId choice : Text) (revision : ℤ)
  deriving DecidableEq

def Identity.target : Identity → Target
  | control _ target _ => target
  | decision target _ _ _ => target

/-- `hashlib.sha256`, as the identity of a control request uses it. -/
abbrev Digest := Text → Text

def Request.identity (digest : Digest) : Request → Identity
  | .control request =>
      .control request.action request.target ((request.text.map digest).getD [])
  | .decision resolution =>
      .decision resolution.target resolution.decisionId resolution.choice resolution.revision

def Delivery.identity (digest : Digest) (d : Delivery) : Identity := d.request.identity digest

def Delivery.outcome (d : Delivery) (status : Status) (reasonCode : Option Text) : Outcome :=
  ⟨d.operationId, d.deliveryEpoch, status, reasonCode⟩

def Delivery.rejected (d : Delivery) (reasonCode : String) : Outcome :=
  d.outcome .rejected (some reasonCode.toList)

/-! ## Recorded outcomes -/

/-- `_ActionOperation`. -/
structure ActionOperation where
  identity : Identity
  deliveryEpoch : ℕ
  outcome : Outcome

abbrev Outcomes := Cache Text ActionOperation

/-- `_cached_action_outcome`. -/
def cachedActionOutcome (outcomes : Outcomes) (identity : Identity) (d : Delivery) :
    Option Outcome :=
  match outcomes.find d.operationId with
  | none => none
  | some previous =>
      if previous.identity ≠ identity then
        some (d.rejected "adapter_operation_conflict")
      else if d.deliveryEpoch < previous.deliveryEpoch then
        some (d.rejected "stale_delivery_epoch")
      else if previous.outcome.status.accepts then
        some (d.outcome .deduplicated none)
      else if d.deliveryEpoch = previous.deliveryEpoch then
        some previous.outcome
      else none

/-- `_remember_action_outcome`. -/
def rememberActionOutcome (limit : ℕ) (outcomes : Outcomes) (identity : Identity)
    (outcome : Outcome) : Outcomes :=
  (outcomes.put outcome.operationId ⟨identity, outcome.deliveryEpoch, outcome⟩).trim limit

structure Query where
  operationId : Text
  deliveryEpoch : ℕ
  target : Target

/-- What `query_action_outcome` answers from the records; nothing where it asks the backend. -/
def queryRecorded (outcomes : Outcomes) (q : Query) : Option Outcome :=
  match outcomes.find q.operationId with
  | none => none
  | some previous =>
      if previous.identity.target ≠ q.target then
        some ⟨q.operationId, q.deliveryEpoch, .rejected,
          some "adapter_operation_conflict".toList⟩
      else if q.deliveryEpoch < previous.deliveryEpoch then
        some ⟨q.operationId, q.deliveryEpoch, .rejected, some "stale_delivery_epoch".toList⟩
      else some previous.outcome

/-! ## Control -/

/-- An execution that is under way, and whether its backend runs it already. -/
structure Execution where
  sessionRef : Text
  backend : Bool

/-- How a delivery goes on. -/
inductive Verdict
  /-- Its outcome is recorded and returned. -/
  | ends (outcome : Outcome)
  /-- The backend is called. -/
  | calls
  /-- It holds an outcome that it will record. -/
  | holds (outcome : Outcome)
  /-- It waits for a claim. -/
  | waits (claim : ℕ) (owns : Bool)

/-- The section of `request_control` under the lock of the executions, and what it does with the
backend it found there. -/
def controlSection (d : Delivery) (request : ControlRequest) (execution : Option Execution) :
    Verdict :=
  if request.action = .pause then .ends (d.rejected "pause_requires_cortex_stage_boundary")
  else match execution with
  | none => .ends (d.rejected "run_not_active")
  | some execution =>
      if execution.sessionRef ≠ request.target.sessionRef then
        .ends (d.rejected "runtime_binding_mismatch")
      else if request.action = .cancel then
        if execution.backend then .calls else .holds (d.outcome .accepted none)
      else if request.text.getD [] = [] then .ends (d.rejected "steer_text_required")
      else if execution.backend then .calls
      else .ends (d.rejected "run_not_active")

/-! ## Decisions -/

/-- A decision, under which intents, claims and successes are filed. -/
structure Key where
  target : Target
  decisionId : Text
  deriving DecidableEq

def Resolution.key (r : Resolution) : Key := ⟨r.target, r.decisionId⟩

/-- A choice and the revision it is for. -/
structure Chosen where
  choice : Text
  revision : ℤ
  deriving DecidableEq

def Resolution.chosen (r : Resolution) : Chosen := ⟨r.choice, r.revision⟩

/-- How far the task of a claim is, with the outcome it has. -/
inductive ClaimPhase
  /-- The backend is being loaded. -/
  | loading
  | calling
  | answered (outcome : Outcome)
  /-- The claim is closed, and its future is set. -/
  | settled (outcome : Outcome)
  /-- The outcome is recorded. -/
  | recorded (outcome : Outcome)

/-- `_DecisionClaim`, with the delivery that opened it. -/
structure Claim where
  delivery : Delivery
  resolution : Resolution
  phase : ClaimPhase

structure Decisions where
  intents : Cache Key Chosen
  successes : Cache Key Chosen
  inflight : Cache Key ℕ
  claims : List Claim

structure Limits where
  action : ℕ
  decision : ℕ

/-- The loop of `_remember_decision_intent`. -/
def evictIntents (limit : ℕ) : ℕ → Decisions → Decisions
  | 0, dec => dec
  | fuel + 1, dec =>
      if dec.intents.length ≤ limit then dec
      else
        match dec.intents.entries.find? fun e => dec.inflight.find e.1 = none with
        | none => dec
        | some (removable, _) =>
            evictIntents limit fuel { dec with
              intents := dec.intents.pop removable
              successes := dec.successes.pop removable }

/-- `_remember_decision_intent`. -/
def rememberDecisionIntent (limit : ℕ) (dec : Decisions) (key : Key) (chosen : Chosen) :
    Decisions :=
  let dec := { dec with intents := dec.intents.put key chosen }
  evictIntents limit dec.intents.length dec

/-- The oldest successes go, and their intents with them. -/
def trimSuccesses (limit : ℕ) (dec : Decisions) : Decisions :=
  let removed := dec.successes.entries.take (dec.successes.length - limit)
  { dec with
    successes := dec.successes.trim limit
    intents := removed.foldl (fun intents e => intents.pop e.1) dec.intents }

/-- `_DecisionIdentity`: a decision that is pending. -/
structure PendingDecision where
  runId : Text
  attemptId : Text
  revision : ℤ

def decisionChoices : List String := ["approve_once", "deny"]

/-- A choice and revision that are filed are the ones of the resolution. -/
def requireChosen (filed : Option Chosen) (r : Resolution) : Except String Unit :=
  match filed with
  | none => pure ()
  | some filed => do
      require (filed.revision = r.revision) "decision_revision_conflict"
      require (filed.choice = r.choice) "decision_conflict"

/-- The checks of `resolve_decision` on the pending decision. -/
def requirePending (pending : Option PendingDecision) (r : Resolution) : Except String Unit := do
  let pending ← orRaise pending "pending_decision_missing"
  require (pending.runId = r.target.runId ∧ pending.attemptId = r.target.attemptId)
    "decision_identity_mismatch"
  require (pending.revision = r.revision) "decision_revision_conflict"

/-- The choice and the revision of the claim that is open for a decision. -/
def Decisions.openClaim (dec : Decisions) (key : Key) : Option (ℕ × Claim) :=
  (dec.inflight.find key).bind fun index => (dec.claims[index]?).map fun claim => (index, claim)

/-- A claim is opened. -/
def openClaim (limit : ℕ) (dec : Decisions) (d : Delivery) (r : Resolution) : Decisions :=
  rememberDecisionIntent limit { dec with
    inflight := dec.inflight.put r.key dec.claims.length
    claims := dec.claims ++ [⟨d, r, .loading⟩] } r.key r.chosen

/-- The section of `resolve_decision` once no success is filed: the claim that is open is joined, or
one is opened. -/
def claimSection (limit : ℕ) (dec : Decisions) (d : Delivery) (r : Resolution) :
    Decisions × Verdict :=
  match dec.openClaim r.key with
  | some (index, claim) =>
      match requireChosen (some claim.resolution.chosen) r with
      | .error reasonCode => (dec, .ends (d.rejected reasonCode))
      | .ok _ => (dec, .waits index false)
  | none => (openClaim limit dec d r, .waits dec.claims.length true)

def successSection (limit : ℕ) (dec : Decisions) (d : Delivery) (r : Resolution) :
    Decisions × Verdict :=
  let dec := { dec with successes := dec.successes.touch r.key }
  match requireChosen (dec.successes.find r.key) r with
  | .error reasonCode => (dec, .ends (d.rejected reasonCode))
  | .ok _ =>
      match dec.successes.find r.key with
      | some _ => (dec, .ends (d.outcome .deduplicated none))
      | none => claimSection limit dec d r

/-- The section of `resolve_decision` under the lock of the decisions. -/
def decisionSection (limit : ℕ) (dec : Decisions) (d : Delivery) (r : Resolution)
    (pending : Option PendingDecision) : Decisions × Verdict :=
  if decisionChoices.any fun choice => choice.toList = r.choice then
    match requirePending pending r with
    | .error reasonCode => (dec, .ends (d.rejected reasonCode))
    | .ok _ =>
        let dec := { dec with intents := dec.intents.touch r.key }
        match requireChosen (dec.intents.find r.key) r with
        | .error reasonCode => (dec, .ends (d.rejected reasonCode))
        | .ok _ => successSection limit dec d r
  else (dec, .ends (d.rejected "unsupported_decision_choice"))

def Decisions.setPhase (dec : Decisions) (index : ℕ) (claim : Claim) (phase : ClaimPhase) :
    Decisions :=
  { dec with claims := dec.claims.set index { claim with phase } }

/-- The success of a claim is filed. -/
def fileSuccess (limit : ℕ) (dec : Decisions) (r : Resolution) (outcome : Outcome) : Decisions :=
  if outcome.status.accepts then
    trimSuccesses limit { dec with successes := dec.successes.put r.key r.chosen }
  else dec

/-- The section of `_complete_decision_claim` under the lock of the decisions. -/
def settleSection (limit : ℕ) (dec : Decisions) (index : ℕ) (claim : Claim) (outcome : Outcome) :
    Decisions :=
  let r := claim.resolution
  let inflight := if dec.inflight.find r.key = some index then dec.inflight.pop r.key
    else dec.inflight
  let dec := fileSuccess limit { dec with inflight } r outcome
  (rememberDecisionIntent limit dec r.key r.chosen).setPhase index claim (.settled outcome)

/-! ## Steps -/

/-- How far a delivery is that found no recorded outcome to return. -/
inductive Phase
  | checked
  | calling
  | holds (outcome : Outcome)
  | waits (claim : ℕ) (owns : Bool)
  | returned

structure Underway where
  delivery : Delivery
  phase : Phase

/-- The adapter, with the deliveries that it took on, the earliest first. -/
structure State where
  outcomes : Outcomes
  decisions : Decisions
  deliveries : List Underway

def State.initial : State := ⟨.empty, ⟨.empty, .empty, .empty, []⟩, []⟩

/-- What the backend answers, if it does not raise. -/
abbrev BackendAnswer := Option (Status × Option Text)

inductive Action
  /-- A delivery arrives and looks for a recorded outcome. -/
  | checks (d : Delivery)
  | controls (index : ℕ) (execution : Option Execution)
  | answers (index : ℕ) (answer : BackendAnswer)
  | records (index : ℕ)
  | decides (index : ℕ) (pending : Option PendingDecision)
  /-- A delivery sees the result of the claim it waits for. -/
  | wakes (index : ℕ)
  /-- The steps of the task of a claim; loading the backend may raise. -/
  | loads (claim : ℕ) (loaded : Bool)
  | resolves (claim : ℕ) (answer : BackendAnswer)
  | settles (claim : ℕ)
  | remembers (claim : ℕ)
  | queries (query : Query)

inductive Effect
  | returned (d : Delivery) (outcome : Outcome)
  | goesOn
  | called (key : Key) (choice : Text)
  | answered (key : Key) (outcome : Outcome)
  /-- The recorded outcome, or nothing where the backend is asked. -/
  | queried (outcome : Option Outcome)

abbrev Event := Action × Effect

def Delivery.answered (d : Delivery) : BackendAnswer → Outcome
  | some (status, reasonCode) => d.outcome status reasonCode
  | none => d.outcome .unknown (some "runtime_outcome_unknown".toList)

section Step

variable (digest : Digest) (limits : Limits)

def State.moves (s : State) (index : ℕ) (d : Delivery) (phase : Phase) : State :=
  { s with deliveries := s.deliveries.set index ⟨d, phase⟩ }

/-- A delivery records its outcome and returns it. -/
def State.ends (s : State) (index : ℕ) (d : Delivery) (outcome : Outcome) : State × Effect :=
  ({ s with outcomes := rememberActionOutcome limits.action s.outcomes (d.identity digest) outcome,
            deliveries := s.deliveries.set index ⟨d, .returned⟩ }, .returned d outcome)

def State.follows (s : State) (index : ℕ) (d : Delivery) : Verdict → State × Effect
  | .ends outcome => s.ends digest limits index d outcome
  | .calls => (s.moves index d .calling, .goesOn)
  | .holds outcome => (s.moves index d (.holds outcome), .goesOn)
  | .waits claim owns => (s.moves index d (.waits claim owns), .goesOn)

/-- The outcome of a claim whose future is set. -/
def Claim.result (claim : Claim) : Option Outcome :=
  match claim.phase with
  | .settled outcome | .recorded outcome => some outcome
  | _ => none

/-- The step of a delivery that is under way. -/
def stepDelivery (s : State) (index : ℕ) (d : Delivery) (phase : Phase) (action : Action) :
    Except Unit (State × Effect) :=
  match action, phase, d.request with
  | .controls _ execution, .checked, .control request =>
      pure (s.follows digest limits index d (controlSection d request execution))
  | .answers _ answer, .calling, .control _ =>
      pure (s.moves index d (.holds (d.answered answer)), .goesOn)
  | .records _, .holds outcome, _ => pure (s.ends digest limits index d outcome)
  | .decides _ pending, .checked, .decision resolution =>
      let (decisions, verdict) :=
        decisionSection limits.decision s.decisions d resolution pending
      pure ({ s with decisions }.follows digest limits index d verdict)
  | .wakes _, .waits claim owns, _ => do
      let outcome ← orRaise (s.decisions.claims[claim]?.bind Claim.result) ()
      if owns = false ∧ outcome.status.accepts = true then
        pure (s.moves index d (.holds (d.outcome .deduplicated none)), .goesOn)
      else pure (s.moves index d .returned, .returned d outcome)
  | _, _, _ => throw ()

/-- The step of the task of a claim. -/
def stepClaim (s : State) (index : ℕ) (claim : Claim) (action : Action) :
    Except Unit (State × Effect) :=
  match action, claim.phase with
  | .loads _ true, .loading =>
      pure ({ s with decisions := s.decisions.setPhase index claim .calling },
        .called claim.resolution.key claim.resolution.choice)
  | .loads _ false, .loading =>
      pure ({ s with decisions :=
        s.decisions.setPhase index claim (.answered (claim.delivery.answered none)) }, .goesOn)
  | .resolves _ answer, .calling =>
      let outcome := claim.delivery.answered answer
      pure ({ s with decisions := s.decisions.setPhase index claim (.answered outcome) },
        .answered claim.resolution.key outcome)
  | .settles _, .answered outcome =>
      pure ({ s with decisions :=
        settleSection limits.decision s.decisions index claim outcome }, .goesOn)
  | .remembers _, .settled outcome =>
      pure ({ s with
        outcomes := rememberActionOutcome limits.action s.outcomes
          (claim.delivery.identity digest) outcome
        decisions := s.decisions.setPhase index claim (.recorded outcome) }, .goesOn)
  | _, _ => throw ()

/-- One step; an error where the step cannot be made. -/
def step (s : State) (action : Action) : Except Unit (State × Effect) :=
  match action with
  | .checks d =>
      match cachedActionOutcome s.outcomes (d.identity digest) d with
      | some outcome => pure (s, .returned d outcome)
      | none => pure ({ s with deliveries := s.deliveries ++ [⟨d, .checked⟩] }, .goesOn)
  | .queries query => pure (s, .queried (queryRecorded s.outcomes query))
  | .controls index _ | .answers index _ | .records index | .decides index _ | .wakes index => do
      let underway ← orRaise s.deliveries[index]? ()
      stepDelivery digest limits s index underway.delivery underway.phase action
  | .loads index _ | .resolves index _ | .settles index | .remembers index => do
      let claim ← orRaise s.decisions.claims[index]? ()
      stepClaim digest limits s index claim action

abbrev Step : State → Event → State → Prop := Commits (step digest limits)

end Step

end Cortex.Adapter
