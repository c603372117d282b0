import Cortex.Captures.Steps
import Cortex.Consumer.Carrier

/-!
# A pass of the capture consumer

`run_once` claims the oldest approved capture, finds or opens its carrier, dispatches or
reconciles the effect, and reports the outcome.  Every command of the store it calls is a
transaction of its own, and the process can die between any two of them.

`Phase` is where a pass is between two commits, with what it keeps in memory.  `World.advance`
goes on to the next commit; one that raises ends the pass.  What the engine answers, the
clock, and the rows of others are `Readings`.
-/

namespace Cortex.Consumer

open Control Time Transaction Workflow

variable {Digest ρ : Type}

/-! ## Parameters -/

/-- The deadlines of the two leases. -/
structure LeasePlan where
  childTimeoutSeconds : ℤ
  effectLeaseSeconds : ℤ
  captureLeaseSeconds : ℤ
  bounded : ∀ seconds ∈ [childTimeoutSeconds, effectLeaseSeconds, captureLeaseSeconds],
    1 ≤ seconds ∧ seconds ≤ 3600
  effectOutlastsChild : childTimeoutSeconds < effectLeaseSeconds
  captureCoversBoth : effectLeaseSeconds + childTimeoutSeconds ≤ captureLeaseSeconds

/-- The defaults of the plan. -/
def LeasePlan.default : LeasePlan where
  childTimeoutSeconds := 600
  effectLeaseSeconds := 900
  captureLeaseSeconds := 1800
  bounded := by decide
  effectOutlastsChild := by decide
  captureCoversBoth := by decide

/-- The parts of an idempotency key. -/
inductive KeyParts
  | claim (captureId claimEpoch : ℕ)
  | consumed (captureId claimEpoch : ℕ)
  | failed (captureId claimEpoch : ℕ)
  | uncertain (captureId claimEpoch : ℕ)
  | aside (captureId claimEpoch : ℕ)
  deriving DecidableEq

/-- What the consumer and the inbox are given: digests, the shape of a payload, the leases. -/
structure Platform (Digest : Type) where
  requestHash : Captures.Request → Digest
  captureShape : Text → Captures.CaptureKind × Text
  idempotencyKey : KeyParts → Text
  /-- The hash of the input of the stage, which names the capture. -/
  inputHash : ℕ → Text
  leases : LeasePlan

/-- `MACHINE_ACTOR`. -/
def machineActor : Text := "machine:p4-capture-consumer".toList

/-- `WORKER_ID`. -/
def workerId : Text := "p4-capture-consumer".toList

def Platform.caller (P : Platform Digest) (parts : KeyParts) : Caller :=
  { actorId := machineActor, idempotencyKey := P.idempotencyKey parts }

/-- `_CATEGORY_MAP`. -/
def categoryMap : List (String × String) :=
  [ ("runtime_activation_disabled", "adapter_unavailable")
  , ("adapter_unavailable", "adapter_unavailable")
  , ("capability_unavailable", "capability_unavailable")
  , ("invalid_source", "invalid_source")
  , ("materialization_failed", "materialization_failed") ]

/-- `_CATEGORY_MAP.get(category, "materialization_failed")`. -/
def mappedCategory (category : Text) : String :=
  (categoryMap.lookup (String.ofList category)).getD "materialization_failed"

/-! ## Passes -/

/-- The report a pass ends with, and why. -/
inductive Ending
  /-- `_complete`, after the run was closed. -/
  | consumed (sourceIds : List Text)
  /-- `_replay_completed`. -/
  | replayed (sourceIds : List Text)
  /-- `_fail` of an effect that failed. -/
  | failed (category : Text)
  /-- `_fail` of a checkpoint or a reconciliation that the engine refused for good. -/
  | refused (category : Text)
  /-- `_uncertain`. -/
  | uncertain
  /-- `_set_aside`. -/
  | setAside (category : String) (blockedBy : Text)

/-- The outcome that `complete_capture` is given. -/
def Ending.outcome : Ending → Captures.Outcome
  | consumed sourceIds => ⟨"consumed", some sourceIds, none, []⟩
  | replayed sourceIds => ⟨"consumed", some sourceIds, none, []⟩
  | failed category => ⟨"failed", none, some (mappedCategory category), []⟩
  | refused category => ⟨"failed", none, some (mappedCategory category), []⟩
  | uncertain => ⟨"uncertain", none, none, []⟩
  | setAside category blockedBy =>
      ⟨"uncertain", none, some category, [("blocked_by".toList, blockedBy)]⟩

def Ending.keyParts (captureId claimEpoch : ℕ) : Ending → KeyParts
  | consumed _ => .consumed captureId claimEpoch
  | replayed _ => .consumed captureId claimEpoch
  | failed _ => .failed captureId claimEpoch
  | refused _ => .failed captureId claimEpoch
  | uncertain => .uncertain captureId claimEpoch
  | setAside _ _ => .aside captureId claimEpoch

/-- Where a pass is, with what it has read. -/
inductive Phase (ρ : Type)
  /-- An approved capture was listed, at this epoch. -/
  | claiming
  /-- The capture is claimed; `_consume` looks for its effect, or opens a carrier. -/
  | consuming
  /-- The effect is claimed, and its request goes to the engine. -/
  | dispatching (runId : ℕ) (claim : Loaded ρ)
  /-- The effect is claimed for reconciliation, and the engine is asked about it. -/
  | asking (runId : ℕ) (claim : Loaded ρ)
  /-- The answer is recorded. -/
  | reconciled (runId : ℕ)
  /-- The effect is completed; `_settle` completes the stage. -/
  | settling (runId : ℕ) (sourceIds : List Text)
  /-- The stage is completed; `_close_run` asks the run to cancel. -/
  | closing (runId : ℕ) (sourceIds : List Text)
  /-- The run is asked to cancel, and is settled at this attempt and revision. -/
  | canceling (runId attemptId revision : ℕ) (sourceIds : List Text)
  | ending (ending : Ending)

def Phase.isClaiming : Phase ρ → Bool
  | claiming => true
  | _ => false

/-- A pass over one capture, with the epoch it listed or claimed it at. -/
structure Pass (ρ : Type) where
  captureId : ℕ
  claimEpoch : ℕ
  phase : Phase ρ

/-- What the engine answers; a call that raises anything else ends the pass. -/
inductive Answer (α : Type)
  | returned (value : α)
  /-- `EffectPermanentlyRejected`. -/
  | rejected (category : Text)
  /-- `EffectOutcomeUnknown`. -/
  | unknown

/-- A finished import: the result that is recorded, and the rows of the sources it made. -/
structure Imported (ρ : Type) where
  result : ρ
  sourceIds : List Text

/-- What a step of a pass reads besides the world. -/
structure Readings (ρ : Type) where
  inbox : Captures.Readings
  carrier : CarrierReadings
  /-- `runtime_dispatch_enabled`. -/
  dispatchIsEnabled : Bool
  /-- The ids of a new run and of its attempt. -/
  runId : ℕ
  attemptId : ℕ
  /-- A thread of the capture's title that somebody else created. -/
  foreignThread : Option Text
  /-- The active run that somebody else opened on the thread. -/
  foreignRun : Option Text
  checkpoint : Answer Unit
  importSource : Answer (Imported ρ)
  reconcileEffect : Answer (Disposition ρ)
  /-- The sources that carry the engine reference of the completed effect. -/
  sourcesOfEffect : List Text

/-- The inbox, the consumer's workspace with its threads by capture, and the pass in progress. -/
structure World (Digest ρ : Type) where
  inbox : Captures.Store Digest
  hasWorkspace : Bool
  carriers : ℕ → Option (CarrierThread ρ)
  pass : Option (Pass ρ)

namespace World

variable (P : Platform Digest) (w : World Digest ρ) (p : Pass ρ) (readings : Readings ρ)

/-- The pass goes on at another phase. -/
def goTo (phase : Phase ρ) : World Digest ρ := { w with pass := some { p with phase } }

/-- A commit that writes the carrier of the capture. -/
def putCarrier (thread : CarrierThread ρ) : World Digest ρ :=
  { w with carriers := Function.update w.carriers p.captureId (some thread) }

@[simp] theorem carriers_putCarrier_self (thread : CarrierThread ρ) :
    (w.putCarrier p thread).carriers p.captureId = some thread :=
  Function.update_self _ _ _

theorem carriers_putCarrier_of_ne (thread : CarrierThread ρ) {captureId : ℕ}
    (h : captureId ≠ p.captureId) :
    (w.putCarrier p thread).carriers captureId = w.carriers captureId :=
  Function.update_of_ne h _ _

/-- The carrier thread of the pass. -/
def carrier : Except StoreError (CarrierThread ρ) :=
  orRaise (w.carriers p.captureId) (.notFound "thread")

variable [DecidableEq Digest]

/-- `run_once`, up to the capture that is listed. -/
def begin : Except StoreError (World Digest ρ) := do
  require (readings.dispatchIsEnabled = true) (.runtimeError "runtime_activation_disabled")
  let (inbox, pending) ← Captures.listPendingCaptures w.inbox readings.inbox 1
  pure { w with
    inbox
    pass := pending.head?.map fun capture => ⟨capture.id, capture.claimEpoch, .claiming⟩ }

/-- The claim of the capture that was listed. -/
def claimCapture : Except StoreError (World Digest ρ) := do
  let (inbox, claim) ← Captures.claimCapture P.requestHash w.inbox readings.inbox p.captureId
    workerId P.leases.captureLeaseSeconds (P.caller (.claim p.captureId p.claimEpoch))
  pure { w with
    inbox
    pass := some ⟨p.captureId, claim.value.claimEpoch, .consuming⟩ }

/-! ## The carrier -/

/-- The rest of `_carrier` and `_create_effect`, on a run of the consumer. -/
def prepareRun (thread : CarrierThread ρ) (run : CarrierRun ρ) :
    Except StoreError (World Digest ρ) := do
  let run ← run.prepare readings.carrier (P.inputHash p.captureId)
  pure (w.putCarrier p (thread.putRun run))

/-- `_carrier`: a run of the consumer is reused while it lasts. -/
def openCarrier (thread : CarrierThread ρ) : Except StoreError (World Digest ρ) := do
  let active ← thread.activeRun
  match active.filter fun run => ¬run.state.isTerminal, readings.foreignRun with
  | some run, _ => w.prepareRun P p readings thread run
  | none, some runId => pure (w.goTo p (.ending (.setAside "carrier_thread_busy" runId)))
  | none, none => do
      let thread ← thread.createRun readings.runId readings.attemptId
      pure (w.putCarrier p thread)

/-- The first half of `_dispatch`; a claim that had run out is not handed over again. -/
def claimEffect (thread : CarrierThread ρ) (runId : ℕ) : Except StoreError (World Digest ρ) := do
  let run ← thread.run runId
  let (run, claim) ← run.onEffect fun s =>
    s.claimWorkflowEffect (run.effectReadings readings.carrier) workerId
      P.leases.effectLeaseSeconds
  let w := w.putCarrier p (thread.putRun run)
  if claim.effect.state.dispatchClaim.isSome then pure (w.goTo p (.dispatching runId claim))
  else pure (w.goTo p (.ending .uncertain))

/-- The first half of `_reconcile`, after `heal`. -/
def claimReconciliation (thread : CarrierThread ρ) (runId : ℕ) :
    Except StoreError (World Digest ρ) := do
  let run ← thread.run runId
  let (run, claim) ← run.onEffect fun s =>
    s.claimWorkflowEffectReconciliation (run.effectReadings readings.carrier) workerId
      P.leases.effectLeaseSeconds
  pure ((w.putCarrier p (thread.putRun run)).goTo p (.asking runId claim))

/-- `heal` and the claim for reconciliation. -/
def heal (thread : CarrierThread ρ) (runId : ℕ) : Except StoreError (World Digest ρ) :=
  match readings.checkpoint with
  | .returned _ => w.claimReconciliation P p readings thread runId
  | .rejected category => pure (w.goTo p (.ending (.refused category)))
  | .unknown => pure (w.goTo p (.ending .uncertain))

/-- `_replay_completed`: a completed effect without a source is not guessed about. -/
def replay : Ending :=
  if readings.sourcesOfEffect = [] then .uncertain else .replayed readings.sourcesOfEffect

/-- `_consume`, by the state of the effect that was found. -/
def resume (thread : CarrierThread ρ) (runId : ℕ) :
    EffectState ρ → Except StoreError (World Digest ρ)
  | .completed _ => pure (w.goTo p (.ending (replay readings)))
  | .failed category => pure (w.goTo p (.ending (.failed category)))
  | .outcomeUnknown => w.heal P p readings thread runId
  | .reconciling _ _ => w.heal P p readings thread runId
  | .pending => w.claimEffect P p readings thread runId
  | .claimed _ _ => w.claimEffect P p readings thread runId
  | .manualRequired => w.claimEffect P p readings thread runId

/-- `_thread`: a thread that somebody else created is not adopted. -/
def openThread : World Digest ρ :=
  match readings.foreignThread with
  | some threadId => w.goTo p (.ending (.setAside "carrier_thread_foreign" threadId))
  | none => w.putCarrier p .new

/-- `_consume`, up to its next commit. -/
def consume : Except StoreError (World Digest ρ) :=
  if w.hasWorkspace then
    match w.carriers p.captureId with
    | none => pure (w.openThread p readings)
    | some thread =>
        match thread.existingEffect with
        | none => w.openCarrier P p readings thread
        | some (run, s) => w.resume P p readings thread run.id s.effect.state
  else pure { w with hasWorkspace := true }

/-! ## The effect -/

def fenceOf (claim : Loaded ρ) : Fence :=
  { workerId, claimEpoch := claim.effect.claimEpoch, deliveryEpoch := claim.effect.deliveryEpoch }

/-- The second half of `_dispatch`, by what the engine answers. -/
def dispatch (runId : ℕ) (claim : Loaded ρ) : Except StoreError (World Digest ρ) := do
  let thread ← w.carrier p
  let run ← thread.run runId
  match readings.importSource with
  | .returned imported => do
      let (run, _) ← run.onEffect fun s =>
        s.completeWorkflowEffect (run.effectReadings readings.carrier) (fenceOf claim)
          imported.result
      pure ((w.putCarrier p (thread.putRun run)).goTo p (.settling runId imported.sourceIds))
  | .rejected category => do
      let run ← run.rejectEffect readings.carrier (fenceOf claim) category
      pure ((w.putCarrier p (thread.putRun run)).goTo p (.ending (.failed category)))
  | .unknown => do
      let (run, _) ← run.onEffect fun s => s.markWorkflowEffectOutcomeUnknown (fenceOf claim)
      pure ((w.putCarrier p (thread.putRun run)).goTo p (.ending .uncertain))

/-- The second half of `_reconcile`. -/
def reconcile (runId : ℕ) (claim : Loaded ρ) : Except StoreError (World Digest ρ) := do
  let thread ← w.carrier p
  let run ← thread.run runId
  match readings.reconcileEffect with
  | .returned disposition => do
      let (run, _) ← run.onEffect fun s =>
        s.completeWorkflowEffectReconciliation (run.effectReadings readings.carrier)
          (fenceOf claim) disposition
      pure ((w.putCarrier p (thread.putRun run)).goTo p (.reconciled runId))
  | .rejected category => pure (w.goTo p (.ending (.refused category)))
  | .unknown => pure (w.goTo p (.ending .uncertain))

/-- What `_consume` does with the effect that `_reconcile` returned. -/
def afterReconciliation (thread : CarrierThread ρ) (runId : ℕ) :
    EffectState ρ → Except StoreError (World Digest ρ)
  | .completed _ => pure (w.goTo p (.ending (replay readings)))
  | .manualRequired => pure (w.goTo p (.ending .uncertain))
  | .failed category => pure (w.goTo p (.ending (.failed category)))
  | _ => w.claimEffect P p readings thread runId

/-- The effect is read back as it was recorded. -/
def goOn (runId : ℕ) : Except StoreError (World Digest ρ) := do
  let thread ← w.carrier p
  let run ← thread.run runId
  let s ← orRaise run.effect (.notFound "workflow effect")
  w.afterReconciliation P p readings thread runId s.effect.state

/-! ## The end -/

/-- `_settle`, up to the stage. -/
def settle (runId : ℕ) (sourceIds : List Text) : Except StoreError (World Digest ρ) := do
  let thread ← w.carrier p
  let run ← thread.run runId
  let run ← run.completeStage readings.carrier
  pure ((w.putCarrier p (thread.putRun run)).goTo p (.closing runId sourceIds))

/-- `_close_run`, up to the request to cancel. -/
def closeRun (runId : ℕ) (sourceIds : List Text) : Except StoreError (World Digest ρ) := do
  let thread ← w.carrier p
  let run ← thread.run runId
  if run.state.isTerminal then pure (w.goTo p (.ending (.consumed sourceIds)))
  else do
    let run ← run.requestCancel
    pure ((w.putCarrier p (thread.putRun run)).goTo p
      (.canceling runId run.activeAttemptId run.revision sourceIds))

/-- `_close_run`, the settling of the run. -/
def settleRun (runId attemptId revision : ℕ) (sourceIds : List Text) :
    Except StoreError (World Digest ρ) := do
  let thread ← w.carrier p
  let run ← thread.run runId
  let run ← run.failUnbound attemptId revision
  pure ((w.putCarrier p (thread.putRun run)).goTo p (.ending (.consumed sourceIds)))

/-- The report to the inbox, with which the pass is over. -/
def report (ending : Ending) : Except StoreError (World Digest ρ) := do
  let (inbox, _) ← Captures.completeCapture P.requestHash w.inbox readings.inbox p.captureId
    workerId p.claimEpoch ending.outcome
    (P.caller (ending.keyParts p.captureId p.claimEpoch))
  pure { w with inbox, pass := none }

/-- A pass goes on to its next commit. -/
def advance : Except StoreError (World Digest ρ) :=
  match p.phase with
  | .claiming => w.claimCapture P p readings
  | .consuming => w.consume P p readings
  | .dispatching runId claim => w.dispatch p readings runId claim
  | .asking runId claim => w.reconcile p readings runId claim
  | .reconciled runId => w.goOn P p readings runId
  | .settling runId sourceIds => w.settle p readings runId sourceIds
  | .closing runId sourceIds => w.closeRun p runId sourceIds
  | .canceling runId attemptId revision sourceIds =>
      w.settleRun p runId attemptId revision sourceIds
  | .ending ending => w.report P p readings ending

end World

/-! ## Runs -/

/-- A command that an operator sends to the inbox. -/
def isOperators : Captures.Call → Bool
  | .create _ _ _ => true
  | .stage _ _ => true
  | .approve _ _ _ => true
  | .dismiss _ _ _ => true
  | .reopen _ _ _ _ => true
  | .listPending _ => true
  | .claim _ _ _ _ => false
  | .complete _ _ _ _ _ => false

/-- What happens next: an operator decides, a pass begins or goes on, or its process dies. -/
inductive Move
  | operator (call : Captures.Call) (isTheirs : isOperators call = true)
  | begin
  | advance
  | crash

structure Event (ρ : Type) where
  move : Move
  readings : Readings ρ

namespace World

variable [DecidableEq Digest] (P : Platform Digest) (w : World Digest ρ) (readings : Readings ρ)

/-- A command of an operator; one that raises changes nothing. -/
def operate (call : Captures.Call) : World Digest ρ :=
  match Captures.exec P.requestHash P.captureShape w.inbox (call, readings.inbox) with
  | .ok (inbox, _) => { w with inbox }
  | .error _ => w

/-- A pass begins where none is in progress. -/
def start : World Digest ρ :=
  match w.pass with
  | none => (w.begin readings).toOption.getD w
  | some _ => w

/-- The pass in progress goes on, or is over because it raises. -/
def proceed : World Digest ρ :=
  match w.pass with
  | none => w
  | some p => (w.advance P p readings).toOption.getD { w with pass := none }

/-- The world after an event. -/
def next (event : Event ρ) : World Digest ρ :=
  match event.move with
  | .operator call _ => w.operate P event.readings call
  | .begin => w.start event.readings
  | .advance => w.proceed P event.readings
  | .crash => { w with pass := none }

end World

def Step [DecidableEq Digest] (P : Platform Digest) (w : World Digest ρ) (event : Event ρ)
    (w' : World Digest ρ) : Prop :=
  w' = w.next P event

/-- Nothing was captured yet. -/
def World.initial : World Digest ρ where
  inbox := ⟨.empty, .empty⟩
  hasWorkspace := false
  carriers := fun _ => none
  pass := none

/-- The world after events, the latest first. -/
def World.after [DecidableEq Digest] (P : Platform Digest) : List (Event ρ) → World Digest ρ
  | [] => .initial
  | event :: earlier => (World.after P earlier).next P event

theorem history_after [DecidableEq Digest] (P : Platform Digest) (events : List (Event ρ)) :
    History (Step P) World.initial events (World.after P events) := by
  induction events with
  | nil => exact .nil
  | cons event earlier ih => exact ih.cons rfl

end Cortex.Consumer
