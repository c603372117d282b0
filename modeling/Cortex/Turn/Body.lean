import Cortex.Turn.Digests
import Cortex.Worker.Serve

/-!
# One open turn

The thread of a turn calls the runner, takes the digest, records the outcome in
the ledger and writes the last frame.  Meanwhile the timer writes heartbeats, and
the loop of the worker cancels the turn or resolves a decision.  Every section
under a lock is one step, and so is every statement of `_body` that can raise.

A frame is its number, kind and payload; the number of a frame is never too long
for JSON, and the operation is one that `parse_request` let through.
-/

namespace Cortex.Turn

open Py
open Control (Text)
open Transaction
open OperationLedger (OperationId)

inductive Outcome
  | committed | failed
  deriving DecidableEq

def Outcome.text : Outcome → String
  | committed => "committed"
  | failed => "failed"

def eventHeartbeat : Value := .str (lit "heartbeat")

def eventFinish : Value := .str (lit "operation.finish")

def isFinish : Value → Bool
  | .str kind => kind = lit "operation.finish"
  | _ => false

structure Frame where
  sequence : ℕ
  kind : Value
  payload : Fields

/-- What a turn does to the outside: it writes frames, and records its outcome. -/
inductive Output
  | frame (frame : Frame)
  | recorded (outcome : Outcome) (resultDigest : Text)

/-! ## The emitter -/

structure Emitter where
  sequence : ℕ
  isSealed : Bool

section Emit

variable (P : Platform)

/-- `_nonempty_text`. -/
def isNonemptyText : Value → Bool
  | .str text => decide (text ≠ []) && !hasNul text
  | _ => false

/-- The payload can be written inside of the frame and the event. -/
def payloadWrites (payload : Fields) : Bool :=
  JsonOptions.writes ⟨true, true⟩ P.limits.digits (P.limits.depth - 2) (.dict payload)

/-- `encode_event` encodes the frame. -/
def encodes (kind : Value) (payload : Fields) : Bool :=
  isNonemptyText kind && payloadWrites P payload

/-- `TurnEmitter.emit`, with what it writes; nothing where it raises. -/
def Emitter.emit (e : Emitter) (kind : Value) (payload : Fields) :
    Option (Emitter × List Output) :=
  if e.isSealed then some (e, [])
  else if encodes P kind payload then
    some (⟨e.sequence + 1, isFinish kind⟩, [.frame ⟨e.sequence, kind, payload⟩])
  else none

end Emit

/-! ## The turn -/

/-- Where the thread of the turn is. -/
inductive Phase
  | running
  /-- In `TurnContext.emit`, with the signal remembered. -/
  | emitting (signal : Signal)
  /-- In `await_decision`. -/
  | waiting (decisionId : Str)
  | returned (result : Fields)
  /-- Before `heartbeat.stop()`; without a result an exception leaves `_body`. -/
  | stopping (ending : Option (Outcome × Fields))
  | digesting (outcome : Outcome) (result : Fields)
  | recording (outcome : Outcome) (result : Fields) (resultDigest : Text)
  | announcing (payload : Fields)
  | ended

structure State where
  operationId : OperationId
  sessionRef : Str
  cancel : Bool
  announced : List Str
  gates : List Str
  choices : Str → Option Str
  signals : List Signal
  emitter : Emitter
  /-- The timer: its stop event, and whether its wait is over. -/
  stopped : Bool
  beatDue : Bool
  phase : Phase
  done : Bool
  outputs : List Output

def State.start (operationId : OperationId) (sessionRef : Str) : State where
  operationId := operationId
  sessionRef := sessionRef
  cancel := false
  announced := []
  gates := []
  choices := fun _ => none
  signals := []
  emitter := ⟨0, false⟩
  stopped := false
  beatDue := false
  phase := .running
  done := false
  outputs := []

inductive Action
  /-- The loop of the worker. -/
  | cancel
  | resolve (decisionId choice : Str)
  /-- The timer. -/
  | wakes
  | beats
  /-- The runner. -/
  | emit (kind : Value) (payload : Fields)
  | writes
  | parks (decisionId : Str)
  | released (answered : Bool)
  | returns (result : Fields)
  | raises (canceled : Bool)
  /-- The rest of `_body`. -/
  | judges
  | stops
  | digests
  | records (ledgerError : Option String)
  | finishes

/-- The id that a signal announces. -/
def announcedId (kind : Value) (fields : Fields) : Option Str :=
  match kind, fields.get? (lit "decision_id") with
  | .str text, some (.str decisionId) =>
      if text = lit "decision.required" ∧ decisionId ≠ [] then some decisionId else none
  | _, _ => none

/-- `TurnContext.resolve`. -/
def State.resolve (s : State) (decisionId choice : Str) : State :=
  if decisionId ∈ s.gates ∨ decisionId ∈ s.announced then
    { s with choices := Function.update s.choices decisionId (some choice) }
  else s

/-- `TurnContext.emit`, as far as it remembers the signal. -/
def State.remember (s : State) (kind : Value) (payload : Fields) : State :=
  { s with
    announced := s.announced ++ (announcedId kind payload).toList
    signals := s.signals ++ [⟨kind, payload⟩]
    phase := .emitting ⟨kind, payload⟩ }

/-- `await_decision` takes an answer that is there, or parks. -/
def State.park (s : State) (decisionId : Str) : State :=
  match s.choices decisionId with
  | some _ => { s with choices := Function.update s.choices decisionId none }
  | none => { s with gates := decisionId :: s.gates, phase := .waiting decisionId }

/-- The end of `await_decision`. -/
def State.unpark (s : State) (decisionId : Str) (answered : Bool) : State :=
  { s with
    gates := s.gates.erase decisionId
    choices := if answered then Function.update s.choices decisionId none else s.choices
    phase := .running }

/-- The result of a runner that raised. -/
def caughtResult (sessionRef : Str) (canceled : Bool) : Fields :=
  fieldsOf [("session_ref", .str sessionRef), ("final_response", .none),
    ("canceled", .bool canceled), ("failed", .bool !canceled)]

def caughtOutcome (canceled : Bool) : Outcome := if canceled then .committed else .failed

/-- The result as it is reported, from the one that the runner returned. -/
def reportedResult (cancel : Bool) (result : Fields) : Fields :=
  if cancel then Fields.set result (lit "canceled") (.bool true) else result

/-- The `else` of `_body`; nothing where it raises. -/
def judge (cancel : Bool) (result : Fields) : Option (Outcome × Fields) := do
  let result := reportedResult cancel result
  let failed ← flag result "failed"
  pure (if failed then .failed else .committed, result)

def finishPayload (outcome : Outcome) (result : Fields) (resultDigest : Text)
    (ledgerError : Option String) : Fields :=
  fieldsOf ([("outcome", .str (lit outcome.text)), ("result_digest", .str (ofChars resultDigest)),
    ("result", .dict result)] ++
    (ledgerError.map fun error => ("ledger_error", Value.str (lit error))).toList)

section Steps

variable (P : Platform)

/-- The state after a call of `emit`; a call that raises changes nothing. -/
def State.emit (s : State) (kind : Value) (payload : Fields) : State :=
  match s.emitter.emit P kind payload with
  | some (emitter, written) => { s with emitter := emitter, outputs := s.outputs ++ written }
  | none => s

/-- One step; nothing where the step cannot be made. -/
def step (s : State) (action : Action) : Option State :=
  match action, s.phase with
  | .cancel, _ => some { s with cancel := true }
  | .resolve decisionId choice, _ => some (s.resolve decisionId choice)
  | .wakes, _ => if s.stopped then none else some { s with beatDue := true }
  | .beats, _ =>
      if s.beatDue then some { s.emit P eventHeartbeat [] with beatDue := false } else none
  | .emit kind payload, .running => some (s.remember kind payload)
  | .writes, .emitting signal => some { s.emit P signal.kind signal.fields with phase := .running }
  | .parks decisionId, .running => some (s.park decisionId)
  | .released answered, .waiting decisionId =>
      -- Without an answer the wait ends by a cancelation or by its timeout.
      if answered = true → (s.choices decisionId).isSome ∨ s.cancel then
        some (s.unpark decisionId answered)
      else none
  | .returns result, .running => some { s with phase := .returned result }
  | .raises canceled, .running =>
      some { s with
        phase := .stopping (some (caughtOutcome canceled, caughtResult s.sessionRef canceled)) }
  | .judges, .returned result => some { s with phase := .stopping (judge s.cancel result) }
  | .stops, .stopping (some (outcome, result)) =>
      some { s with stopped := true, phase := .digesting outcome result }
  | .stops, .stopping none => some { s with stopped := true, phase := .ended }
  | .digests, .digesting outcome result =>
      match turnDigest P s.signals s.sessionRef result with
      | some digest => some { s with phase := .recording outcome result digest }
      | none => some { s with phase := .ended }
  | .records ledgerError, .recording outcome result digest =>
      some { s with
        outputs := s.outputs ++ [.recorded outcome digest]
        phase := .announcing (finishPayload outcome result digest ledgerError) }
  | .finishes, .announcing payload =>
      some { s.emit P eventFinish payload with done := true, phase := .ended }
  | _, _ => none

def Step (s : State) (action : Action) (s' : State) : Prop := step P s action = some s'

/-- What each step of the turn thread does. -/
def Does (s s' : State) : Action → Prop
  | .emit kind payload => s.phase = .running ∧ s' = s.remember kind payload
  | .writes => ∃ signal, s.phase = .emitting signal ∧
      s' = { s.emit P signal.kind signal.fields with phase := .running }
  | .parks decisionId => s.phase = .running ∧ s' = s.park decisionId
  | .released answered => ∃ decisionId, s.phase = .waiting decisionId ∧
      s' = s.unpark decisionId answered
  | .returns result => s.phase = .running ∧ s' = { s with phase := .returned result }
  | .raises canceled => s.phase = .running ∧
      s' = { s with
        phase := .stopping (some (caughtOutcome canceled, caughtResult s.sessionRef canceled)) }
  | .judges => ∃ result, s.phase = .returned result ∧
      s' = { s with phase := .stopping (judge s.cancel result) }
  | .stops =>
      (∃ outcome result, s.phase = .stopping (some (outcome, result)) ∧
        s' = { s with stopped := true, phase := .digesting outcome result }) ∨
      (s.phase = .stopping none ∧ s' = { s with stopped := true, phase := .ended })
  | .digests => ∃ outcome result, s.phase = .digesting outcome result ∧
      ((∃ digest, turnDigest P s.signals s.sessionRef result = some digest ∧
          s' = { s with phase := .recording outcome result digest }) ∨
        (turnDigest P s.signals s.sessionRef result = none ∧ s' = { s with phase := .ended }))
  | .records ledgerError => ∃ outcome result digest, s.phase = .recording outcome result digest ∧
      s' = { s with
        outputs := s.outputs ++ [.recorded outcome digest]
        phase := .announcing (finishPayload outcome result digest ledgerError) }
  | .finishes => ∃ payload, s.phase = .announcing payload ∧
      s' = { s.emit P eventFinish payload with done := true, phase := .ended }
  | _ => True

variable {P} in
theorem does_of_step {s s' : State} {action : Action} (hstep : Step P s action s') :
    Does P s s' action := by
  unfold Step step at hstep
  split at hstep
  case h_8 decisionId hphase =>
    split at hstep
    · exact ⟨decisionId, hphase, (Option.some.inj hstep).symm⟩
    · cases hstep
  case h_14 outcome result hphase =>
    refine ⟨outcome, result, hphase, ?_⟩
    split at hstep
    · rename_i digest hdigest
      exact .inl ⟨digest, hdigest, (Option.some.inj hstep).symm⟩
    · rename_i hdigest
      exact .inr ⟨hdigest, (Option.some.inj hstep).symm⟩
  all_goals
    first
    | trivial
    | (rename_i hphase
       exact ⟨hphase, (Option.some.inj hstep).symm⟩)
    | (rename_i hphase
       exact ⟨_, hphase, (Option.some.inj hstep).symm⟩)
    | (rename_i hphase
       exact ⟨_, _, _, hphase, (Option.some.inj hstep).symm⟩)
    | (rename_i hphase
       exact .inl ⟨_, _, hphase, (Option.some.inj hstep).symm⟩)
    | (rename_i hphase
       exact .inr ⟨hphase, (Option.some.inj hstep).symm⟩)

end Steps

/-- The turn as the loop of the worker sees it. -/
def State.asTurn (s : State) : Worker.Turn :=
  ⟨s.operationId,
    if s.done then .done
    else
      match s.phase with
      | .running | .emitting _ | .waiting _ => .running
      | .announcing _ => .recorded
      | _ => .returned⟩

end Cortex.Turn
