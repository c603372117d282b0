import Cortex.Library.History
import Cortex.Worker.Protocol

/-!
# An iteration of the worker loop

A line of bytes is peeked at for its request id, parsed, served and answered.  The
reply is written by the loop, or by the thread that runs the one transport call.
What no handler of the loop catches ends it, and so does the constructor of the
reply where it refuses an operation id that the grammar admits.
-/

namespace Cortex.Worker

open Py
open OperationLedger (Monotonic Bytes isOperationId)

inductive Iteration
  | wrote (requestId : Str) (operationId : Option Str) (answer : Answer)
  /-- The reply is left to the thread of the transport. -/
  | submitted (requestId : Str)
  /-- The reply to `shutdown`, after which the loop ends. -/
  | stopped (requestId : Str)
  | raised

/-- What an iteration reads: the clock, a new measurement of the identity, if that raises nothing
but a mismatch, and whether a decision reached its turn. -/
structure LoopReadings where
  now : Monotonic
  measures : Option Bool
  delivered : Bool

/-- The reply is built; `WorkerResponse` refuses an operation id that the ledger would refuse. -/
def respond (requestId : Str) (operationId : Option Str) (answer : Answer) : Iteration :=
  if operationId.all fun id => isOperationId (toText id) then
    match answer with
    | .stopping => .stopped requestId
    | answer => .wrote requestId operationId answer
  else .raised

def approvalChoices : List String := ["approve_once", "deny"]

/-- `validate_approval_choice` lets the choice of the decision through. -/
def approves (params : Fields) : Bool :=
  match ((params.get? (lit "decision")).bind dictOf).bind fun decision =>
      strOf (decision.get? (lit "choice")) with
  | some choice => approvalChoices.any fun other => choice = lit other
  | none => false

/-- The answer to a request, from the one of the loop that knows no choices. -/
def Parsed.answer (request : Parsed) : Answer → Answer
  | .delivered delivered =>
      if approves request.params then .delivered delivered else .error .protocolViolation
  | answer => answer

section Iterate

variable (P : OperationLedger.Platform) (R : Reader)

/-- A parsed request is served and answered. -/
def serveParsed (s : Machine) (p : Process) (busy : Bool) (readings : LoopReadings)
    (request : Parsed) : Machine × Iteration :=
  match readings.measures, decide (request.method = .identityMeasure ∧ p.identityOk = true) with
  | none, true => (s, .raised)
  | measures, _ =>
      let (s, answer) := serveLine P s p
        ⟨readings.now, measures.getD false, !busy, readings.delivered⟩ (some request.request)
      match answer with
      | .submitted => (s, .submitted request.requestId)
      | answer =>
          (s, respond request.requestId (strOf (request.params.get? (lit "operation_id")))
            (request.answer answer))

/-- One iteration of the loop of `serve` over a line. -/
def iterate (s : Machine) (p : Process) (busy : Bool) (readings : LoopReadings) (line : Bytes) :
    Machine × Iteration :=
  match R.peekRequestId line with
  | none => (s, .raised)
  | some peeked =>
      match R.parseRequest line with
      | .error .other => (s, .raised)
      | .error _ => (s, respond peeked none (.error .protocolViolation))
      | .ok request => serveParsed P s p busy readings request

/-! ## The loop and the thread of the transport -/

/-- The loop, with the request ids of the transport calls under way and of the replies that are
still to be written. -/
structure Loop where
  machine : Machine
  busy : Bool
  calls : List Str
  replies : List Str
  ended : Bool

inductive LoopEvent
  | line (line : Bytes) (readings : LoopReadings) (iteration : Iteration)
  /-- A transport call is over, and frees the transport. -/
  | returns (requestId : Str)
  | replies (requestId : Str)
  /-- Another thread moves. -/
  | moves (action : Action)

/-- The loop after an iteration. -/
def Loop.after (l : Loop) (machine : Machine) : Iteration → Loop
  | .submitted requestId => { l with machine, busy := true, calls := requestId :: l.calls }
  | .wrote _ _ _ => { l with machine }
  | _ => { l with machine, ended := true }

inductive LoopStep : Loop → LoopEvent → Loop → Prop
  | line {l : Loop} {p : Process} (line : Bytes) (readings : LoopReadings) :
      l.ended = false → l.machine.process = some p →
      LoopStep l (.line line readings (iterate P R l.machine p l.busy readings line).2)
        (l.after (iterate P R l.machine p l.busy readings line).1
          (iterate P R l.machine p l.busy readings line).2)
  | returns {l : Loop} {earlier later : List Str} {requestId : Str} :
      l.calls = earlier ++ requestId :: later →
      LoopStep l (.returns requestId)
        { l with busy := false, calls := earlier ++ later, replies := requestId :: l.replies }
  | replies {l : Loop} {earlier later : List Str} {requestId : Str} :
      l.replies = earlier ++ requestId :: later →
      LoopStep l (.replies requestId) { l with replies := earlier ++ later }
  | moves {l : Loop} {machine : Machine} {action : Action} {effect : Effect} :
      step P l.machine action = .ok (machine, effect) →
      LoopStep l (.moves action) { l with machine }

end Iterate

end Cortex.Worker
