import Cortex.Library.History
import Cortex.Library.Trace
import Mathlib.Data.Int.Notation
import Mathlib.Data.Nat.Notation

/-!
# The inbound poller

`TelegramInboundPoller.run` asks for the updates from its offset on, hands them to the
adapter one after the other, and moves its offset only past an update whose handler
returned.  One turn of its loop is `iterate`; how the frame, the gate and the handlers
answer is a reading of the turn.  Besides the state, a turn tells what happened in it, the
latest first, so that a history of turns has a trace.
-/

namespace Cortex.Inbound

/-! ## Replies -/

/-- What `rpc.request` returns: a mapping with its `status`, and with its `updates` when
these are a list, or another value.  Items of the list that are not mappings are `none`. -/
inductive Reply (Update : Type)
  | mapping (status : Option String) (updates : Option (List (Option Update)))
  | other

/-- `_updates` -/
def updates {Update : Type} : Reply Update → List Update
  | .mapping status (some items) => if status = some "ok" then items.filterMap id else []
  | _ => []

/-- How `rpc.request` ends. -/
inductive Polled (Update : Type)
  | replied (reply : Reply Update)
  | gateClosed
  | lineBusy
  | workerBusy
  | raised (error : String)
  /-- No `Exception`: it leaves `run`. -/
  | aborted

/-- How the handler of one update ends. -/
inductive Handling
  | returned (category : Option String)
  | raised (error : String)
  | aborted
  deriving DecidableEq

/-- The handler returned a result, and not one whose reply Control does not own. -/
def Handling.Returned : Handling → Prop
  | .returned category => category ≠ some "reply_not_persisted"
  | _ => False

/-- How `run` ends; `raised` when an exception leaves it. -/
inductive Outcome
  | bounded
  | gateClosed
  | failed
  | stopped
  | raised
  deriving DecidableEq

/-- What happens in a run. -/
inductive Event (Update : Type)
  | started
  | polled (offset : Option ℤ)
  | replied (updates : List Update)
  | answered (update : Update) (handling : Handling)
  | failed (error : String)
  /-- Every update of a reply was handled. -/
  | cleared
  | left (outcome : Outcome)

/-! ## The loop -/

/-- The fields of `TelegramInboundPoller` that its loop moves. -/
structure Poller where
  offset : Option ℤ := none
  polls : ℕ := 0
  handled : ℕ := 0
  failures : ℕ := 0
  lastError : Option String := none
  lineBusy : ℕ := 0
  workerBusy : ℕ := 0
  workerBusySince : Option ℤ := none

/-- The local variables of `run`. -/
structure Locals where
  iterations : ℤ := 0
  consecutive : ℕ := 0
  busy : ℕ := 0

/-- What one turn of the loop reads. -/
structure Reading (Update : Type) where
  stopSet : Bool := false
  /-- `telegram_dispatch_enabled`, which may raise. -/
  dispatchEnabled : Option Bool := some true
  started : ℤ := 0
  polled : Polled Update
  /-- How the handler of each update of the reply ends, by its index. -/
  handling : ℕ → Handling := fun _ => .returned none

def maxConsecutiveFailures : ℕ := 5

def maxConsecutiveWorkerBusy : ℕ := 10

variable {Update : Type} (updateId : Update → Option ℤ)

/-- `_record_failure` -/
def Poller.recordFailure (p : Poller) (error : String) : Poller :=
  { p with failures := p.failures + 1, lastError := some error }

/-- What follows the handler of an update: `updateId` is its `update_id`, if that is an `int`. -/
def Poller.confirm (p : Poller) (updateId : Option ℤ) : Poller :=
  { p with offset := (updateId.map (· + 1)).or p.offset, handled := p.handled + 1 }

/-- How the loop over the updates of a reply ends. -/
inductive Batch
  | done
  | interrupted
  | aborted

/-- The loop over the updates of a reply, from index `i` on. -/
def handleAll (handling : ℕ → Handling) :
    ℕ → List Update → Poller → List (Event Update) → Poller × List (Event Update) × Batch
  | _, [], p, trace => (p, trace, .done)
  | i, update :: rest, p, trace =>
      let trace := .answered update (handling i) :: trace
      match handling i with
      | .returned category =>
          if category = some "reply_not_persisted" then
            (p.recordFailure "RuntimeError", .failed "RuntimeError" :: trace, .interrupted)
          else handleAll handling (i + 1) rest (p.confirm (updateId update)) trace
      | .raised error => (p.recordFailure error, .failed error :: trace, .interrupted)
      | .aborted => (p, trace, .aborted)

/-- A turn of the loop: the poller after it, what happened, and the local variables of the
next turn, or how `run` ended. -/
structure Turn (Update : Type) where
  poller : Poller
  trace : List (Event Update)
  next : Except Outcome Locals

def leave (p : Poller) (trace : List (Event Update)) (outcome : Outcome) : Turn Update :=
  ⟨p, .left outcome :: trace, .error outcome⟩

/-- The end of a turn in which something failed. -/
def strike (p : Poller) (trace : List (Event Update)) (l : Locals) : Turn Update :=
  if maxConsecutiveFailures ≤ l.consecutive + 1 then leave p trace .failed
  else ⟨p, trace, .ok { l with consecutive := l.consecutive + 1 }⟩

/-- The end of a turn whose poll was answered. -/
def afterReply (l : Locals) : Poller × List (Event Update) × Batch → Turn Update
  | (p, trace, .done) => ⟨p, .cleared :: trace, .ok { l with consecutive := 0 }⟩
  | (p, trace, .interrupted) => strike p trace l
  | (p, trace, .aborted) => leave p trace .raised

/-- One turn of the `while` loop of `run`. -/
def iterate (maxIterations : Option ℤ) (p : Poller) (l : Locals) (r : Reading Update) :
    Turn Update :=
  if r.stopSet then leave p [] .stopped
  else if maxIterations.any fun bound => decide (bound ≤ l.iterations) then leave p [] .bounded
  else
    let l := { l with iterations := l.iterations + 1 }
    match r.dispatchEnabled with
    | none => leave p [] .raised
    | some false => leave p [] .gateClosed
    | some true =>
        let trace := [.polled p.offset]
        match r.polled with
        | .gateClosed => leave p trace .gateClosed
        | .aborted => leave p trace .raised
        | .lineBusy => ⟨{ p with lineBusy := p.lineBusy + 1 }, trace, .ok l⟩
        | .workerBusy =>
            let p :=
              { p with
                workerBusy := p.workerBusy + 1
                workerBusySince := p.workerBusySince.or (some r.started) }
            if l.busy + 1 < maxConsecutiveWorkerBusy then ⟨p, trace, .ok { l with busy := l.busy + 1 }⟩
            else
              strike (p.recordFailure "TransportWorkerBusy") (.failed "TransportWorkerBusy" :: trace)
                { l with busy := 0 }
        | .raised error => strike (p.recordFailure error) (.failed error :: trace) l
        | .replied reply =>
            let p := { p with workerBusySince := none, polls := p.polls + 1 }
            let l := { l with busy := 0 }
            afterReply l (handleAll updateId r.handling 0 (updates reply) p
              (.replied (updates reply) :: trace))

/-! ## Runs of one object -/

/-- A poller, and the `max_iterations` and local variables of the run that is going on. -/
structure Loop where
  poller : Poller
  running : Option (Option ℤ × Locals)

def Loop.new : Loop := ⟨{}, none⟩

/-- `run` is called when no run is going on, and it takes one turn after the other. -/
inductive Step : Loop → List (Event Update) → Loop → Prop
  | start (p : Poller) (maxIterations : Option ℤ) :
      Step ⟨p, none⟩ [.started] ⟨p, some (maxIterations, {})⟩
  | turn (p : Poller) (maxIterations : Option ℤ) (l : Locals) (r : Reading Update) :
      Step ⟨p, some (maxIterations, l)⟩ (iterate updateId maxIterations p l r).trace
        ⟨(iterate updateId maxIterations p l r).poller,
          (iterate updateId maxIterations p l r).next.toOption.map fun l => (maxIterations, l)⟩

/-! ## What is promised -/

/-- An update with this id was in a reply. -/
def Received (trace : List (Event Update)) (id : ℤ) : Prop :=
  ∃ updates, .replied updates ∈ trace ∧ some id ∈ updates.map updateId

/-- The handler of an update with this id returned. -/
def WasHandled (trace : List (Event Update)) (id : ℤ) : Prop :=
  ∃ update handling, .answered update handling ∈ trace ∧ updateId update = some id ∧
    handling.Returned

/-- What the Bot API says of the updates it returns to a poll: they are in ascending order,
they start at the offset, and no update that is not confirmed yet is left out before them. -/
structure AsReturned (earlier : List (Event Update)) (offset : Option ℤ) (updates : List Update) :
    Prop where
  ascending : (updates.filterMap updateId).Pairwise (· < ·)
  fromOffset : ∀ id ∈ updates.filterMap updateId, ∀ o ∈ offset, o ≤ id
  earliest : ∀ id ∈ updates.filterMap updateId, ∀ j, Received updateId earlier j → j < id →
    (∀ o ∈ offset, o ≤ j) → j ∈ updates.filterMap updateId

/-- Every reply of a trace is one of the Bot API to the poll before it. -/
def FromBotApi : List (Event Update) → Prop :=
  Along fun event earlier => ∀ updates offset rest, event = .replied updates →
    earlier = .polled offset :: rest → AsReturned updateId rest offset updates

/-- The failures since the run began or a poll was fully handled. -/
def streak : List (Event Update) → ℕ
  | .failed _ :: trace => streak trace + 1
  | .cleared :: _ => 0
  | .started :: _ => 0
  | _ :: trace => streak trace
  | [] => 0

end Cortex.Inbound
