import Cortex.Control.Errors
import Cortex.Library.Triple
import Mathlib.Data.Char
import Mathlib.Data.List.Lex
import Mathlib.Data.List.Sort

/-!
# A pass of the delivery drain

`TransportDeliveryDrain.drain` resumes what the ledger says was interrupted,
retries what the last pass held back, and delivers what is new.

Every call that leaves the drain (a read of Control, a call of the adapter, a
reading of the clock) is a `Query`, and each pass comes with `Answers`: which
queries raise, and what the adapter and the clock answer.  The drain is an object:
what a pass did to it before something raised stands.
-/

namespace Cortex.Drain

open Control

/-- Nanoseconds of the monotonic clock. -/
abbrev Instant := ℤ

/-! ## What the drain reads -/

structure RunEvent where
  id : Text
  cursor : ℤ
  type : Text
  runId : ℕ
  deriving DecidableEq

structure Run where
  id : ℕ
  threadId : ℕ
  deriving DecidableEq

/-- A row of `transport_delivery_projections`. -/
structure Delivery where
  destinationDigest : Text
  eventId : Text
  projectionVersion : ℕ
  isPending : Bool
  createdAt : Text
  operationId : Text
  deriving DecidableEq

/-- The tables of Control that the drain reads: `run_events` is keyed by an increasing cursor
and by the id, and a row of it names its run. -/
structure Tables where
  events : List RunEvent
  runs : List Run
  deliveries : List Delivery
  ascending : events.Pairwise fun e e' => e.cursor < e'.cursor
  distinct : (events.map RunEvent.id).Nodup
  owned : ∀ e ∈ events, ∃ run ∈ runs, run.id = e.runId

structure Destination where
  chatId : ℤ
  topicId : Option ℤ
  deriving DecidableEq

/-- A candidate that Control confirmed, as `DestinationDirectory.resolved` walks them. -/
structure Binding where
  destination : Destination
  externalScope : Text
  threadId : ℕ
  deriving DecidableEq

/-- `Bindings.by_digest`: the last candidate with this scope. -/
def byDigest (bindings : List Binding) (digest : Text) : Option Binding :=
  bindings.reverse.find? fun b => b.externalScope = digest

/-- `Bindings.by_thread`: the first candidate of this thread. -/
def byThread (bindings : List Binding) (threadId : ℕ) : Option Destination :=
  (bindings.find? fun b => b.threadId = threadId).map Binding.destination

/-- What the adapter answers.  It never calls a delivered message retryable. -/
structure DeliveryResult where
  category : Text
  delivered : Bool
  retryable : Bool
  retryAfterMs : Option ℤ
  final : delivered = true → retryable = false

inductive Source
  | resumed | retried | new | commandReply | xhsDigest
  deriving DecidableEq

/-- What `_record` reports of a delivery. -/
structure Outcome where
  eventId : Text
  source : Source
  category : Text
  delivered : Bool
  retryable : Bool
  retryAfterMs : Option ℤ

/-! ## The drain -/

def notificationTypes : List Text :=
  ["decision.required".toList, "run.blocked".toList, "run.completed".toList,
    "run.failed".toList, "run.milestone".toList]

def retryLimit : ℕ := 200

def maxPassSeconds : Instant := 5000000000

def pendingLimit : ℕ := 500

def unroutableLimit : ℕ := 1000

def xhsDigestLimit : ℕ := 10

def commandReplyPrefix : Text := "cmd:".toList

def xhsDigestPrefix : Text := "xhs-fallback:".toList

structure TransportDeliveryDrain where
  cursor : ℤ
  batch : ℕ
  /-- `_retry`, in the order of insertion. -/
  retry : List (Text × Instant) := []
  retried : ℕ := 0
  retriesDropped : ℕ := 0
  failures : ℕ := 0
  delivered : ℕ := 0
  repliesDelivered : ℕ := 0
  unroutable : List (Text × Text) := []
  undeliverable : List Text := []
  deadlineStops : ℕ := 0

/-- The drain and Control, with what the adapter has answered so far and which events were
evicted from the retry set. -/
structure World where
  tables : Tables
  drain : TransportDeliveryDrain
  answered : List (Text × DeliveryResult) := []
  evicted : List Text := []

/-! ## Calls that leave the drain -/

/-- What a query is made for. -/
inductive Work
  | row (destinationDigest : Text) (eventId : Text) (projectionVersion : ℕ)
  | retry (eventId : Text)
  | new (eventId : Text)
  | digest (runId : ℕ)
  deriving DecidableEq

inductive Query
  | resolved | start | pendingDeliveries | retriesStart | listEvents | pendingDigests
  /-- The deadline check before a piece of work. -/
  | deadline (work : Work)
  | getRunEvent (work : Work)
  | getRun (work : Work)
  | deliver (work : Work)
  /-- The clock read for the delay of an outcome. -/
  | notBefore (work : Work)
  deriving DecidableEq

/-- How a delivery moves the ledger: no row of it is ever deleted. -/
structure LedgerMove where
  move : List Delivery → List Delivery
  kept : ∀ rows, ∀ row ∈ rows, ∃ row' ∈ move rows, row'.eventId = row.eventId

structure Answers (Failure : Type) where
  raises : Query → Option Failure
  clock : Query → Instant
  bindings : List Binding
  result : Work → DeliveryResult
  ledger : Work → LedgerMove
  /-- The runs that `pending_xhs_fallback_digests` returns. -/
  owedDigests : List ℕ
  /-- Whether `_xhs_digest` delivers something for a run. -/
  sendsDigest : ℕ → Bool

section Pass

variable {Failure : Type} (answers : Answers Failure)

abbrev M (Failure : Type) := EStateM Failure World

def ask (query : Query) : M Failure Unit :=
  match answers.raises query with
  | some failure => throw failure
  | none => pure ()

def monotonic (query : Query) : M Failure Instant := do
  ask answers query
  pure (answers.clock query)

def modifyDrain (f : TransportDeliveryDrain → TransportDeliveryDrain) : M Failure Unit :=
  modify fun w => { w with drain := f w.drain }

/-- `get_run_event`, with `none` for its `NotFound`. -/
def getRunEvent (work : Work) (eventId : Text) : M Failure (Option RunEvent) := do
  ask answers (.getRunEvent work)
  let w ← get
  pure (w.tables.events.find? fun e => e.id = eventId)

/-- `get_run`, with `none` for its `NotFound`. -/
def getRun (work : Work) (runId : ℕ) : M Failure (Option Run) := do
  ask answers (.getRun work)
  let w ← get
  pure (w.tables.runs.find? fun run => run.id = runId)

/-- `list_events`. -/
def listEvents (afterCursor : ℤ) (limit : ℕ) : M Failure (List RunEvent) := do
  ask answers .listEvents
  let w ← get
  pure ((w.tables.events.filter fun e => afterCursor < e.cursor).take limit)

/-- `ORDER BY created_at, operation_id`. -/
def IsOlder (row row' : Delivery) : Prop :=
  row.createdAt < row'.createdAt ∨ row.createdAt = row'.createdAt ∧ row.operationId ≤ row'.operationId

instance : DecidableRel IsOlder := fun row row' => by unfold IsOlder; infer_instance

/-- `pending_transport_deliveries`. -/
def pendingTransportDeliveries (limit : ℕ) : M Failure (List Delivery) := do
  ask answers .pendingDeliveries
  let w ← get
  pure (((w.tables.deliveries.filter Delivery.isPending).insertionSort IsOlder).take limit)

/-! ## The pass -/

/-- `_count_unroutable`. -/
def countUnroutable (digest eventId : Text) : M Failure Unit :=
  modifyDrain fun d =>
    if d.unroutable.length < unroutableLimit then
      { d with unroutable := d.unroutable.insert (digest, eventId) }
    else d

/-- File an event in the retry set; the oldest `excess` entries are evicted to make room. -/
def World.holdBack (w : World) (excess : ℕ) (eventId : Text) (notBefore : Instant) : World :=
  { w with
    drain := { w.drain with
      retry := w.drain.retry.drop excess ++ [(eventId, notBefore)]
      retriesDropped := w.drain.retriesDropped + (w.drain.retry.take excess).length }
    evicted := w.evicted ++ (w.drain.retry.take excess).map Prod.fst }

/-- `_remember`. -/
def remember (eventId : Text) (notBefore : Instant) : M Failure Unit :=
  modify fun w =>
    if eventId ∈ w.drain.retry.map Prod.fst then w
    else w.holdBack (w.drain.retry.length + 1 - retryLimit) eventId notBefore

/-- `_failed`. -/
def failed : M Failure Unit := modifyDrain fun d => { d with failures := d.failures + 1 }

/-- `_record`. -/
def record (eventId : Text) (result : DeliveryResult) (source : Source) : M Failure Outcome := do
  modifyDrain fun d => if result.delivered then { d with delivered := d.delivered + 1 } else d
  pure
    { eventId, source
      category := result.category
      delivered := result.delivered
      retryable := result.retryable
      retryAfterMs := result.retryAfterMs }

/-- A call of the adapter: what it does to the ledger stands also when it raises. -/
def adapterCall (work : Work) (eventId : Text) : M Failure DeliveryResult := do
  modify fun w => { w with tables := { w.tables with
    deliveries := (answers.ledger work).move w.tables.deliveries } }
  ask answers (.deliver work)
  modify fun w => { w with answered := (eventId, answers.result work) :: w.answered }
  pure (answers.result work)

/-- `_deliver`; the destination is the one the adapter is given. -/
def deliver (work : Work) (event : RunEvent) (_ : Destination) (source : Source) :
    M Failure Outcome := do
  let result ← adapterCall answers work event.id
  record event.id result source

/-- `_deliver_command_reply`. -/
def deliverCommandReply (row : Delivery) (_ : Destination) : M Failure Outcome := do
  let work := .row row.destinationDigest row.eventId row.projectionVersion
  let result ← adapterCall answers work row.eventId
  modifyDrain fun d =>
    if result.delivered then { d with repliesDelivered := d.repliesDelivered + 1 } else d
  record row.eventId result .commandReply

/-- The body of `_resume` for one row of the ledger. -/
def resumeRow (bindings : List Binding) (row : Delivery) : M Failure (Option Outcome) := do
  let work := .row row.destinationDigest row.eventId row.projectionVersion
  if xhsDigestPrefix <+: row.eventId then
    pure none
  else
    match byDigest bindings row.destinationDigest with
    | none => do
        countUnroutable row.destinationDigest row.eventId
        pure none
    | some binding =>
        if commandReplyPrefix <+: row.eventId then do
          let outcome ← deliverCommandReply answers row binding.destination
          pure (some outcome)
        else do
          match ← getRunEvent answers work row.eventId with
          | none => do
              countUnroutable row.destinationDigest row.eventId
              pure none
          | some event => do
              let outcome ← deliver answers work event binding.destination .resumed
              pure (some outcome)

def resumeRows (bindings : List Binding) (deadline : Instant) :
    List Delivery → M Failure (List Outcome)
  | [] => pure []
  | row :: rows => do
      let now ← monotonic answers
        (.deadline (.row row.destinationDigest row.eventId row.projectionVersion))
      if deadline ≤ now then do
        modifyDrain fun d => { d with deadlineStops := d.deadlineStops + 1 }
        pure []
      else do
        let outcome ← resumeRow answers bindings row
        let outcomes ← resumeRows bindings deadline rows
        pure (outcome.toList ++ outcomes)

/-- `_resume`. -/
def resume (bindings : List Binding) (deadline : Instant) : M Failure (List Outcome) := do
  let rows ← pendingTransportDeliveries answers pendingLimit
  resumeRows answers bindings deadline rows

/-- `_not_before`. -/
def notBefore (work : Work) (outcome : Outcome) : M Failure Instant :=
  match outcome.retryAfterMs with
  | none => pure 0
  | some delay =>
      if delay ≤ 0 then pure 0
      else do
        let now ← monotonic answers (.notBefore work)
        pure (now + delay * 1000000)

/-- `_consider`: the read of the run is not guarded, the delivery is. -/
def consider (work : Work) (event : RunEvent) (bindings : List Binding) (source : Source) :
    M Failure (Option Outcome) :=
  if event.type ∉ notificationTypes then pure none
  else do
    match ← getRun answers work event.runId with
    | none => pure none
    | some run =>
        match byThread bindings run.threadId with
        | none => do
            modifyDrain fun d => { d with undeliverable := d.undeliverable.insert event.id }
            pure none
        | some destination => do
            match ← attempt (deliver answers work event destination source) with
            | .error _ => do
                failed
                remember event.id 0
                pure none
            | .ok outcome => do
                if outcome.retryable ∧ ¬outcome.delivered then do
                  let notBefore ← notBefore answers work outcome
                  remember event.id notBefore
                  pure (some outcome)
                else
                  pure (some outcome)

def rememberAll : List (Text × Instant) → M Failure Unit
  | [] => pure ()
  | (eventId, notBefore) :: rest => do
      remember eventId notBefore
      rememberAll rest

/-- The first loop of `_advance`, over what the last pass held back; it also says whether the
second loop is reached. -/
def walkRetries (bindings : List Binding) (deadline now : Instant) (skip : List Text) :
    List (Text × Instant) → M Failure (List Outcome × Bool)
  | [] => pure ([], true)
  | (eventId, notBefore) :: rest =>
      if eventId ∈ skip then
        walkRetries bindings deadline now skip rest
      else if now < notBefore then do
        remember eventId notBefore
        walkRetries bindings deadline now skip rest
      else do
        let instant ← monotonic answers (.deadline (.retry eventId))
        if deadline ≤ instant then do
          modifyDrain fun d => { d with deadlineStops := d.deadlineStops + 1 }
          rememberAll ((eventId, notBefore) :: rest)
          pure ([], false)
        else do
          match ← getRunEvent answers (.retry eventId) eventId with
          | none => walkRetries bindings deadline now skip rest
          | some event => do
              let outcome ← consider answers (.retry eventId) event bindings .retried
              modifyDrain fun d => { d with retried := d.retried + outcome.toList.length }
              let (outcomes, finished) ← walkRetries bindings deadline now skip rest
              pure (outcome.toList ++ outcomes, finished)

/-- The second loop of `_advance`: the cursor moves before the event is considered. -/
def walkEvents (bindings : List Binding) (deadline : Instant) :
    List RunEvent → M Failure (List Outcome)
  | [] => pure []
  | event :: rest => do
      let instant ← monotonic answers (.deadline (.new event.id))
      if deadline ≤ instant then do
        modifyDrain fun d => { d with deadlineStops := d.deadlineStops + 1 }
        pure []
      else do
        modifyDrain fun d => { d with cursor := event.cursor }
        let outcome ← consider answers (.new event.id) event bindings .new
        let outcomes ← walkEvents bindings deadline rest
        pure (outcome.toList ++ outcomes)

/-- `_advance`: the retry set is emptied into a local list before it is walked. -/
def advance (bindings : List Binding) (deadline : Instant) (skip : List Text) :
    M Failure (List Outcome) := do
  let w ← get
  let retries := w.drain.retry
  modifyDrain fun d => { d with retry := [] }
  let now ← monotonic answers .retriesStart
  let (retried, finished) ← walkRetries answers bindings deadline now skip retries
  if finished then do
    let w ← get
    let events ← listEvents answers w.drain.cursor w.drain.batch
    let new ← walkEvents answers bindings deadline events
    pure (retried ++ new)
  else
    pure retried

def xhsDigestEventId (runId : ℕ) : Text := xhsDigestPrefix ++ (toString runId).toList

/-- `_xhs_digest`: what it reads and sends is the digest's own. -/
def xhsDigest (runId : ℕ) : M Failure (Option Outcome) :=
  if answers.sendsDigest runId then do
    let result ← adapterCall answers (.digest runId) (xhsDigestEventId runId)
    let outcome ← record (xhsDigestEventId runId) result .xhsDigest
    pure (some outcome)
  else do
    ask answers (.deliver (.digest runId))
    pure none

def walkDigests (deadline : Instant) : List ℕ → M Failure (List Outcome)
  | [] => pure []
  | runId :: rest => do
      let instant ← monotonic answers (.deadline (.digest runId))
      if deadline ≤ instant then do
        modifyDrain fun d => { d with deadlineStops := d.deadlineStops + 1 }
        pure []
      else do
        match ← attempt (xhsDigest answers runId) with
        | .error _ => do
            failed
            walkDigests deadline rest
        | .ok outcome => do
            let outcomes ← walkDigests deadline rest
            pure (outcome.toList ++ outcomes)

/-- `_xhs_digests`. -/
def xhsDigests (deadline : Instant) : M Failure (List Outcome) := do
  match ← attempt (ask answers .pendingDigests) with
  | .error _ => do
      failed
      pure []
  | .ok _ => walkDigests answers deadline (answers.owedDigests.take xhsDigestLimit)

/-- `drain`. -/
def drain : M Failure (List Outcome) := do
  ask answers .resolved
  let bindings := answers.bindings
  let now ← monotonic answers .start
  let deadline := now + maxPassSeconds
  let resumed ← resume answers bindings deadline
  let advanced ← advance answers bindings deadline (resumed.map Outcome.eventId)
  let digests ← xhsDigests answers deadline
  pure (resumed ++ advanced ++ digests)

end Pass

end Cortex.Drain
