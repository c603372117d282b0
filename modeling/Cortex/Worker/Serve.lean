import Cortex.OperationLedger.Deaths

/-!
# The worker and its turns

Worker processes serve request lines one after the other, over one operation
ledger.  A turn runs in a thread of its own, which calls the runner, records the
outcome in the ledger and is then done.  A process may die at any time, also in
the middle of an append.

Requests are those that `parse_request` lets through; a line that it refuses is
answered as a violation of the protocol.
-/

namespace Cortex.Worker

open Control (Text)
open OperationLedger Transaction

/-! ## Requests and answers -/

/-- A `WorkerRequest` with its checked parameters; a transport call is `send` or `poll`. -/
inductive Request
  | shutdown
  | healthCheck
  | identityMeasure
  | operationBegin (operationId : OperationId) (kind : Kind) (requestDigest : Sha256)
  | operationFinish (operationId : OperationId) (outcome : Text) (resultDigest : Sha256)
  | operationStatus (operationId : OperationId)
  | turnBegin (operationId : OperationId) (requestDigest : Sha256)
  | turnResolve (operationId : OperationId)
  | turnCancel (operationId : OperationId)
  | telegramCapabilities
  | telegramCall

inductive ErrorCategory
  | protocolViolation | identityMismatch | ledgerUnavailable | operationConflict | notMeasured
  | turnUnknown
  deriving DecidableEq

inductive BeginState
  | accepted | duplicate
  deriving DecidableEq

inductive Answer
  | stopping
  | health (healthy ledgerOpen quarantined : Bool)
  | identity
  | state (state : BeginState)
  | finished (outcome : Text)
  | status (status : OperationStatus)
  | capabilities
  /-- The thread of the transport writes the reply. -/
  | submitted
  | delivered (delivered : Bool)
  | canceled
  | error (category : ErrorCategory)

/-! ## Processes -/

/-- How far the thread of a turn is. -/
inductive TurnPhase
  | running
  /-- The runner returned or raised. -/
  | returned
  /-- `ledger.finish` was called. -/
  | recorded
  | done
  deriving DecidableEq

structure Turn where
  operationId : OperationId
  phase : TurnPhase

/-- A worker process: its identity, and its turns, the latest first. -/
structure Process where
  identityOk : Bool
  measured : Bool
  turns : List Turn

/-- The ledger and the process that serves, if one does; its handle is the `ledger` of `serve`. -/
structure Machine where
  ledger : System
  process : Option Process

def Machine.initial : Machine := ⟨.initial, none⟩

/-- What an iteration of the loop reads: the clock, a new measurement of the identity, whether the
transport is free, and whether a decision reached its turn. -/
structure LineReadings where
  now : Monotonic
  measures : Bool
  transportFree : Bool
  delivered : Bool

/-- The kind that `_begin_turn` begins an operation with. -/
def turnKind : Kind := ⟨"turn".toList, by decide⟩

section Calls

variable (P : Platform)

/-- A call on the ledger, with the category of its error. -/
def ledgerCall (ledger : System) (call : Call) : Except ErrorCategory (System × Reply) :=
  match exec P ledger call with
  | .ok result => .ok result
  | .error (.conflict _) => .error .operationConflict
  | .error _ => .error .ledgerUnavailable

/-- The turn that is open: the latest one, unless it is done. -/
def Process.openTurn (p : Process) : Option Turn :=
  p.turns.head?.filter fun turn => turn.phase ≠ .done

/-- The checks before a method that needs the ledger. -/
def requireReady (s : Machine) (p : Process) : Except ErrorCategory Unit := do
  require (p.identityOk = true) .identityMismatch
  require (s.ledger.handle.isSome = true) .ledgerUnavailable
  require (p.measured = true) .notMeasured

/-- `_begin_turn`. -/
def beginTurn (s : Machine) (p : Process) (operationId : OperationId) (requestDigest : Sha256)
    (now : Monotonic) : Except ErrorCategory (Machine × BeginState) :=
  match p.openTurn with
  | some turn =>
      if turn.operationId = operationId then pure (s, .duplicate) else throw .operationConflict
  | none => do
      let (ledger, reply) ← ledgerCall P s.ledger
        (.begin operationId.val turnKind.val requestDigest.val now)
      let started := { p with turns := ⟨operationId, .running⟩ :: p.turns }
      match reply with
      | .duplicate => pure ({ s with ledger }, .duplicate)
      | _ => pure (⟨ledger, some started⟩, .accepted)

/-- `_require_open`. -/
def requireOpen (p : Process) (operationId : OperationId) : Except ErrorCategory Unit :=
  require (∃ turn ∈ p.turns.head?, turn.operationId = operationId) .turnUnknown

/-- The methods that need the ledger. -/
def serveReady (s : Machine) (p : Process) (readings : LineReadings) :
    Request → Except ErrorCategory (Machine × Answer)
  | .operationBegin operationId kind requestDigest => do
      let (ledger, reply) ← ledgerCall P s.ledger
        (.begin operationId.val kind.val requestDigest.val readings.now)
      match reply with
      | .duplicate => pure ({ s with ledger }, .state .duplicate)
      | _ => pure ({ s with ledger }, .state .accepted)
  | .operationFinish operationId outcome resultDigest => do
      let (ledger, _) ← ledgerCall P s.ledger
        (.finish operationId.val outcome resultDigest.val readings.now)
      pure ({ s with ledger }, .finished outcome)
  | .operationStatus operationId => do
      let (ledger, reply) ← ledgerCall P s.ledger (.status operationId.val)
      match reply with
      | .status status => pure ({ s with ledger }, .status status)
      | _ => throw .protocolViolation
  | .turnBegin operationId requestDigest => do
      let (s, state) ← beginTurn P s p operationId requestDigest readings.now
      pure (s, .state state)
  | .telegramCall => do
      require (readings.transportFree = true) .operationConflict
      pure (s, .submitted)
  | .turnResolve operationId => do
      requireOpen p operationId
      pure (s, .delivered readings.delivered)
  | .turnCancel operationId => do
      requireOpen p operationId
      pure (s, .canceled)
  | _ => pure (s, .capabilities)

/-- The process ends, and its threads with it. -/
def Machine.ended (s : Machine) : Machine :=
  ⟨{ s.ledger with handle := none }, none⟩

/-- `identity.measure`: a worker that once failed to measure stays unfit. -/
def measureIdentity (s : Machine) (p : Process) (measures : Bool) : Machine × Answer :=
  if p.identityOk = true ∧ measures = true then
    ({ s with process := some { p with measured := true } }, .identity)
  else
    let unfit := { p with identityOk := false, measured := p.measured && !p.identityOk }
    ({ s with process := some unfit }, .error .identityMismatch)

/-- One iteration of the loop of `serve`. -/
def serveLine (s : Machine) (p : Process) (readings : LineReadings) :
    Option Request → Machine × Answer
  | none => (s, .error .protocolViolation)
  | some .shutdown => (s.ended, .stopping)
  | some .healthCheck =>
      (s, .health (p.identityOk && s.ledger.handle.isSome) s.ledger.handle.isSome
        ((s.ledger.handle.map Handle.quarantined).getD false))
  | some .identityMeasure => measureIdentity s p readings.measures
  | some request =>
      match (do requireReady s p; serveReady P s p readings request) with
      | .ok result => result
      | .error category => (s, .error category)

/-! ## Deaths -/

/-- The call on the ledger that a request makes, as a death in its append. -/
def dyingCall (s : Machine) (p : Process) (now : Monotonic) (written : ℕ) :
    Request → Option Call
  | .operationBegin operationId kind requestDigest =>
      if (requireReady s p).isOk then
        some (.crashInBegin operationId.val kind.val requestDigest.val now written)
      else none
  | .operationFinish operationId outcome resultDigest =>
      if (requireReady s p).isOk then
        some (.crashInFinish operationId.val outcome resultDigest.val now written)
      else none
  | .turnBegin operationId requestDigest =>
      if (requireReady s p).isOk ∧ p.openTurn.isNone then
        some (.crashInBegin operationId.val turnKind.val requestDigest.val now written)
      else none
  | _ => none

/-- The process dies in a call on the ledger; whether the record is whole on the disk. -/
def diesIn (s : Machine) : Option Call → Machine × Bool
  | some call =>
      match exec P s.ledger call with
      | .ok (ledger, .crashed whole) => (⟨ledger, none⟩, whole)
      | _ => (s.ended, false)
  | none => (s.ended, false)

/-! ## Steps -/

inductive Action
  /-- A process starts, with its first measurement of the identity. -/
  | start (identityOk : Bool) (clock : ℕ → Monotonic)
  | startDies (clock : ℕ → Monotonic) (death : OpenDeath)
  | line (line : Option Request) (readings : LineReadings)
  | lineDies (request : Request) (now : Monotonic) (written : ℕ)
  /-- The steps of the thread of a turn, by its place among the turns. -/
  | runnerReturns (index : ℕ)
  | records (index : ℕ) (outcome resultDigest : Text) (now : Monotonic)
  | recordDies (index : ℕ) (outcome resultDigest : Text) (now : Monotonic) (written : ℕ)
  | turnDone (index : ℕ)
  | dies

inductive Effect
  | answered (answer : Answer)
  /-- The process died; whether the record it was appending is whole on the disk. -/
  | died (whole : Bool)
  | moved

/-- The thread of a turn goes on, if it is in this phase. -/
def Process.move (p : Process) (index : ℕ) (source target : TurnPhase) : Option Process :=
  match p.turns[index]? with
  | some turn =>
      if turn.phase = source then
        some { p with turns := p.turns.set index { turn with phase := target } }
      else none
  | none => none

/-- The operation of a turn in this phase. -/
def Process.inPhase (p : Process) (index : ℕ) (phase : TurnPhase) : Option OperationId :=
  (p.turns[index]?.filter fun turn => turn.phase = phase).map Turn.operationId

/-- The ledger after `finish`; an error is reported in the last frame of the turn. -/
def finishes (ledger : System) (call : Call) : System :=
  match exec P ledger call with
  | .ok (ledger, _) => ledger
  | .error _ => ledger

/-- One step; an error where the step cannot be made. -/
def step (s : Machine) (action : Action) : Except Unit (Machine × Effect) :=
  match action, s.process with
  | .start identityOk clock, none =>
      let process := some ⟨identityOk, false, []⟩
      if identityOk then
        match exec P s.ledger (.open clock) with
        | .ok (ledger, _) => pure (⟨ledger, process⟩, .moved)
        | .error _ => pure (⟨s.ledger, process⟩, .moved)
      else pure (⟨s.ledger, process⟩, .moved)
  | .startDies clock death, none =>
      pure (⟨⟨diesOpening P s.ledger.disk clock death, none⟩, none⟩, .died false)
  | .line line readings, some p =>
      let (s, answer) := serveLine P s p readings line
      pure (s, .answered answer)
  | .lineDies request now written, some p =>
      let (s, whole) := diesIn P s (dyingCall s p now written request)
      pure (s, .died whole)
  | .runnerReturns index, some p => do
      let p ← orRaise (p.move index .running .returned) ()
      pure ({ s with process := some p }, .moved)
  | .records index outcome resultDigest now, some p => do
      let operationId ← orRaise (p.inPhase index .returned) ()
      let p ← orRaise (p.move index .returned .recorded) ()
      pure (⟨finishes P s.ledger (.finish operationId.val outcome resultDigest now), some p⟩,
        .moved)
  | .recordDies index outcome resultDigest now written, some p => do
      let operationId ← orRaise (p.inPhase index .returned) ()
      let (s, _) := diesIn P s
        (some (.crashInFinish operationId.val outcome resultDigest now written))
      pure (s, .died false)
  | .turnDone index, some p => do
      let p ← orRaise (p.move index .recorded .done) ()
      pure ({ s with process := some p }, .moved)
  | .dies, some _ => pure (s.ended, .died false)
  | _, _ => throw ()

abbrev Step : Machine → Action × Effect → Machine → Prop :=
  Commits (step P)

end Calls

/-! ## What happened -/

abbrev Event := Action × Effect

/-- The operation that began, and the digest it began under; a request that died began it if its
record is whole. -/
def begun : Event → Option (Text × Text)
  | (.line (some (.operationBegin operationId _ digest)) _, .answered (.state .accepted)) =>
      some (operationId.val, digest.val)
  | (.line (some (.turnBegin operationId digest)) _, .answered (.state .accepted)) =>
      some (operationId.val, digest.val)
  | (.lineDies (.operationBegin operationId _ digest) _ _, .died true) =>
      some (operationId.val, digest.val)
  | (.lineDies (.turnBegin operationId digest) _ _, .died true) =>
      some (operationId.val, digest.val)
  | _ => none

/-- The operation began under the digest. -/
def BegunUnder (events : List Event) (operationId digest : Text) : Prop :=
  (operationId, digest) ∈ events.filterMap begun

/-- The event called the runner for the operation. -/
def callsRunner (operationId : Text) : Event → Bool
  | (.line (some (.turnBegin id _)) _, .answered (.state .accepted)) => id.val = operationId
  | _ => false

/-- The runner is being called for this turn. -/
def Turn.running (turn : Turn) : Bool := turn.phase = .running

end Cortex.Worker
