import Cortex.Library.History
import Cortex.OperationLedger.Quarantine

/-!
# The operation ledger

`OperationLedger`: an append-only file, opened by one process at a time.  An
append reaches the disk before the operation returns, so the state between calls
is the disk and what the open handle remembers of it.  A process that dies while
`begin` or `finish` appends leaves any prefix of the bytes of that append.

Directory, lock and permission checks are the file system's and are left out; a
ledger file that does not exist yet is an empty one, which `open` creates.
-/

namespace Cortex.OperationLedger

open Control (Text)
open Transaction

structure Disk where
  ledger : Bytes
  sidecar : Option Bytes

/-- An open `OperationLedger`. -/
structure Handle where
  entries : Entries
  quarantined : Bool
  needsNewline : Bool

/-! ## Appending -/

/-- The bytes that `_append` writes. -/
def appendPayload (handle : Handle) (record : Written) : Bytes :=
  if handle.needsNewline then newline :: record.line else record.line

/-- `_append`. -/
def append (disk : Disk) (handle : Handle) (record : Written) : Disk × Handle :=
  ({ disk with ledger := disk.ledger ++ appendPayload handle record },
    { handle with needsNewline := false, entries := handle.entries.set record.entry })

/-! ## Opening -/

/-- An entry whose outcome is not known. -/
def Entry.uncertain (entry : Entry) : Entry :=
  { entry with
    phase := .uncertain
    resultDigest := none
    result_iff := by simp [Phase.final] }

/-- The loop at the end of `open`, over the entries that were replayed. -/
def recordUncertain (disk : Disk) (handle : Handle) (clock : ℕ → Monotonic) :
    List Entry → Disk × Handle
  | [] => (disk, handle)
  | entry :: entries =>
      if entry.phase = .inProgress then
        let (disk, handle) := append disk handle ⟨entry.uncertain, clock 0⟩
        recordUncertain disk handle (fun n => clock (n + 1)) entries
      else recordUncertain disk handle clock entries

variable (P : Platform)

/-- The disk after the sidecar was written and the fragment ended. -/
def quarantineFragment (disk : Disk) (offset : ℕ) (fragment : Bytes) : Disk :=
  { ledger := disk.ledger ++ [newline]
    sidecar := some (quarantineBytes P offset fragment) }

/-- What `open` replays. -/
def replayData (data : Bytes) (quarantine : Option Quarantine) : Except LedgerError Bytes :=
  match quarantine with
  | some quarantine => excludeQuarantine P data quarantine
  | none => .ok data

/-- `OperationLedger.open`. -/
def openLedger (disk : Disk) (clock : ℕ → Monotonic) : Except LedgerError (Disk × Handle) := do
  let quarantine ← loadQuarantine P disk.sidecar
  let data ← replayData P disk.ledger quarantine
  let replayed ← replay P data
  match replayed.torn with
  | some (offset, fragment) => do
      require (quarantine.isNone = true) (.unavailable "ledger contains a second torn fragment")
      pure (recordUncertain (quarantineFragment P disk offset fragment)
        { entries := replayed.entries, quarantined := true, needsNewline := false } clock
        replayed.entries.values)
  | none =>
      pure (recordUncertain disk
        { entries := replayed.entries
          quarantined := quarantine.isSome
          needsNewline := replayed.needsNewline } clock replayed.entries.values)

/-! ## Operations -/

/-- `_validate_identity`. -/
def validateIdentity (operationId kind requestDigest : Text) :
    Except LedgerError (OperationId × Kind × Sha256) := do
  let operationId ← orRaise (checked isOperationId operationId)
    (.conflict "operation identifier is invalid")
  let kind ← orRaise (checked isKind kind) (.conflict "operation kind is invalid")
  let requestDigest ← orRaise (checked isSha256 requestDigest)
    (.conflict "operation request digest is invalid")
  pure (operationId, kind, requestDigest)

/-- The entry that `begin` appends; none for a duplicate. -/
def beginEntry (entries : Entries) (operationId kind requestDigest : Text) :
    Except LedgerError (Option Entry) := do
  let (operationId, kind, requestDigest) ← validateIdentity operationId kind requestDigest
  match entries.get? operationId.val with
  | some existing => do
      require (existing.requestDigest = requestDigest)
        (.conflict "operation identifier has a different request digest")
      pure none
  | none =>
      pure (some
        { operationId, kind, requestDigest
          phase := .inProgress
          resultDigest := none
          result_iff := by simp [Phase.final] })

/-- The outcomes that `finish` takes. -/
def outcomeOf (outcome : Text) : Option {phase : Phase // phase.final} :=
  if outcome = "committed".toList then some ⟨.committed, .inl rfl⟩
  else if outcome = "failed".toList then some ⟨.failed, .inr rfl⟩
  else none

/-- The entry that `finish` appends. -/
def finishEntry (entries : Entries) (operationId outcome resultDigest : Text) :
    Except LedgerError Entry := do
  let outcome ← orRaise (outcomeOf outcome) (.conflict "operation outcome is invalid")
  let resultDigest ← orRaise (checked isSha256 resultDigest)
    (.conflict "operation result digest is invalid")
  let existing ← orRaise (entries.get? operationId) (.conflict "operation is not finishable")
  require (existing.phase = .inProgress ∨ existing.phase = .uncertain)
    (.conflict "operation is not finishable")
  pure
    { existing with
      phase := outcome.val
      resultDigest := some resultDigest
      result_iff := by simp [outcome.property] }

/-- `OperationStatus`; the state `none` is `"unknown"`. -/
@[ext] structure OperationStatus where
  state : Option Phase
  requestDigest : Option Text
  resultDigest : Option Text
  deriving DecidableEq

def OperationStatus.unknown : OperationStatus := ⟨none, none, none⟩

def Entry.status (entry : Entry) : OperationStatus :=
  ⟨some entry.phase, some entry.requestDigest.val, entry.resultDigest.map Subtype.val⟩

/-- `status`. -/
def status (entries : Entries) (operationId : Text) : OperationStatus :=
  match entries.get? operationId with
  | some entry => entry.status
  | none => .unknown

/-! ## Calls -/

/-- The disk, and the ledger when a process has it open. -/
structure System where
  disk : Disk
  handle : Option Handle

def System.initial : System := ⟨⟨[], none⟩, none⟩

/-- The methods of the ledger, and the deaths of the process in one of them, `written` bytes
into its append. -/
inductive Call
  | «open» (clock : ℕ → Monotonic)
  | begin (operationId kind requestDigest : Text) (now : Monotonic)
  | finish (operationId outcome resultDigest : Text) (now : Monotonic)
  | status (operationId : Text)
  | close
  | crashInBegin (operationId kind requestDigest : Text) (now : Monotonic) (written : ℕ)
  | crashInFinish (operationId outcome resultDigest : Text) (now : Monotonic) (written : ℕ)

inductive Reply
  | opened
  | accepted
  | duplicate
  | finished
  | status (status : OperationStatus)
  | closed
  /-- The process died; whether the record it was appending is whole on the disk. -/
  | crashed (whole : Bool)

/-- The process dies `written` bytes into an append. -/
def crash (s : System) (handle : Handle) (record : Written) (written : ℕ) : System × Reply :=
  ({ disk := { s.disk with ledger := s.disk.ledger ++ (appendPayload handle record).take written }
     handle := none },
    .crashed ((appendPayload handle record).length ≤ written + 1))

def perform (s : System) (handle : Handle) (record : Written) (reply : Reply) : System × Reply :=
  let (disk, handle) := append s.disk handle record
  ({ disk, handle := some handle }, reply)

/-- A call on the ledger; on an error the state is what it was. -/
def exec (s : System) : Call → Except LedgerError (System × Reply)
  | .open clock => do
      require (s.handle.isNone = true)
        (.unavailable "operation ledger is owned by another process")
      let (disk, handle) ← openLedger P s.disk clock
      pure ({ disk, handle := some handle }, .opened)
  | .begin operationId kind requestDigest now => do
      let handle ← orRaise s.handle (.unavailable "operation ledger is closed")
      match ← beginEntry handle.entries operationId kind requestDigest with
      | some entry => pure (perform s handle ⟨entry, now⟩ .accepted)
      | none => pure (s, .duplicate)
  | .finish operationId outcome resultDigest now => do
      let handle ← orRaise s.handle (.unavailable "operation ledger is closed")
      let entry ← finishEntry handle.entries operationId outcome resultDigest
      pure (perform s handle ⟨entry, now⟩ .finished)
  | .status operationId => do
      let handle ← orRaise s.handle (.unavailable "operation ledger is closed")
      pure (s, .status (status handle.entries operationId))
  | .close => pure ({ s with handle := none }, .closed)
  | .crashInBegin operationId kind requestDigest now written => do
      let handle ← orRaise s.handle (.unavailable "operation ledger is closed")
      match ← beginEntry handle.entries operationId kind requestDigest with
      | some entry => pure (crash s handle ⟨entry, now⟩ written)
      | none => pure ({ s with handle := none }, .crashed false)
  | .crashInFinish operationId outcome resultDigest now written => do
      let handle ← orRaise s.handle (.unavailable "operation ledger is closed")
      let entry ← finishEntry handle.entries operationId outcome resultDigest
      pure (crash s handle ⟨entry, now⟩ written)

attribute [grind =] exec

/-- Whether the process died in the call. -/
def Call.isCrash : Call → Bool
  | .crashInBegin .. => true
  | .crashInFinish .. => true
  | _ => false

def crashes (events : List (Call × Reply)) : ℕ := events.countP fun event => event.1.isCrash

end Cortex.OperationLedger
