import Cortex.Fallback.Runs
import Cortex.Library.History
import Cortex.Library.Keyset

/-!
# The queue of XHS tasks

A row of `xhs_tasks` is leased to a worker by `claim_xhs_task`, and the worker
records a result or a failure, or gives the lease back.  The revision that the
claim returned is its only token.  What a result or a failure means for the rows
that the task works on is left to `Handlers`: they see the tables and answer with
the new rows and with the tasks that they create, reset or fail.

`Queue` keeps, besides the tables, what was done to which task and which failures
the rows were told of, so that a theorem can speak about them.
-/

namespace Cortex.Feed

open Control Time Transaction
open Fallback (TaskState jsonText dueAgain isFailureCategory isRetryableFailure)

inductive TaskKind
  | listPage | detail | download | ocr | identify | resolve | save | blogImport | captureLink
  deriving DecidableEq

/-- `XHS_TASK_KINDS`: the prefix of the subject keys of a kind. -/
def TaskKind.keyPrefix : TaskKind → Text
  | listPage => "scan:".toList
  | detail => "detail:".toList
  | download => "download:".toList
  | ocr => "ocr:".toList
  | identify => "identify:".toList
  | resolve => "resolve:".toList
  | save => "save:".toList
  | blogImport => "blog:".toList
  | captureLink => "capture:".toList

def TaskKind.all : List TaskKind :=
  [listPage, detail, download, ocr, identify, resolve, save, blogImport, captureLink]

/-- A row of `xhs_tasks`. -/
structure Task where
  id : ℕ
  kind : TaskKind
  subjectKey : Text
  payload : Text
  state : TaskState
  attempts : ℕ
  nextAttemptAt : Stamp
  leaseUntil : Option Stamp
  lastError : Option Text
  result : Option Text
  revision : ℕ
  createdAt : Stamp
  deriving DecidableEq

instance : Keyed Task ℕ := ⟨Task.id⟩

/-- The row changed by an update, with its next revision. -/
def Task.revised (f : Task → Task) (t : Task) : Task :=
  { f t with id := t.id, revision := t.revision + 1 }

theorem Task.key_revised (f : Task → Task) (t : Task) :
    Keyed.key (t.revised f) = Keyed.key t := rfl

/-- `XHS_RETRY_BACKOFF_SECONDS` -/
def retryBackoffSeconds : List ℕ := [600, 3600, 21600]

def jsonMaxBytes : ℕ := 65536

def outcomeUnknown : Text := "outcome_unknown".toList

/-- `_SUBJECT_KEY_RE` -/
def isSubjectKey (key : Text) : Bool :=
  match key.span fun c => c.isLower || c == '_' with
  | (_ :: _, ':' :: rest) =>
      1 ≤ rest.length ∧ rest.length ≤ 290 ∧ rest.all fun c => 0x21 ≤ c.toNat ∧ c.toNat ≤ 0x7e
  | _ => false

/-- What is done to the row of a task; a claim is named by the revision that it returns. -/
inductive Act
  | created
  | claimed (revision : ℕ)
  | released
  | completed
  | backedOff
  | failed
  /-- Failed by a claim, its last lease lost. -/
  | expired
  /-- Failed while pending, with nothing to fetch. -/
  | dropped
  | reset
  deriving DecidableEq

/-- The tables, with what was done to each task and the failures the rows were told of, the
latest first. -/
structure Queue (ρ : Type) where
  tasks : Table Task
  rows : ρ
  log : List (ℕ × Act)
  told : List (Task × Text)

namespace Queue

variable {ρ : Type}

/-- What was done to a task, the latest first. -/
def acts (q : Queue ρ) (id : ℕ) : List Act := (q.log.filter fun entry => entry.1 = id).map Prod.snd

/-- `UPDATE xhs_tasks SET … , revision = revision + 1 WHERE id = ?` -/
def put (q : Queue ρ) (id : ℕ) (f : Task → Task) (act : Act) : Queue ρ :=
  { q with
    tasks := q.tasks.update (fun t => t.id = id) (Task.revised f) (Task.key_revised f)
    log := (id, act) :: q.log }

/-- `_xhs_task` -/
def task (q : Queue ρ) (id : ℕ) : Except StoreError Task :=
  orRaise (q.tasks.get? id) (.notFound "xhs task")

/-! ## Creating and resetting -/

/-- `SELECT … WHERE subject_key = ?` -/
def bySubject (q : Queue ρ) (subjectKey : Text) : Option Task :=
  q.tasks.rows.find? fun t => t.subjectKey = subjectKey

/-- `_xhs_create_task`: a repeat returns the first task, unchanged. -/
def createTask (q : Queue ρ) (id : ℕ) (kind : TaskKind) (subjectKey payload : Text) (now : Stamp) :
    Except StoreError (Queue ρ × Task × Bool) := do
  require (isSubjectKey subjectKey = true ∧ kind.keyPrefix <+: subjectKey)
    (.valueError "xhs task subject key is invalid")
  let payload ← jsonText payload "xhs task payload" jsonMaxBytes
  match q.bySubject subjectKey with
  | some task => pure (q, task, false)
  | none => do
      let task : Task :=
        { id, kind, subjectKey, payload, state := .pending, attempts := 0, nextAttemptAt := now
          leaseUntil := none, lastError := none, result := none, revision := 0, createdAt := now }
      let tasks ← orRaise (q.tasks.insert? task) .integrityError
      pure ({ q with tasks, log := (id, .created) :: q.log }, task, true)

/-- `_xhs_reset_task` -/
def resetTask (q : Queue ρ) (subjectKey : Text) (payload : Option Text) (now : Stamp) :
    Except StoreError (Queue ρ) := do
  let task ← orRaise (q.bySubject subjectKey) (.notFound "xhs task")
  require (task.state ≠ .running) (.invalidTransition "running" "pending")
  if task.state = .pending ∧ payload = none then
    pure q
  else do
    let payload ← payload.elim (pure task.payload) fun payload =>
      jsonText payload "xhs task payload" jsonMaxBytes
    pure (q.put task.id
      (fun t => { t with
        state := .pending, attempts := 0, nextAttemptAt := now, leaseUntil := none
        lastError := none, result := none, payload })
      .reset)

/-- `_xhs_apply_detail` fails the download of an image without a URL, if it is pending. -/
def dropTask (q : Queue ρ) (id : ℕ) : Queue ρ :=
  if q.tasks.rows.any fun t => t.id = id ∧ t.state = .pending then
    q.put id
      (fun t => { t with state := .failed, lastError := some "invalid_response".toList })
      .dropped
  else q

/-! ## What the rows make of a result or a failure -/

end Queue

/-- What a handler does to the tasks. -/
inductive Write
  | create (id : ℕ) (kind : TaskKind) (subjectKey payload : Text) (now : Stamp)
  | reset (subjectKey : Text) (payload : Option Text) (now : Stamp)
  | drop (id : ℕ)

/-- The rows that tasks work on: what a checked answer does to them and its summary, what a
failure does to them (`_xhs_apply_failure`), and the refund of a provider's call. -/
structure Handlers (ρ : Type) where
  applyResult : Table Task → ρ → Task → Text → Except StoreError (List Write × ρ × Text)
  applyFailure : Table Task → ρ → Task → Text → Except StoreError (List Write × ρ)
  refundUsage : ρ → Text → Option Text → Except StoreError ρ

namespace Queue

variable {ρ : Type} (handlers : Handlers ρ)

def write (q : Queue ρ) : Write → Except StoreError (Queue ρ)
  | .create id kind subjectKey payload now => do
      let (q, _, _) ← q.createTask id kind subjectKey payload now
      pure q
  | .reset subjectKey payload now => q.resetTask subjectKey payload now
  | .drop id => pure (q.dropTask id)

def writeAll (q : Queue ρ) (writes : List Write) : Except StoreError (Queue ρ) :=
  writes.foldlM write q

/-- `_xhs_apply_failure` -/
def tell (q : Queue ρ) (task : Task) (category : Text) : Except StoreError (Queue ρ) := do
  let (writes, rows) ← handlers.applyFailure q.tasks q.rows task category
  let q ← { q with rows }.writeAll writes
  pure { q with told := (task, category) :: q.told }

/-! ## The lease owner's records -/

/-- `_xhs_running_task` -/
def runningTask (q : Queue ρ) (id : ℕ) (expectedRevision : ℤ) (target : String) :
    Except StoreError Task := do
  let task ← q.task id
  expectRevision task.revision expectedRevision
  require (task.state = .running) (.invalidTransition "state" target)
  pure task

/-- `_xhs_task_transition` -/
def taskTransition (q : Queue ρ) (id : ℕ) (expectedRevision : ℤ) (state : TaskState)
    (nextAttemptAt : Option Stamp) (lastError result : Option Text) (act : Act) :
    Except StoreError (Queue ρ × Task) := do
  require (∃ t ∈ q.tasks.rows, t.id = id ∧ (t.revision : ℤ) = expectedRevision ∧
    t.state = .running) .revisionConflict
  let q := q.put id
    (fun t => { t with
      state, leaseUntil := none, nextAttemptAt := nextAttemptAt.getD t.nextAttemptAt, lastError
      result })
    act
  let task ← q.task id
  pure (q, task)

/-- `_xhs_complete_task` -/
def completeTask (q : Queue ρ) (id : ℕ) (expectedRevision : ℤ) (result : Text) :
    Except StoreError (Queue ρ × Task) := do
  let result ← jsonText result "xhs task result" jsonMaxBytes
  let _ ← q.runningTask id expectedRevision "done"
  q.taskTransition id expectedRevision .done none none (some result) .completed

/-- `_xhs_fail_task`: a retryable failure backs off, after the third retry it is final. -/
def failTask (q : Queue ρ) (id : ℕ) (expectedRevision : ℤ) (category : Text) (now : Civil) :
    Except StoreError (Queue ρ × Task) := do
  require (isFailureCategory category = true) (.valueError "failure category is unsupported")
  let task ← q.runningTask id expectedRevision "failed"
  match if isRetryableFailure category then retryBackoffSeconds[task.attempts - 1]? else none with
  | some seconds => do
      let next ← orRaise (now.addSeconds seconds) .overflowError
      q.taskTransition id expectedRevision .pending (some (formatRegistryTime next))
        (some category) none .backedOff
  | none => q.taskTransition id expectedRevision .failed none (some category) none .failed

/-- `release_xhs_task` -/
def releaseTask (q : Queue ρ) (id : ℕ) (expectedRevision : ℤ) (notBefore : Option Text)
    (delaySeconds : Option ℤ) (now : Civil) : Except StoreError (Queue ρ) := do
  let task ← q.runningTask id expectedRevision "pending"
  require (∀ delay ∈ delaySeconds, 1 ≤ delay ∧ delay ≤ 86400)
    (.valueError "delay_seconds is invalid")
  let nextAttemptAt ← dueAgain now notBefore delaySeconds
  pure (q.put id
    (fun t => { t with
      state := .pending, leaseUntil := none, nextAttemptAt, attempts := task.attempts - 1 })
    .released)

/-- `record_xhs_task_result`: the answer is applied and the task completed, together. -/
def recordResult (q : Queue ρ) (id : ℕ) (expectedRevision : ℤ) (result : Text) :
    Except StoreError (Queue ρ × Task) := do
  let task ← q.runningTask id expectedRevision "done"
  let (writes, rows, summary) ← handlers.applyResult q.tasks q.rows task result
  let q ← { q with rows }.writeAll writes
  q.completeTask id expectedRevision summary

/-- `record_xhs_task_failure` -/
def recordFailure (q : Queue ρ) (id : ℕ) (expectedRevision : ℤ) (category : Text)
    (refund : Option (Text × Option Text)) (now : Civil) : Except StoreError (Queue ρ × Task) := do
  let (q, task) ← q.failTask id expectedRevision category now
  let q ← q.tell handlers task category
  match refund with
  | none => pure (q, task)
  | some (provider, day) => do
      let rows ← handlers.refundUsage q.rows provider day
      pure ({ q with rows }, task)

/-! ## Claims -/

end Queue

/-- The place of a task under `ORDER BY created_at, id`. -/
def Task.place (t : Task) : Stamp ×ₗ ℕ := toLex (t.createdAt, t.id)

/-- A task of these kinds that is due, or whose lease has expired. -/
def Task.IsDue (kinds : List TaskKind) (now : Stamp) (t : Task) : Prop :=
  t.kind ∈ kinds ∧ ((t.state = .pending ∧ t.nextAttemptAt ≤ now) ∨
    (t.state = .running ∧ (t.leaseUntil.any fun lease => decide (lease ≤ now)) = true))

/-- The task has lost its lease, and no attempt is left. -/
def Task.IsSpent (kinds : List TaskKind) (now : Stamp) (t : Task) : Prop :=
  t.IsDue kinds now ∧ t.state = .running ∧ retryBackoffSeconds.length < t.attempts

instance (kinds : List TaskKind) (now : Stamp) (t : Task) : Decidable (t.IsDue kinds now) := by
  unfold Task.IsDue
  infer_instance

instance (kinds : List TaskKind) (now : Stamp) (t : Task) : Decidable (t.IsSpent kinds now) := by
  unfold Task.IsSpent
  infer_instance

def Task.giveUp (t : Task) : Task :=
  { t with state := .failed, leaseUntil := none, lastError := some outcomeUnknown }

/-- The row of a task that a claim gave up. -/
def Task.expired (t : Task) : Task := t.revised Task.giveUp

namespace Queue

variable {ρ : Type} (handlers : Handlers ρ)

def dueTask (q : Queue ρ) (kinds : List TaskKind) (now : Stamp) : Option Task :=
  (Keyset.orderBy Task.place (q.tasks.rows.filter fun t => t.IsDue kinds now)).head?

/-- The tasks that a claim has still to give up. -/
def spent (q : Queue ρ) (kinds : List TaskKind) (now : Stamp) : ℕ :=
  q.tasks.rows.countP fun t => t.IsSpent kinds now

/-- A turn of the loop that gives a task up. -/
def expireTask (q : Queue ρ) (t : Task) : Except StoreError (Queue ρ) := do
  let q := q.put t.id Task.giveUp .expired
  let task ← q.task t.id
  q.tell handlers task outcomeUnknown

/-- The last turn of the loop. -/
def leaseTask (q : Queue ρ) (t : Task) (nowValue : Civil) (leaseSeconds : ℕ) :
    Except StoreError (Queue ρ × Option Task) := do
  let lease ← orRaise (nowValue.addSeconds leaseSeconds) .overflowError
  let q := q.put t.id
    (fun t => { t with
      state := .running, leaseUntil := some (formatRegistryTime lease)
      attempts := t.attempts + 1 })
    (.claimed (t.revision + 1))
  let task ← q.task t.id
  pure (q, some task)

/-- The loop of `claim_xhs_task`; nothing where the fuel does not reach its end. -/
def claimLoop (kinds : List TaskKind) (nowValue : Civil) (leaseSeconds : ℕ) :
    ℕ → Queue ρ → Option (Except StoreError (Queue ρ × Option Task))
  | 0, _ => none
  | fuel + 1, q =>
      match q.dueTask kinds (formatRegistryTime nowValue) with
      | none => some (pure (q, none))
      | some t =>
          if t.state = .running ∧ retryBackoffSeconds.length < t.attempts then
            match q.expireTask handlers t with
            | .error error => some (.error error)
            | .ok q => claimLoop kinds nowValue leaseSeconds fuel q
          else some (q.leaseTask t nowValue leaseSeconds)

/-- `claim_xhs_task`; every turn but the last gives a task up. -/
def claimTask (q : Queue ρ) (leaseSeconds : ℤ) (kinds : Option (List TaskKind)) (nowValue : Civil) :
    Except StoreError (Queue ρ × Option Task) := do
  require (1 ≤ leaseSeconds ∧ leaseSeconds ≤ 86400)
    (.valueError "lease_seconds must be between 1 and 86400")
  let selected := kinds.getD TaskKind.all
  require (selected ≠ []) (.valueError "xhs task kinds are invalid")
  (claimLoop handlers selected nowValue leaseSeconds.toNat (q.tasks.rows.length + 1) q).getD
    (throw (.runtimeError "the loop has not ended"))

end Queue

/-! ## Commands -/

inductive Command (ρ : Type)
  | claim (leaseSeconds : ℤ) (kinds : Option (List TaskKind)) (now : Civil)
  | release (id : ℕ) (expectedRevision : ℤ) (notBefore : Option Text) (delaySeconds : Option ℤ)
      (now : Civil)
  | complete (id : ℕ) (expectedRevision : ℤ) (result : Text)
  | fail (id : ℕ) (expectedRevision : ℤ) (category : Text) (now : Civil)
  | recordResult (id : ℕ) (expectedRevision : ℤ) (result : Text)
  | recordFailure (id : ℕ) (expectedRevision : ℤ) (category : Text)
      (refund : Option (Text × Option Text)) (now : Civil)
  /-- What any other command of the store does to the tasks and to the rows. -/
  | other (writes : List Write) (rows : ρ)

/-- The task and the token of a lease owner's command. -/
def Command.lease {ρ : Type} : Command ρ → Option (ℕ × ℤ)
  | release id expectedRevision _ _ _ => some (id, expectedRevision)
  | complete id expectedRevision _ => some (id, expectedRevision)
  | fail id expectedRevision _ _ => some (id, expectedRevision)
  | recordResult id expectedRevision _ => some (id, expectedRevision)
  | recordFailure id expectedRevision _ _ _ => some (id, expectedRevision)
  | claim .. | other .. => none

section Perform

variable {ρ : Type} (handlers : Handlers ρ)

/-- Perform a command; a claim answers with the task that it leased. -/
def perform (q : Queue ρ) : Command ρ → Except StoreError (Queue ρ × Option Task)
  | .claim leaseSeconds kinds now => q.claimTask handlers leaseSeconds kinds now
  | .release id expectedRevision notBefore delaySeconds now => do
      let q ← q.releaseTask id expectedRevision notBefore delaySeconds now
      pure (q, none)
  | .complete id expectedRevision result => do
      let (q, _) ← q.completeTask id expectedRevision result
      pure (q, none)
  | .fail id expectedRevision category now => do
      let (q, _) ← q.failTask id expectedRevision category now
      pure (q, none)
  | .recordResult id expectedRevision result => do
      let (q, _) ← q.recordResult handlers id expectedRevision result
      pure (q, none)
  | .recordFailure id expectedRevision category refund now => do
      let (q, _) ← q.recordFailure handlers id expectedRevision category refund now
      pure (q, none)
  | .other writes rows => do
      let q ← { q with rows }.writeAll writes
      pure (q, none)

/-- A committed command. -/
def Step : Queue ρ → Command ρ × Option Task → Queue ρ → Prop := Commits (perform handlers)

end Perform

/-- The store before the first task. -/
def Queue.new {ρ : Type} (rows : ρ) : Queue ρ where
  tasks := .empty
  rows := rows
  log := []
  told := []

end Cortex.Feed
