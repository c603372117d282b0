import Cortex.Runs.Requests

/-!
# Threads and their runs

The commands that create, rename and archive a thread, add a message to it, and
start a run on it.  A thread whose run is still active is not archived, and an
archived thread takes no message and no new run.
-/

namespace Cortex.Runs

open Control Time Transaction

namespace Ledger

variable (s : Ledger) (readings : Readings)

/-- The body of `create_thread`. -/
def createThread (workspaceId title : Text) (expectedRevision : ℤ) :
    Except StoreError (Ledger × Response) := do
  let revision ← orRaise (readings.workspaceRevision workspaceId) (.notFound "workspace")
  expectRevision revision expectedRevision
  let now := readings.stamp 0
  let row :=
    { id := readings.newId 0
      workspaceId, title
      status := .idle
      activeRunId := none
      archivedAt := none
      revision := 0
      createdAt := now
      updatedAt := now }
  let threads ← orRaise (s.threads.insert? row) .integrityError
  pure ({ s with threads }, .thread row)

/-- An update of a thread with `_update_revision`. -/
def updateThread (threadId : ℕ) (expectedRevision : ℤ) (now : Stamp) (change : Thread → Thread)
    (hchange : ∀ t, (change t).id = t.id := by intro; rfl) : Except StoreError Ledger := do
  let threads ← orRaise
    (s.threads.updateRow? threadId (fun t => (t.revision : ℤ) = expectedRevision)
      (fun t => { change t with revision := t.revision + 1, updatedAt := now }) hchange)
    .revisionConflict
  pure { s with threads }

/-- The body of `rename_thread`. -/
def renameThread (threadId : ℕ) (title : Text) (expectedRevision : ℤ) :
    Except StoreError (Ledger × Response) := do
  let thread ← s.thread threadId
  expectRevision thread.revision expectedRevision
  let s ← s.updateThread threadId expectedRevision (readings.stamp 0) fun t =>
    { t with title := title }
  let value ← s.thread threadId
  pure (s, .thread value)

/-- The body of `_set_thread_archived`. -/
def setThreadArchived (threadId : ℕ) (archived : Bool) (expectedRevision : ℤ) :
    Except StoreError (Ledger × Response) := do
  let thread ← s.thread threadId
  expectRevision thread.revision expectedRevision
  require (¬(archived = true ∧ thread.activeRunId.isSome = true)) .threadActiveRun
  -- Already in the requested state: a receipt, and no new revision.
  if thread.archivedAt.isSome = archived then pure (s, .thread thread)
  else do
    let now := readings.stamp 0
    let s ← s.updateThread threadId expectedRevision now fun t =>
      { t with archivedAt := if archived then some now else none }
    let value ← s.thread threadId
    pure (s, .thread value)

/-- `COALESCE(MAX(position), 0) + 1` over the messages of a thread. -/
def nextPosition (threadId : ℕ) : ℕ :=
  ((s.messages.rows.filter fun m => m.threadId = threadId).map Message.position).foldr max 0 + 1

/-- A new message at the end of a thread. -/
def insertMessage (threadId : ℕ) (role : MessageRole) (content : Text) (newId : ℕ)
    (now : Stamp) : Except StoreError (Ledger × Message) := do
  let row :=
    { id := newId
      threadId, role, content
      position := s.nextPosition threadId
      createdAt := now }
  let messages ← orRaise (s.messages.insert? row) .integrityError
  pure ({ s with messages }, row)

/-- The body of `append_message`. -/
def appendMessage (threadId : ℕ) (role : MessageRole) (content : Text) (expectedRevision : ℤ) :
    Except StoreError (Ledger × Response) := do
  let thread ← s.thread threadId
  expectRevision thread.revision expectedRevision
  require (thread.archivedAt = none) .threadArchived
  let now := readings.stamp 0
  let (s, message) ← s.insertMessage threadId role content (readings.newId 0) now
  let s ← s.updateThread threadId expectedRevision now id
  pure (s, .message message)

/-- A thread whose active run has not ended takes no other one. -/
def expectNoActiveRun (thread : Thread) : Except StoreError Unit :=
  match thread.activeRunId with
  | some activeRunId => do
      let active ← s.run activeRunId
      require active.state.isTerminal (.invalidTransition active.state.text "queued")
  | none => pure ()

/-- The body of `create_run`. -/
def createRun (threadId : ℕ) (expectedRevision : ℤ) : Except StoreError (Ledger × Response) := do
  let thread ← s.thread threadId
  expectRevision thread.revision expectedRevision
  require (thread.archivedAt = none) .threadArchived
  s.expectNoActiveRun thread
  let now := readings.stamp 0
  let attempt : Attempt :=
    { id := readings.newId 1
      runId := readings.newId 0
      number := 1
      state := .queued
      runtimeBindingId := none
      identity := none
      dispatchOwner := none
      dispatchExpiresAt := none
      checkpointUri := none
      sourceAttemptId := none
      sourceCheckpointUri := none
      startedAt := none
      finishedAt := none }
  let run : Run :=
    { id := readings.newId 0
      threadId
      state := .queued
      activeAttemptId := attempt.id
      stage := none
      revision := 0
      createdAt := now
      updatedAt := now }
  let runs ← orRaise (s.runs.insert? run) .integrityError
  let attempts ← orRaise (s.attempts.insert? attempt) .integrityError
  let s := { s with
    runs, attempts
    threads := s.threads.update (fun t => t.id = threadId ∧ (t.revision : ℤ) = expectedRevision)
      fun t =>
        { t with
          activeRunId := some run.id, status := .run .running
          revision := t.revision + 1, updatedAt := now } }
  pure (s, .runAttempt run attempt)

/-- The body of `create_runtime_binding`; a session reference and generation are bound once. -/
def createRuntimeBinding (threadId : ℕ) (adapterId runtimeSessionRef : Text) (generation : ℕ)
    (adapterVersion : Text) (parentRef : Option Text) : Except StoreError (Ledger × Response) := do
  let _ ← s.thread threadId
  let now := readings.stamp 0
  let row :=
    { id := readings.newId 0
      threadId, adapterId, runtimeSessionRef, generation, adapterVersion, parentRef
      createdAt := now
      updatedAt := now }
  require (∀ b ∈ s.bindings.rows,
      ¬(b.adapterId = adapterId ∧ b.runtimeSessionRef = runtimeSessionRef ∧
        b.generation = generation))
    .integrityError
  let bindings ← orRaise (s.bindings.insert? row) .integrityError
  pure ({ s with bindings }, .binding row)

end Ledger

section Commands

variable {Digest : Type} [DecidableEq Digest] (platform : Platform Digest)
  (s : Store Digest) (readings : Readings)

/-- `create_thread`. -/
def createThread (workspaceId title : Text) (expectedRevision : ℤ) (caller : Caller) :
    Except StoreError (Store Digest × CommandResult Response) := do
  let title ← requiredText title "title" 500
  ledgerCommand platform s caller (.createThread workspaceId) (.title title expectedRevision) 201
    (readings.clock 1) fun ledger =>
      ledger.createThread readings workspaceId title expectedRevision

/-- `rename_thread`. -/
def renameThread (threadId : ℕ) (title : Text) (expectedRevision : ℤ) (caller : Caller) :
    Except StoreError (Store Digest × CommandResult Response) := do
  let title ← requiredText title "title" 500
  ledgerCommand platform s caller (.renameThread threadId) (.title title expectedRevision) 200
    (readings.clock 1) fun ledger => ledger.renameThread readings threadId title expectedRevision

/-- `archive_thread`. -/
def archiveThread (threadId : ℕ) (expectedRevision : ℤ) (caller : Caller) :
    Except StoreError (Store Digest × CommandResult Response) :=
  ledgerCommand platform s caller (.archiveThread threadId) (.revision expectedRevision) 200
    (readings.clock 1) fun ledger =>
      ledger.setThreadArchived readings threadId true expectedRevision

/-- `unarchive_thread`. -/
def unarchiveThread (threadId : ℕ) (expectedRevision : ℤ) (caller : Caller) :
    Except StoreError (Store Digest × CommandResult Response) :=
  ledgerCommand platform s caller (.unarchiveThread threadId) (.revision expectedRevision) 200
    (readings.clock 1) fun ledger =>
      ledger.setThreadArchived readings threadId false expectedRevision

/-- `append_message`. -/
def appendMessage (threadId : ℕ) (role : MessageRole) (content : Text) (expectedRevision : ℤ)
    (caller : Caller) : Except StoreError (Store Digest × CommandResult Response) := do
  let content ← requiredText content "content" 1000000
  ledgerCommand platform s caller (.appendMessage threadId)
    (.message role content expectedRevision) 201 (readings.clock 1) fun ledger =>
      ledger.appendMessage readings threadId role content expectedRevision

/-- `create_run`; the workflow it may install has tables of its own. -/
def createRun (threadId : ℕ) (expectedRevision : ℤ) (workflow : Option (Text × ℕ))
    (caller : Caller) : Except StoreError (Store Digest × CommandResult Response) :=
  ledgerCommand platform s caller (.createRun threadId) (.createRun expectedRevision workflow) 201
    (readings.clock 1) fun ledger => ledger.createRun readings threadId expectedRevision

/-- `create_runtime_binding`. -/
def createRuntimeBinding (threadId : ℕ) (adapterId runtimeSessionRef : Text) (generation : ℤ)
    (adapterVersion : Text) (parentRef : Option Text) (caller : Caller) :
    Except StoreError (Store Digest × CommandResult Response) := do
  let adapterId ← requiredText adapterId "adapter_id" 100
  let runtimeSessionRef ← requiredText runtimeSessionRef "runtime_session_ref" 1000
  let adapterVersion ← requiredText adapterVersion "adapter_version" 100
  require (0 ≤ generation) (.valueError "generation must be a non-negative integer")
  ledgerCommand platform s caller (.createRuntimeBinding threadId)
    (.binding threadId adapterId runtimeSessionRef generation adapterVersion parentRef) 201
    (readings.clock 1) fun ledger =>
      ledger.createRuntimeBinding readings threadId adapterId runtimeSessionRef generation.toNat
        adapterVersion parentRef

end Commands

end Cortex.Runs
