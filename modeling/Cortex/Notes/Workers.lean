import Cortex.Notes.Stages

/-!
# Leases

What a worker does to a task that it has claimed, or that it claims: the task waits or runs as
before, ends with an answer, or fails.  A handler may also find that there is nothing to do, and
record it later in its lease.
-/

namespace Cortex.Notes

open Control Time Transaction
open Fallback (NoteState TaskState isFailureCategory isRetryableFailure)

variable {Digest : Type} [DecidableEq Digest]

namespace Folder

/-- `_xhs_running_task`: the revision that a worker holds is that of its claim. -/
def runningTask (f : Folder Digest) (k : Subject Digest) : Except StoreError (Task Digest) := do
  let task ← orRaise (f.tasks.get? k) (.notFound "xhs task")
  require (task.state = .running) (.invalidTransition "state" "done")
  pure task

/-- `claim_xhs_task` of a task that is due, or whose lease has expired with attempts left. -/
def claimTask (f : Folder Digest) (k : Subject Digest) (now : Stamp) :
    Except StoreError (Folder Digest) := do
  let task ← orRaise (f.tasks.get? k) (.notFound "xhs task")
  require (task.state = .pending ∧ task.nextAttemptAt ≤ now ∨
    task.state = .running ∧ task.attempts ≤ Feed.retryBackoffSeconds.length)
    (.invalidTransition "state" "running")
  let f := f.updateTask k fun task => { task with
    state := .running, attempts := task.attempts + 1 }
  -- an answer to an earlier claim is refused from here on
  pure { f with idle := f.idle.filter fun other => other ≠ k }

/-- `release_xhs_task` -/
def releaseTask (f : Folder Digest) (k : Subject Digest) (nextAttemptAt : Stamp) :
    Except StoreError (Folder Digest) := do
  let _ ← f.runningTask k
  pure (f.updateTask k fun task => { task with
    state := .pending, attempts := task.attempts - 1, nextAttemptAt })

/-- `_xhs_complete_task` -/
def completeTask (f : Folder Digest) (k : Subject Digest) (answer : Answer) :
    Except StoreError (Folder Digest) := do
  let _ ← f.runningTask k
  pure (f.updateTask k fun task => { task with
    state := .done, lastError := none, answer := some answer })

variable (identifyDigest : Text → List (ℕ × Text) → Digest)

/-- `claim_xhs_task` of a task whose lease has expired without an attempt left. -/
def expireTask (f : Folder Digest) (k : Subject Digest) (now : Stamp) :
    Except StoreError (Folder Digest) := do
  let task ← f.runningTask k
  require (Feed.retryBackoffSeconds.length < task.attempts) (.invalidTransition "state" "failed")
  (f.updateTask k fun task => { task with
    state := .failed, lastError := some Feed.outcomeUnknown }).applyFailure
      identifyDigest k Feed.outcomeUnknown now

/-- `record_xhs_task_failure` -/
def failTask (f : Folder Digest) (k : Subject Digest) (category : Text)
    (nextAttemptAt now : Stamp) : Except StoreError (Folder Digest) := do
  require (isFailureCategory category = true) (.valueError "failure category is unsupported")
  let task ← f.runningTask k
  if isRetryableFailure category ∧ task.attempts - 1 < Feed.retryBackoffSeconds.length then
    pure (f.updateTask k fun task => { task with
      state := .pending, lastError := some category, answer := none, nextAttemptAt })
  else
    (f.updateTask k fun task => { task with
      state := .failed, lastError := some category, answer := none }).applyFailure
        identifyDigest k category now

/-! ## Nothing to do -/

/-- The handler's `prepare` answers that there is nothing to do. -/
def nothingToDo (f : Folder Digest) : Subject Digest → Except StoreError Bool
  | .detail =>
      if f.note.state = .discovered then pure false
      else do
        let waiting ← f.awaitingRefresh
        pure (waiting = [])
  | .download ordinal => do
      let image ← f.image ordinal
      pure (image.downloadState ≠ .pending)
  | .ocr ordinal sha256 => do
      let image ← f.image ordinal
      pure (image.downloadState ≠ .ok ∨ image.sha256 ≠ some sha256 ∨ image.ocrState ≠ .pending)
  | .identify input =>
      pure (f.note.state ≠ .ocrDone ∨ input ≠ f.identifyInput identifyDigest)
  | .save version =>
      pure ((f.note.state ≠ .identified ∧ f.note.state ≠ .saved) ∨
        version ≤ f.note.contentVersion)

/-- A worker finds nothing to do, or that its identification was for another input. -/
def findNothing (f : Folder Digest) (k : Subject Digest) : Except StoreError (Folder Digest) := do
  let _ ← f.runningTask k
  let nothing ← f.nothingToDo identifyDigest k
  require (nothing = true) .revisionConflict
  pure { f with idle := k :: f.idle }

/-- `XhsDrain._skip` -/
def skipTask (f : Folder Digest) (k : Subject Digest) : Except StoreError (Folder Digest) := do
  require (k ∈ f.idle) .revisionConflict
  f.completeTask k .skipped

/-! ## Answers -/

/-- `record_xhs_task_result` of a detail -/
def recordDetail (f : Folder Digest) (detail : Detail) (now : Stamp) :
    Except StoreError (Folder Digest) := do
  let _ ← f.runningTask .detail
  let f ← f.applyDetail identifyDigest detail now
  f.completeTask .detail .applied

/-- `record_xhs_task_result` of a download -/
def recordDownload (f : Folder Digest) (ordinal : ℕ) (sha256 : Text) (now : Stamp) :
    Except StoreError (Folder Digest) := do
  let _ ← f.runningTask (.download ordinal)
  let f ← f.applyDownload identifyDigest ordinal sha256 now
  f.completeTask (.download ordinal) .applied

/-- `record_xhs_task_result` of a transcription -/
def recordOcr (f : Folder Digest) (ordinal : ℕ) (sha256 text : Text) (now : Stamp) :
    Except StoreError (Folder Digest) := do
  let _ ← f.runningTask (.ocr ordinal sha256)
  let (f, answer) ← f.applyOcr identifyDigest ordinal sha256 text now
  f.completeTask (.ocr ordinal sha256) answer

/-- `record_xhs_task_result` of an identification; `stale` is what `IdentifyHandler.finish`
answers where the note had another input. -/
def recordIdentify (f : Folder Digest) (input : Digest) (stale : Bool) (now : Stamp) :
    Except StoreError (Folder Digest) := do
  let _ ← f.runningTask (.identify input)
  require (stale = true → .identify input ∈ f.idle) .revisionConflict
  let (f, answer) ← f.applyIdentify identifyDigest input stale now
  f.completeTask (.identify input) answer

/-- `record_xhs_task_result` of a save -/
def recordSave (f : Folder Digest) (version : ℕ) (tree : Text) (rootEnabled changed : Bool)
    (now : Stamp) : Except StoreError (Folder Digest) := do
  let _ ← f.runningTask (.save version)
  let (f, answer) ← f.applySave version tree rootEnabled changed now
  f.completeTask (.save version) answer

end Folder

/-! ## A task that waits on -/

namespace View

variable {v : View Digest} {task : Task Digest} {k : Subject Digest}
  {identifyDigest : Text → List (ℕ × Text) → Digest} {idle : List (Subject Digest)}

/-- A task that waits does so in another way, and no other task changes. -/
theorem Steady.requeue (hwaits : v.Waits k) (hsubject : task.subject = k)
    (hstate : task.state = .pending ∨ task.state = .running) (k' : Subject Digest) :
    Steady v (v.put task) k' := by
  by_cases hk : k' = k
  · exact .inr (hk ▸ ⟨hwaits, waits_put hsubject hstate⟩)
  · exact .inl (task_put_of_ne fun heq => hk (heq.trans hsubject))

theorem Good.requeue (hv : v.Good identifyDigest) (hwaits : v.Waits k) (hsubject : task.subject = k)
    (hstate : task.state = .pending ∨ task.state = .running)
    (hidle : ∀ k' ∈ idle, k' ∈ v.idle ∧ (k' = k → task.state ≠ .running)) :
    ({ v.put task with idle } : View Digest).Good identifyDigest := by
  have hsteady := Steady.requeue hwaits hsubject hstate
  have hnone : ∀ k', (v.put task).task k' ≠ none → v.task k' ≠ none := by
    intro k' hk'
    by_cases heq : k' = k
    · rw [heq]
      exact hwaits.ne_none
    · rwa [task_put_of_ne fun h => heq (h.trans hsubject)] at hk'
  refine ⟨⟨fun image himage => ?_, fun ordinal htask => hv.downloads ordinal (hnone _ htask),
    fun ordinal sha256 htask => hv.ocrs ordinal sha256 (hnone _ htask),
    fun input htask => hv.inputs input (hnone _ htask), fun k' hk' hrunning => ?_, hv.bindings⟩, ?_⟩
  · have hkept := hv.kept image himage
    refine { hkept with
      fetch := ?_, read := fun sha256 hsha => (hkept.read sha256 hsha).steady (hsteady _) }
    rcases hkept.fetch with h | ⟨hpending, ⟨download, hget, hexpired⟩, hdetail⟩
    · exact .inl (h.steady (hsteady _))
    · -- the download has failed, so it is not the task that waits
      have hdownload := (hsteady (.download image.ordinal)).not_done hget (by
        rw [hexpired.1]
        decide)
      exact .inr ⟨hpending, ⟨download, hdownload, hexpired⟩, hdetail.steady (hsteady .detail)⟩
  · obtain ⟨hold, hnot⟩ := hidle k' hk'
    have hne : k' ≠ task.subject := by
      rintro rfl
      obtain ⟨other, hget, hother⟩ := hrunning
      rw [show ({ v.put task with idle } : View Digest).task task.subject = some task from
        task_put_self] at hget
      obtain rfl := Option.some.inj hget
      exact hnot hsubject hother
    have hpointless := hv.idle k' hold (hrunning.congr (task_put_of_ne hne).symm)
    cases k' with
    | detail => exact ⟨hpointless.1, fun image himage hpending =>
        (hpointless.2 image himage hpending).steady (hsteady _)⟩
    | download ordinal | ocr ordinal sha256 | identify input | save version => exact hpointless
  · exact hv.staged.congr rfl rfl rfl rfl (fun _ => ⟨hnone, hsteady _⟩) (hsteady _)
      fun _ => hsteady _

end View

end Cortex.Notes
