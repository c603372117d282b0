import Cortex.Runs.Actions
import Cortex.Library.History

/-!
# The store as a transition system

A call is one command with its arguments; `exec` runs it.  The histories of the
store are those of `Step`: any calls, in any order, that commit.
-/

namespace Cortex.Runs

open Control Time Transaction

/-- A command of the store with its arguments, and whoever sends it. -/
inductive Call
  | createThread (workspaceId title : Text) (expectedRevision : ℤ) (caller : Caller)
  | renameThread (threadId : ℕ) (title : Text) (expectedRevision : ℤ) (caller : Caller)
  | archiveThread (threadId : ℕ) (expectedRevision : ℤ) (caller : Caller)
  | unarchiveThread (threadId : ℕ) (expectedRevision : ℤ) (caller : Caller)
  | appendMessage (threadId : ℕ) (role : MessageRole) (content : Text) (expectedRevision : ℤ)
      (caller : Caller)
  | createRun (threadId : ℕ) (expectedRevision : ℤ) (workflow : Option (Text × ℕ)) (caller : Caller)
  | createRuntimeBinding (threadId : ℕ) (adapterId runtimeSessionRef : Text) (generation : ℤ)
      (adapterVersion : Text) (parentRef : Option Text) (caller : Caller)
  | reserveAttemptDispatch (runId attemptId : ℕ) (dispatchOwner : Text) (identity : RuntimeIdentity)
      (expectedRevision leaseSeconds : ℤ) (caller : Caller)
  | pinAttemptRuntime (runId attemptId runtimeBindingId : ℕ) (runtimeReleaseId : Text)
      (stateGenerationId dispatchOwner : Option Text) (expectedRevision : ℤ) (caller : Caller)
  | failUnboundRun (runId attemptId : ℕ) (expectedRevision : ℤ) (category : Text)
      (dispatchOwner : Option Text) (retryable : Bool) (caller : Caller)
  | resumeRun (runId : ℕ) (expectedRevision : ℤ) (caller : Caller)
  | retryRun (runId : ℕ) (expectedRevision : ℤ) (reason : Text) (caller : Caller)
  | transitionRun (runId : ℕ) (targetState : RunState) (expectedRevision : ℤ) (stage : Option Text)
      (payload : List (Text × Text)) (target : TransitionTarget) (adapterEventId : Option Text)
      (cause : RuntimeCause) (caller : Caller)
  | recordRuntimeObservation (runId : ℕ) (target : RuntimeTarget) (eventType : ObservationType)
      (payload : ObservationPayload) (expectedRevision : ℤ) (adapterEventId : Option Text)
      (cause : RuntimeCause) (caller : Caller)
  | appendRuntimeMessage (runId : ℕ) (target : RuntimeTarget) (content : Text)
      (expectedRevision : ℤ) (adapterEventId : Option Text) (cause : RuntimeCause) (caller : Caller)
  | commitCheckpoint (runId : ℕ) (target : RuntimeTarget) (checkpointUri : Text)
      (expectedRevision : ℤ) (adapterEventId : Option Text) (cause : RuntimeCause) (caller : Caller)
  | createDecision (runId : ℕ) (target : RuntimeTarget) (kind prompt : Text)
      (options : List DecisionOption) (runtimeDecisionRef : Option Text)
      (runtimeDecisionRevision : Option ℤ) (expectedRevision : ℤ) (adapterEventId : Option Text)
      (cause : RuntimeCause) (caller : Caller)
  | resolveDecision (decisionId : ℕ) (choice : Text) (expectedRevision : ℤ) (caller : Caller)
  | createSourceIntent (runId attemptId : ℕ) (title locator locatorSha256 : Option Text)
      (canonicalIds : List Text) (caller : Caller)
  | resolveSourceIntent (intentId : ℕ) (choice : SourceChoice) (expectedRevision : ℤ)
      (caller : Caller)
  | claimRuntimeAction (actionId : ℕ) (workerId : Text) (leaseSeconds : ℤ) (caller : Caller)
  | claimRuntimeActionReconciliation (actionId : ℕ) (workerId : Text) (leaseSeconds : ℤ)
      (caller : Caller)
  | acknowledgeRuntimeAction (actionId runId : ℕ) (target : RuntimeTarget) (fence : Fence)
      (expectedRevision : ℤ) (caller : Caller)
  | failRuntimeAction (actionId : ℕ) (fence : Fence) (expectedRevision : ℤ) (category : Text)
      (caller : Caller)
  | rejectRuntimeAction (actionId : ℕ) (fence : Fence) (expectedRevision : ℤ) (category : Text)
      (caller : Caller)
  | markRuntimeActionOutcomeUnknown (actionId : ℕ) (fence : Fence) (expectedRevision : ℤ)
      (category : Text) (caller : Caller)
  | deferRuntimeActionReconciliation (actionId : ℕ) (fence : Fence) (expectedRevision : ℤ)
      (category : Text) (caller : Caller)
  | retryRuntimeActionDelivery (actionId : ℕ) (fence : Fence) (expectedRevision : ℤ)
      (caller : Caller)
  | claimPinRelease (releaseId : ℕ) (workerId : Text) (leaseSeconds : ℤ) (caller : Caller)
  | acknowledgePinRelease (releaseId : ℕ) (fence : Fence) (expectedRevision : ℤ) (caller : Caller)
  | failPinRelease (releaseId : ℕ) (fence : Fence) (expectedRevision : ℤ) (category : Text)
      (caller : Caller)
  | retryPinRelease (releaseId : ℕ) (expectedRevision : ℤ) (caller : Caller)
  | createWorkflowDecision (runId : ℕ) (kind prompt : Text) (options : List DecisionOption)
  | settleWorkflowFailure (runId : ℕ)
  | reviseRun (runId : ℕ)

section Exec

variable {Digest : Type} [DecidableEq Digest] (platform : Platform Digest)

/-- Run a command on what it reads from outside. -/
def exec (s : Store Digest) (call : Call × Readings) :
    Except StoreError (Store Digest × CommandResult Response) :=
  match call.1 with
  | .createThread workspaceId title expectedRevision caller =>
      createThread platform s call.2 workspaceId title expectedRevision caller
  | .renameThread threadId title expectedRevision caller =>
      renameThread platform s call.2 threadId title expectedRevision caller
  | .archiveThread threadId expectedRevision caller =>
      archiveThread platform s call.2 threadId expectedRevision caller
  | .unarchiveThread threadId expectedRevision caller =>
      unarchiveThread platform s call.2 threadId expectedRevision caller
  | .appendMessage threadId role content expectedRevision caller =>
      appendMessage platform s call.2 threadId role content expectedRevision caller
  | .createRun threadId expectedRevision workflow caller =>
      createRun platform s call.2 threadId expectedRevision workflow caller
  | .createRuntimeBinding threadId adapterId runtimeSessionRef generation adapterVersion
      parentRef caller =>
      createRuntimeBinding platform s call.2 threadId adapterId runtimeSessionRef generation
        adapterVersion parentRef caller
  | .reserveAttemptDispatch runId attemptId dispatchOwner identity expectedRevision
      leaseSeconds caller =>
      reserveAttemptDispatch platform s call.2 runId attemptId dispatchOwner identity
        expectedRevision leaseSeconds caller
  | .pinAttemptRuntime runId attemptId runtimeBindingId runtimeReleaseId stateGenerationId
      dispatchOwner expectedRevision caller =>
      pinAttemptRuntime platform s call.2 runId attemptId runtimeBindingId runtimeReleaseId
        stateGenerationId dispatchOwner expectedRevision caller
  | .failUnboundRun runId attemptId expectedRevision category dispatchOwner retryable caller =>
      failUnboundRun platform s call.2 runId attemptId expectedRevision category dispatchOwner
        retryable caller
  | .resumeRun runId expectedRevision caller =>
      resumeRun platform s call.2 runId expectedRevision caller
  | .retryRun runId expectedRevision reason caller =>
      retryRun platform s call.2 runId expectedRevision reason caller
  | .transitionRun runId targetState expectedRevision stage payload target adapterEventId
      cause caller =>
      transitionRun platform s call.2 runId targetState expectedRevision stage payload target
        adapterEventId cause caller
  | .recordRuntimeObservation runId target eventType payload expectedRevision adapterEventId
      cause caller =>
      recordRuntimeObservation platform s call.2 runId target eventType payload
        expectedRevision adapterEventId cause caller
  | .appendRuntimeMessage runId target content expectedRevision adapterEventId cause caller =>
      appendRuntimeMessage platform s call.2 runId target content expectedRevision
        adapterEventId cause caller
  | .commitCheckpoint runId target checkpointUri expectedRevision adapterEventId cause caller =>
      commitCheckpoint platform s call.2 runId target checkpointUri expectedRevision
        adapterEventId cause caller
  | .createDecision runId target kind prompt options runtimeDecisionRef
      runtimeDecisionRevision expectedRevision adapterEventId cause caller =>
      createDecision platform s call.2 runId target kind prompt options runtimeDecisionRef
        runtimeDecisionRevision expectedRevision adapterEventId cause caller
  | .resolveDecision decisionId choice expectedRevision caller =>
      resolveDecision platform s call.2 decisionId choice expectedRevision caller
  | .createSourceIntent runId attemptId title locator locatorSha256 canonicalIds caller =>
      createSourceIntent platform s call.2 runId attemptId title locator locatorSha256
        canonicalIds caller
  | .resolveSourceIntent intentId choice expectedRevision caller =>
      resolveSourceIntent platform s call.2 intentId choice expectedRevision caller
  | .claimRuntimeAction actionId workerId leaseSeconds caller =>
      claimRuntimeAction platform s call.2 actionId workerId leaseSeconds caller
  | .claimRuntimeActionReconciliation actionId workerId leaseSeconds caller =>
      claimRuntimeActionReconciliation platform s call.2 actionId workerId leaseSeconds caller
  | .acknowledgeRuntimeAction actionId runId target fence expectedRevision caller =>
      acknowledgeRuntimeAction platform s call.2 actionId runId target fence expectedRevision
        caller
  | .failRuntimeAction actionId fence expectedRevision category caller =>
      failRuntimeAction platform s call.2 actionId fence expectedRevision category caller
  | .rejectRuntimeAction actionId fence expectedRevision category caller =>
      rejectRuntimeAction platform s call.2 actionId fence expectedRevision category caller
  | .markRuntimeActionOutcomeUnknown actionId fence expectedRevision category caller =>
      markRuntimeActionOutcomeUnknown platform s call.2 actionId fence expectedRevision
        category caller
  | .deferRuntimeActionReconciliation actionId fence expectedRevision category caller =>
      deferRuntimeActionReconciliation platform s call.2 actionId fence expectedRevision
        category caller
  | .retryRuntimeActionDelivery actionId fence expectedRevision caller =>
      retryRuntimeActionDelivery platform s call.2 actionId fence expectedRevision caller
  | .claimPinRelease releaseId workerId leaseSeconds caller =>
      claimPinRelease platform s call.2 releaseId workerId leaseSeconds caller
  | .acknowledgePinRelease releaseId fence expectedRevision caller =>
      acknowledgePinRelease platform s call.2 releaseId fence expectedRevision caller
  | .failPinRelease releaseId fence expectedRevision category caller =>
      failPinRelease platform s call.2 releaseId fence expectedRevision category caller
  | .retryPinRelease releaseId expectedRevision caller =>
      retryPinRelease platform s call.2 releaseId expectedRevision caller
  | .createWorkflowDecision runId kind prompt options =>
      createWorkflowDecision s call.2 runId kind prompt options
  | .settleWorkflowFailure runId => settleWorkflowFailure s call.2 runId
  | .reviseRun runId => reviseRun s call.2 runId

/-- A committed call with its reply. -/
abbrev Event := (Call × Readings) × CommandResult Response

/-- One committed command. -/
abbrev Step : Store Digest → Event → Store Digest → Prop := Commits (exec platform)

end Exec

end Cortex.Runs
