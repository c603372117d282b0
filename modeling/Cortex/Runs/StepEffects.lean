import Cortex.Runs.ActionEffects

/-!
# The effect of a step

`step_effect` collects the effects of the commands: a step of the store is a
replay that changes nothing, or has an effect.  The three conditions say, of a
call and the state it starts from, what the store does not check by itself.
-/

namespace Cortex.Runs

open Control Time Transaction

/-! ## Conditions on calls -/

/-- A call that ends a run closes all that is pending of it: what each way of ending a run
leaves pending by itself is not there. -/
def Call.ClosesRun (s : Ledger) : Call → Prop
  | .transitionRun runId targetState _ _ _ _ _ _ _ =>
      targetState.isTerminal → ∀ run ∈ s.runs, run.id = runId →
        ActionsAreOf s runId run.activeAttemptId
  | .settleWorkflowFailure runId =>
      ∀ run ∈ s.runs, run.id = runId → RunState.failed ∈ run.state.transitions →
        ¬run.state.isWorkflowFenced → ActionsAreOf s runId run.activeAttemptId
  | .failUnboundRun runId attemptId _ _ _ _ _ =>
      s.UnboundEnds runId attemptId →
        DecisionsAreOfIntents s runId ∧ ActionsAreOf s runId attemptId
  | .failRuntimeAction actionId _ _ _ _ =>
      ∀ action ∈ s.actions, action.id = actionId → DecisionsAreOfIntents s action.runId ∧
        ∀ a ∈ s.actions, a.runId = action.runId → a.state = .pending → a.id = actionId
  | _ => True

/-- A call does not retry a run of an archived thread. -/
def Call.RetriesUnarchived (s : Ledger) : Call → Prop
  | .retryRun runId _ _ _ => ¬s.IsArchived runId
  | _ => True

/-- A call does not put back a paused attempt whose pin was claimed for its release. -/
def Call.PutsBackUnclaimed (s : Ledger) : Call → Prop
  | .failUnboundRun runId attemptId _ _ _ _ _ => s.PutsBackUnclaimed runId attemptId
  | _ => True

/-! ## The step lemma -/

section Step

variable {Digest : Type} [DecidableEq Digest] {platform : Platform Digest}
  {s s' : Store Digest} {result : CommandResult Response}

/-- A command commits as a replay, or with an effect on the ledger. -/
def Committed (s s' : Store Digest) (result : CommandResult Response) (E : Ledger → Prop) : Prop :=
  (result.replayed = true ∧ s' = s) ∨ (result.replayed = false ∧ E s'.tables.ledger)

private theorem committed_ledgerCommand {caller : Caller} {operation : Operation} {request : Request}
    {statusCode : ℕ} {now : Civil} {body : Ledger → Except StoreError (Ledger × Response)}
    {E : Ledger → Prop}
    (h : ledgerCommand platform s caller operation request statusCode now body = .ok (s', result))
    (hbody : ∀ ledger value, body s.tables.ledger = .ok (ledger, value) → E ledger) :
    Committed s s' result E := by
  rcases ledgerCommand_eq_ok h with hreplay | ⟨hnew, -, -, hcommit⟩
  · exact .inl hreplay
  · exact .inr ⟨hnew, hbody _ _ hcommit⟩

private theorem committed_offer {caller : Caller} {operation : Operation} {request : OfferRequest}
    {expectedRevision : ℤ} {adapterEventId : Option Text} {statusCode : ℕ} {now : Civil}
    {body : Ledger → Except StoreError (Ledger × Response × ℕ)} {E : Ledger → Prop}
    (h : offer platform s caller operation request expectedRevision adapterEventId statusCode now
      body = .ok (s', result))
    (hbody : ∀ ledger value attemptId, body s.tables.ledger = .ok (ledger, value, attemptId) →
      E ledger) : Committed s s' result E := by
  rcases offer_eq_ok h with hreplay | ⟨hnew, attemptId, hcommit, -⟩
  · exact .inl hreplay
  · exact .inr ⟨hnew, hbody _ _ _ hcommit⟩

omit [DecidableEq Digest] in
private theorem committed_unreceipted {body : Ledger → Except StoreError (Ledger × Response)}
    {E : Ledger → Prop} (h : unreceipted s body = .ok (s', result))
    (hbody : ∀ ledger value, body s.tables.ledger = .ok (ledger, value) → E ledger) :
    Committed s s' result E := by
  simp only [unreceipted, bind_eq_ok, pure_eq_ok, Prod.mk.injEq] at h
  obtain ⟨⟨ledger, value⟩, hcommit, rfl, rfl⟩ := h
  exact .inr ⟨rfl, hbody _ _ hcommit⟩

/-- A claim that is replayed is looked up again; it leaves the store of its receipt. -/
private theorem eq_of_recheck {α β : Type} {p : Prop} [Decidable p] {a b : α} {look : Except StoreError β}
    {check : β → Except StoreError Unit}
    (h : (if p then do let row ← look; check row; pure a else pure a) = .ok b) : a = b := by
  split at h
  · simp only [bind_eq_ok, pure_eq_ok] at h
    obtain ⟨-, -, -, -, rfl⟩ := h
    rfl
  · simpa using h

end Step

section Calls

variable {Digest : Type} [DecidableEq Digest] {platform : Platform Digest}
  {s s' : Store Digest} {readings : Readings} {result : CommandResult Response}

/-- Every call is a replay that changes nothing, or has an effect on the ledger. -/
private theorem exec_effect {call : Call} (hs : WellFormed s.tables.ledger)
    (h : exec platform s (call, readings) = .ok (s', result)) :
    Committed s s' result (Effect (call.ClosesRun s.tables.ledger)
      (call.RetriesUnarchived s.tables.ledger) (call.PutsBackUnclaimed s.tables.ledger)
      s.tables.ledger) := by
  cases call with
  | createThread =>
      simp only [exec, createThread, bind_eq_ok] at h
      obtain ⟨_, -, h⟩ := h
      exact committed_ledgerCommand h fun _ _ => createThread_effect
  | renameThread =>
      simp only [exec, renameThread, bind_eq_ok] at h
      obtain ⟨_, -, h⟩ := h
      exact committed_ledgerCommand h fun _ _ => renameThread_effect
  | archiveThread =>
      simp only [exec, archiveThread] at h
      exact committed_ledgerCommand h fun _ _ => setThreadArchived_effect
  | unarchiveThread =>
      simp only [exec, unarchiveThread] at h
      exact committed_ledgerCommand h fun _ _ => setThreadArchived_effect
  | appendMessage =>
      simp only [exec, appendMessage, bind_eq_ok] at h
      obtain ⟨_, -, h⟩ := h
      exact committed_ledgerCommand h fun _ _ => appendMessage_effect
  | createRun =>
      simp only [exec, createRun] at h
      exact committed_ledgerCommand h fun _ _ => createRun_effect hs
  | createRuntimeBinding =>
      simp only [exec, createRuntimeBinding, bind_eq_ok] at h
      obtain ⟨_, -, _, -, _, -, -, -, h⟩ := h
      exact committed_ledgerCommand h fun _ _ => createRuntimeBinding_effect
  | reserveAttemptDispatch =>
      simp only [exec, reserveAttemptDispatch, bind_eq_ok] at h
      obtain ⟨_, -, _, -, -, -, ⟨m, r⟩, hcommand, h⟩ := h
      obtain ⟨rfl, rfl⟩ := Prod.mk.inj (eq_of_recheck h)
      exact committed_ledgerCommand hcommand fun _ _ => reserveAttemptDispatch_effect hs
  | pinAttemptRuntime =>
      simp only [exec, pinAttemptRuntime, bind_eq_ok] at h
      obtain ⟨_, -, _, -, _, -, h⟩ := h
      exact committed_ledgerCommand h fun _ _ => pinAttemptRuntime_effect hs
  | failUnboundRun =>
      simp only [exec, failUnboundRun, bind_eq_ok] at h
      obtain ⟨_, -, h⟩ := h
      exact committed_ledgerCommand h fun _ _ => failUnboundRun_effect hs id id
  | resumeRun =>
      simp only [exec, resumeRun] at h
      exact committed_ledgerCommand h fun _ _ =>
        restartAttempt_effect (by decide) (by decide) (.inl rfl)
  | retryRun =>
      simp only [exec, retryRun, bind_eq_ok] at h
      obtain ⟨_, -, h⟩ := h
      exact committed_ledgerCommand h fun _ _ =>
        restartAttempt_effect (by decide) (by decide) (.inr id)
  | transitionRun =>
      simp only [exec, transitionRun] at h
      exact committed_offer h fun _ _ _ => transitionRun_effect hs id
  | recordRuntimeObservation =>
      simp only [exec, recordRuntimeObservation, bind_eq_ok] at h
      obtain ⟨_, -, h⟩ := h
      exact committed_offer h fun _ _ _ => recordRuntimeObservation_effect
  | appendRuntimeMessage =>
      simp only [exec, appendRuntimeMessage, bind_eq_ok] at h
      obtain ⟨_, -, h⟩ := h
      exact committed_offer h fun _ _ _ => appendRuntimeMessage_effect
  | commitCheckpoint =>
      simp only [exec, commitCheckpoint, bind_eq_ok] at h
      obtain ⟨_, huri, _, -, -, -, h⟩ := h
      exact committed_offer h fun _ _ _ => commitCheckpoint_effect (requiredText_ne_nil huri)
  | createDecision =>
      simp only [exec, createDecision, bind_eq_ok] at h
      obtain ⟨_, -, _, -, _, -, _, -, _, -, h⟩ := h
      exact committed_offer h fun _ _ _ => createDecision_effect
  | resolveDecision =>
      simp only [exec, resolveDecision, bind_eq_ok] at h
      obtain ⟨_, -, h⟩ := h
      exact committed_ledgerCommand h fun _ _ => resolveDecision_effect hs
  | createSourceIntent =>
      simp only [exec, createSourceIntent, bind_eq_ok] at h
      obtain ⟨-, -, h⟩ := h
      exact committed_ledgerCommand h fun _ _ => createSourceIntent_effect
  | resolveSourceIntent =>
      simp only [exec, resolveSourceIntent] at h
      exact committed_ledgerCommand h fun _ _ => resolveSourceIntent_effect hs
  | claimRuntimeAction =>
      simp only [exec, claimRuntimeAction, bind_eq_ok] at h
      obtain ⟨_, -, -, -, ⟨m, r⟩, hcommand, h⟩ := h
      obtain ⟨rfl, rfl⟩ := Prod.mk.inj (eq_of_recheck h)
      exact committed_ledgerCommand hcommand fun _ _ => claimRuntimeAction_effect
  | claimRuntimeActionReconciliation =>
      simp only [exec, claimRuntimeActionReconciliation, bind_eq_ok] at h
      obtain ⟨_, -, -, -, ⟨m, r⟩, hcommand, h⟩ := h
      obtain ⟨rfl, rfl⟩ := Prod.mk.inj (eq_of_recheck h)
      exact committed_ledgerCommand hcommand fun _ _ => claimRuntimeActionReconciliation_effect
  | acknowledgeRuntimeAction =>
      simp only [exec, acknowledgeRuntimeAction, bind_eq_ok] at h
      obtain ⟨_, -, h⟩ := h
      exact committed_ledgerCommand h fun _ _ => acknowledgeRuntimeAction_effect
  | failRuntimeAction =>
      simp only [exec, failRuntimeAction, bind_eq_ok] at h
      obtain ⟨_, -, _, -, h⟩ := h
      exact committed_ledgerCommand h fun _ _ => failRuntimeAction_effect hs id
  | rejectRuntimeAction =>
      simp only [exec, rejectRuntimeAction, bind_eq_ok] at h
      obtain ⟨_, -, _, -, h⟩ := h
      exact committed_ledgerCommand h fun _ _ => rejectRuntimeAction_effect hs
  | markRuntimeActionOutcomeUnknown =>
      simp only [exec, markRuntimeActionOutcomeUnknown, bind_eq_ok] at h
      obtain ⟨_, -, _, -, h⟩ := h
      exact committed_ledgerCommand h fun _ _ => redirectRuntimeAction_effect
  | deferRuntimeActionReconciliation =>
      simp only [exec, deferRuntimeActionReconciliation, bind_eq_ok] at h
      obtain ⟨_, -, _, -, h⟩ := h
      exact committed_ledgerCommand h fun _ _ => redirectRuntimeAction_effect
  | retryRuntimeActionDelivery =>
      simp only [exec, retryRuntimeActionDelivery, bind_eq_ok] at h
      obtain ⟨_, -, h⟩ := h
      exact committed_ledgerCommand h fun _ _ => redirectRuntimeAction_effect
  | claimPinRelease =>
      simp only [exec, claimPinRelease, bind_eq_ok] at h
      obtain ⟨_, -, -, -, ⟨m, r⟩, hcommand, h⟩ := h
      obtain ⟨rfl, rfl⟩ := Prod.mk.inj (eq_of_recheck h)
      exact committed_ledgerCommand hcommand fun _ _ => claimPinRelease_effect
  | acknowledgePinRelease =>
      simp only [exec, acknowledgePinRelease, settlePinRelease, bind_eq_ok] at h
      obtain ⟨_, hfence, h⟩ := h
      exact committed_ledgerCommand h fun _ _ =>
        settlePinRelease_effect (requiredFence_eq_ok hfence)
  | failPinRelease =>
      simp only [exec, failPinRelease, settlePinRelease, bind_eq_ok] at h
      obtain ⟨_, -, _, hfence, h⟩ := h
      exact committed_ledgerCommand h fun _ _ =>
        settlePinRelease_effect (requiredFence_eq_ok hfence)
  | retryPinRelease =>
      simp only [exec, retryPinRelease] at h
      exact committed_ledgerCommand h fun _ _ => retryPinRelease_effect
  | createWorkflowDecision =>
      simp only [exec, createWorkflowDecision, bind_eq_ok] at h
      obtain ⟨_, -, _, -, _, -, h⟩ := h
      exact committed_unreceipted h fun _ _ => createWorkflowDecision_effect hs
  | settleWorkflowFailure =>
      simp only [exec, settleWorkflowFailure] at h
      exact committed_unreceipted h fun _ _ => settleWorkflowFailure_effect hs id
  | reviseRun =>
      simp only [exec, reviseRun] at h
      exact committed_unreceipted h fun _ _ => reviseRun_effect

/-- A step leaves the ledger as it was, or has an effect on it. -/
theorem step_effect {event : Event} (hs : WellFormed s.tables.ledger)
    (h : Step platform s event s') :
    Committed s s' event.2 (Effect (event.1.1.ClosesRun s.tables.ledger)
      (event.1.1.RetriesUnarchived s.tables.ledger) (event.1.1.PutsBackUnclaimed s.tables.ledger)
      s.tables.ledger) :=
  exec_effect hs h

end Calls

end Cortex.Runs
