import Cortex.Runs.StepEffects

/-!
# Offers of runtime events

Five commands take the events of a worker, and all of them through `offer`.
`Call.offered` reads the offer off a call, as the command has checked and trimmed
it.  Two facts are all that later modules need of the 33 commands:

* a call that offers something is `offer` of it, with a body that `Ingests` it:
  the run is raised by one revision, from the revision that was expected;
* a call that offers nothing leaves the inbox alone, and files no receipt for an
  operation that takes events.

`Ingests` says under which attempt the event is saved.  This is the attempt it
was offered for, except for the two requests of an operator, whose event is saved
under the attempt that the run has by then.
-/

namespace Cortex.Runs

open Control Time Transaction

/-- What a caller offers to the store: the request of a command that takes events. -/
structure Offer where
  caller : Caller
  runId : ℕ
  operation : Operation
  request : OfferRequest
  expectedRevision : ℤ
  adapterEventId : Option Text

/-- The operations of the five commands that take events. -/
def Operation.takesEvents : Operation → Bool
  | .transition _ _ => true
  | .runtimeObservation _ => true
  | .assistantMessage _ => true
  | .checkpoint _ => true
  | .createDecision _ => true
  | _ => false

/-- A request by which an operator asks a run to pause or to stop. -/
def OfferRequest.isControlRequest : OfferRequest → Prop
  | .transition targetState _ _ _ _ => targetState.isControlRequest
  | _ => False

section Offers

variable {Digest : Type} [DecidableEq Digest] (platform : Platform Digest)

/-- The offer a call makes, when its arguments pass the checks before the transaction. -/
def Call.offered : Call → Option Offer
  | .transitionRun runId targetState expectedRevision stage payload target adapterEventId cause
      caller =>
      some
        { caller, runId, expectedRevision, adapterEventId
          operation := .transition runId targetState
          request := .transition targetState stage payload target cause }
  | .recordRuntimeObservation runId target eventType payload expectedRevision adapterEventId cause
      caller =>
      (sanitizeObservation eventType payload).toOption.map fun payload =>
        { caller, runId, expectedRevision, adapterEventId
          operation := .runtimeObservation runId
          request := .observation target eventType payload cause }
  | .appendRuntimeMessage runId target content expectedRevision adapterEventId cause caller =>
      (requiredText content "content" 1000000).toOption.map fun content =>
        { caller, runId, expectedRevision, adapterEventId
          operation := .assistantMessage runId
          request := .message target content cause }
  | .commitCheckpoint runId target checkpointUri expectedRevision adapterEventId cause caller =>
      (requiredText checkpointUri "checkpoint_uri" 4000).toOption.bind fun checkpointUri =>
        if platform.resourceRoot checkpointUri = some "artifacts".toList then
          some
            { caller, runId, expectedRevision, adapterEventId
              operation := .checkpoint runId
              request := .checkpoint target checkpointUri cause }
        else none
  | .createDecision runId target kind prompt options runtimeDecisionRef runtimeDecisionRevision
      expectedRevision adapterEventId cause caller =>
      Except.toOption do
        let kind ← requiredText kind "kind" 100
        let prompt ← publicDecisionText prompt "prompt" 20000
        let options ← validateDecisionOptions options
        let runtimeDecisionRef ← optionalText runtimeDecisionRef "runtime_decision_ref" 500
        let _ ← validateDecisionRevision runtimeDecisionRevision
        pure
          { caller, runId, expectedRevision, adapterEventId
            operation := .createDecision runId
            request := .decision target runtimeDecisionRef runtimeDecisionRevision kind prompt
              options cause }
  | _ => none

/-- A run is raised from the revision that was expected to the next, and the event is saved
under its active attempt: the attempt it was offered for, or that of an operator's request. -/
def Ingests (o : Offer) (s s' : Ledger) (attemptId : ℕ) : Prop :=
  ∃ run ∈ s.runs, run.id = o.runId ∧ (run.revision : ℤ) = o.expectedRevision ∧
    run.activeAttemptId = attemptId ∧
    (o.request.attemptId = some attemptId ∨ o.request.isControlRequest) ∧
    ∃ run' ∈ s'.runs, run'.id = run.id ∧ run'.revision = run.revision + 1

end Offers

/-! ## What the bodies do -/

section Bodies

variable {s m s' : Ledger} {readings : Readings} {value : Response} {run run' : Run}

/-- The rest of a command raises the run that its checks left. -/
theorem Prepared.raised {adds : Prop} {now : Stamp} (h : Prepared adds s m run run')
    (f : Run → Run) (hf : ∀ r, (f r).id = r.id) (hrevision : run'.revision = run.revision)
    (hruns : s'.runs = (m.updateRun run' now f hf).runs) :
    ∃ r ∈ s'.runs, r.id = run.id ∧ r.revision = run.revision + 1 := by
  obtain ⟨r, hr⟩ := h.holds
  have hafter := hr.mem_updateRun now f hf
  rw [← hruns] at hafter
  refine ⟨_, hafter, ?_, ?_⟩
  · exact (hf r).trans (hr.id.trans h.id)
  · change r.revision + 1 = _
    rw [hr.revision, hrevision]

private theorem checkRuntimeResult_revision {target : RuntimeTarget}
    {adapterEventId : Option Text} {cause : RuntimeCause} {attempt : Attempt}
    (h : s.checkRuntimeResult readings run target adapterEventId cause = .ok (m, run', attempt)) :
    run'.revision = run.revision := by
  simp only [Ledger.checkRuntimeResult, Ledger.confirmRuntimeResumeFromEvent, bind_eq_ok,
    pure_eq_ok, Prod.mk.injEq] at h
  obtain ⟨_, -, ⟨_, _⟩, hconfirm, rfl, rfl, -⟩ := h
  split at hconfirm
  · simp only [pure_eq_ok, Prod.mk.injEq] at hconfirm
    rw [hconfirm.2]
  · split at hconfirm
    · simp only [bind_eq_ok, pure_eq_ok, Prod.mk.injEq] at hconfirm
      obtain ⟨-, -, _, -, -, rfl⟩ := hconfirm
      rfl
    · simp at hconfirm

private theorem checkRuntimeTransition_revision {targetState : RunState}
    {target : TransitionTarget} {adapterEventId : Option Text} {cause : RuntimeCause}
    (h : s.checkRuntimeTransition readings run targetState target adapterEventId cause
      = .ok (m, run')) :
    run'.revision = run.revision := by
  simp only [Ledger.checkRuntimeTransition, bind_eq_ok, pure_eq_ok, Prod.mk.injEq] at h
  obtain ⟨_, -, ⟨_, _, _⟩, hcheck, -, -, rfl, rfl⟩ := h
  exact checkRuntimeResult_revision hcheck

/-- Whatever the target, a transition ends in one update of its run. -/
private theorem applyTransition_raised {target : RunState} {stage : Option Text} {now : Stamp}
    (hs : WellFormed s) (hp : Prepared False s m run run')
    (hrevision : run'.revision = run.revision)
    (h : m.applyTransition readings run' target stage now = .ok s') :
    ∃ r ∈ s'.runs, r.id = run.id ∧ r.revision = run.revision + 1 := by
  have hown := hs.activeAttempt run hp.before
  have hp' : Prepared True s m run run' := hp.mono False.elim
  have hmove : ∀ r : Run, { r with state := target, stage := stage <|> r.stage }.id = r.id :=
    fun _ => rfl
  rw [← hp.activeAttemptId] at hown
  unfold Ledger.applyTransition at h
  split at h
  · simp only [Ledger.endRun, bind_eq_ok, Ledger.attempt_eq_ok] at h
    obtain ⟨attempt, ⟨-, hid⟩, h⟩ := h
    have hown' : s.HasAttempt run.id attempt.id := by
      rw [hid]
      exact hown
    rw [hp.id] at h
    obtain ⟨releases, rfl, -⟩ := Ledger.workFrame_releasePin hown' h
    exact hp.raised _ hmove hrevision rfl
  · rw [hp.id] at h
    split at h
    · simp only [bind_eq_ok, pure_eq_ok] at h
      obtain ⟨m', hcancel, rfl⟩ := h
      obtain ⟨hwork, hthreads, hruns, hattempts⟩ := prepareRunCancellation_eq_ok hown hcancel
      exact (hp'.andWork hwork hthreads hruns hattempts).raised _ hmove hrevision rfl
    · simp only [bind_eq_ok, pure_eq_ok] at h
      obtain ⟨m', hinsert, rfl⟩ := h
      obtain ⟨actions, rfl, hwork⟩ :=
        Ledger.workFrame_insertControlRuntimeAction hown trivial hinsert
      exact (hp'.andWork hwork (by rfl) (by rfl) (by rfl)).raised _ hmove hrevision rfl
    · simp only [pure_eq_ok] at h
      subst h
      exact (hp'.andWork Ledger.workFrame_failPendingRuntimeActions (by rfl) (by rfl)
        (by rfl)).raised _ hmove hrevision rfl
    · simp only [pure_eq_ok] at h
      subst h
      exact hp'.raised _ hmove hrevision rfl

theorem transitionRun_ingests {actorId : Text} {runId attemptId : ℕ} {targetState : RunState}
    {expectedRevision : ℤ} {stage : Option Text} {target : TransitionTarget}
    {adapterEventId : Option Text} {cause : RuntimeCause} {o : Offer} (hs : WellFormed s)
    (hrunId : o.runId = runId) (hexpected : o.expectedRevision = expectedRevision)
    (htarget : o.request.attemptId = target.attemptId)
    (hcontrol : targetState.isControlRequest → o.request.isControlRequest)
    (h : s.transitionRun readings actorId runId targetState expectedRevision stage target
      adapterEventId cause = .ok (s', value, attemptId)) : Ingests o s s' attemptId := by
  simp only [Ledger.transitionRun, bind_eq_ok, require_eq_ok, Ledger.run_eq_ok,
    expectRevision_eq_ok] at h
  obtain ⟨run, ⟨hrun, rfl⟩, -, -, _, hrevision, h⟩ := h
  split at h
  · rename_i hrequest
    simp only [bind_eq_ok, require_eq_ok, Ledger.run_eq_ok, pure_eq_ok, Prod.mk.injEq] at h
    obtain ⟨⟨m, run'⟩, ⟨rfl, rfl⟩, -, -, m', happly, -, -, rfl, -, rfl⟩ := h
    refine ⟨run, hrun, hrunId.symm, hrevision.trans hexpected.symm, rfl,
      .inr (hcontrol hrequest), ?_⟩
    exact applyTransition_raised hs (.refl hrun) rfl happly
  · simp only [bind_eq_ok, require_eq_ok, Ledger.run_eq_ok, pure_eq_ok, Prod.mk.injEq] at h
    obtain ⟨⟨m, run'⟩, hcheck, -, -, m', happly, -, -, rfl, -, rfl⟩ := h
    obtain ⟨hp, hattempt, -⟩ := checkRuntimeTransition_eq_ok hrun hcheck
    refine ⟨run, hrun, hrunId.symm, hrevision.trans hexpected.symm, hp.activeAttemptId.symm,
      .inl ?_, ?_⟩
    · rw [htarget, hattempt, hp.activeAttemptId]
    · exact applyTransition_raised hs hp (checkRuntimeTransition_revision hcheck) happly

/-- A result of a running attempt is ingested by the update of the run that ends the command. -/
private theorem ingests_of_result {target : RuntimeTarget} {adapterEventId : Option Text}
    {cause : RuntimeCause} {attempt : Attempt} {o : Offer} {now : Stamp} (hrun : run ∈ s.runs)
    (hrunId : o.runId = run.id) (hrevision : (run.revision : ℤ) = o.expectedRevision)
    (htarget : o.request.attemptId = some target.attemptId)
    (hcheck : s.checkRuntimeResult readings run target adapterEventId cause
      = .ok (m, run', attempt)) (f : Run → Run) (hf : ∀ r, (f r).id = r.id)
    (hruns : s'.runs = (m.updateRun run' now f hf).runs) : Ingests o s s' target.attemptId := by
  obtain ⟨hp, -, -, hactive, -⟩ := checkRuntimeResult_eq_ok hrun hcheck
  refine ⟨run, hrun, hrunId.symm, hrevision, hactive, .inl htarget, ?_⟩
  exact hp.raised f hf (checkRuntimeResult_revision hcheck) hruns

theorem recordRuntimeObservation_ingests {runId attemptId : ℕ} {target : RuntimeTarget}
    {eventType : ObservationType} {payload : ObservationPayload} {expectedRevision : ℤ}
    {adapterEventId : Option Text} {cause : RuntimeCause} {o : Offer} (hrunId : o.runId = runId)
    (hexpected : o.expectedRevision = expectedRevision)
    (htarget : o.request.attemptId = some target.attemptId)
    (h : s.recordRuntimeObservation readings runId target eventType payload expectedRevision
      adapterEventId cause = .ok (s', value, attemptId)) : Ingests o s s' attemptId := by
  simp only [Ledger.recordRuntimeObservation, bind_eq_ok, require_eq_ok, Ledger.run_eq_ok,
    expectRevision_eq_ok, pure_eq_ok, Prod.mk.injEq] at h
  obtain ⟨run, ⟨hrun, rfl⟩, _, hrevision, ⟨m, run', attempt⟩, hcheck, -, -, m', hobserve, -, -,
    rfl, -, rfl⟩ := h
  obtain ⟨bindings, rfl⟩ := applyObservation_eq_ok hobserve
  exact ingests_of_result hrun hrunId (hrevision.trans hexpected.symm) htarget hcheck id
    run_id_same rfl

theorem appendRuntimeMessage_ingests {runId attemptId : ℕ} {target : RuntimeTarget}
    {content : Text} {expectedRevision : ℤ} {adapterEventId : Option Text} {cause : RuntimeCause}
    {o : Offer} (hrunId : o.runId = runId) (hexpected : o.expectedRevision = expectedRevision)
    (htarget : o.request.attemptId = some target.attemptId)
    (h : s.appendRuntimeMessage readings runId target content expectedRevision adapterEventId cause
      = .ok (s', value, attemptId)) : Ingests o s s' attemptId := by
  simp only [Ledger.appendRuntimeMessage, bind_eq_ok, require_eq_ok, Ledger.run_eq_ok,
    Ledger.thread_eq_ok, expectRevision_eq_ok, pure_eq_ok, Prod.mk.injEq] at h
  obtain ⟨run, ⟨hrun, rfl⟩, _, hrevision, ⟨m, run', attempt⟩, hcheck, -, -, thread, -,
    ⟨m', message⟩, hinsert, -, -, rfl, -, rfl⟩ := h
  rw [insertMessage_eq_ok hinsert]
  exact ingests_of_result hrun hrunId (hrevision.trans hexpected.symm) htarget hcheck id
    run_id_same rfl

theorem commitCheckpoint_ingests {runId attemptId : ℕ} {target : RuntimeTarget}
    {checkpointUri : Text} {expectedRevision : ℤ} {adapterEventId : Option Text}
    {cause : RuntimeCause} {o : Offer} (hrunId : o.runId = runId)
    (hexpected : o.expectedRevision = expectedRevision)
    (htarget : o.request.attemptId = some target.attemptId)
    (h : s.commitCheckpoint readings runId target checkpointUri expectedRevision adapterEventId
      cause = .ok (s', value, attemptId)) : Ingests o s s' attemptId := by
  simp only [Ledger.commitCheckpoint, bind_eq_ok, require_eq_ok, Ledger.run_eq_ok,
    expectRevision_eq_ok, pure_eq_ok, Prod.mk.injEq] at h
  obtain ⟨run, ⟨hrun, rfl⟩, _, hrevision, ⟨m, run', attempt⟩, hcheck, -, -, -, -, rfl, -, rfl⟩ := h
  exact ingests_of_result hrun hrunId (hrevision.trans hexpected.symm) htarget hcheck id
    run_id_same rfl

theorem createDecision_ingests {runId attemptId : ℕ} {target : RuntimeTarget} {kind prompt : Text}
    {options : List DecisionOption} {ref : Option Text} {revision : Option ℕ}
    {expectedRevision : ℤ} {adapterEventId : Option Text} {cause : RuntimeCause} {o : Offer}
    (hrunId : o.runId = runId) (hexpected : o.expectedRevision = expectedRevision)
    (htarget : o.request.attemptId = some target.attemptId)
    (h : s.createDecision readings runId target kind prompt options ref revision expectedRevision
      adapterEventId cause = .ok (s', value, attemptId)) : Ingests o s s' attemptId := by
  simp only [Ledger.createDecision, Ledger.insertDecision, bind_eq_ok, require_eq_ok,
    orRaise_eq_ok, Ledger.run_eq_ok, expectRevision_eq_ok, pure_eq_ok, Prod.mk.injEq] at h
  obtain ⟨run, ⟨hrun, rfl⟩, _, hrevision, ⟨m, run', attempt⟩, hcheck, -, -, ⟨m', decision⟩,
    ⟨decisions, -, rfl, -⟩, rfl, -, rfl⟩ := h
  exact ingests_of_result hrun hrunId (hrevision.trans hexpected.symm) htarget hcheck
    (fun r => { r with state := .waitingForDecision }) (fun _ => rfl) rfl

end Bodies

/-! ## Calls that offer, and calls that do not -/

section Calls

variable {Digest : Type} [DecidableEq Digest] {platform : Platform Digest}
  {s s' m : Store Digest} {readings : Readings} {call : Call} {o : Offer}

/-- A call that offers something is `offer` of it, and its body ingests it. -/
theorem exec_offered (ho : call.offered platform = some o) (readings : Readings) :
    o.operation.takesEvents = true ∧ ∃ statusCode now body,
      (∀ s, exec platform s (call, readings) = offer platform s o.caller o.operation o.request
        o.expectedRevision o.adapterEventId statusCode now body) ∧
      ∀ s s' value attemptId, WellFormed s → body s = .ok (s', value, attemptId) →
        Ingests o s s' attemptId := by
  cases call with
  | transitionRun runId targetState expectedRevision stage payload target adapterEventId cause
      caller =>
      obtain rfl := Option.some.inj ho
      refine ⟨rfl, 200, readings.clock 2, fun ledger =>
        ledger.transitionRun readings caller.actorId runId targetState expectedRevision stage
          target adapterEventId cause, fun _ => rfl, fun _ _ _ _ hs h => ?_⟩
      exact transitionRun_ingests hs rfl rfl rfl id h
  | recordRuntimeObservation runId target eventType payload expectedRevision adapterEventId cause
      caller =>
      simp only [Call.offered] at ho
      cases hpayload : sanitizeObservation eventType payload with
      | error _ =>
          rw [hpayload] at ho
          cases ho
      | ok sanitized =>
          rw [hpayload] at ho
          obtain rfl := Option.some.inj ho
          refine ⟨rfl, 200, readings.clock 3, fun ledger =>
            ledger.recordRuntimeObservation readings runId target eventType sanitized
              expectedRevision adapterEventId cause, fun s => ?_, fun _ _ _ _ _ h => ?_⟩
          · simp only [exec, recordRuntimeObservation, hpayload, ok_bind]
          · exact recordRuntimeObservation_ingests rfl rfl rfl h
  | appendRuntimeMessage runId target content expectedRevision adapterEventId cause caller =>
      simp only [Call.offered] at ho
      cases hcontent : requiredText content "content" 1000000 with
      | error _ =>
          rw [hcontent] at ho
          cases ho
      | ok trimmed =>
          rw [hcontent] at ho
          obtain rfl := Option.some.inj ho
          refine ⟨rfl, 200, readings.clock 2, fun ledger =>
            ledger.appendRuntimeMessage readings runId target trimmed expectedRevision
              adapterEventId cause, fun s => ?_, fun _ _ _ _ _ h => ?_⟩
          · simp only [exec, appendRuntimeMessage, hcontent, ok_bind]
          · exact appendRuntimeMessage_ingests rfl rfl rfl h
  | commitCheckpoint runId target checkpointUri expectedRevision adapterEventId cause caller =>
      simp only [Call.offered] at ho
      cases huri : requiredText checkpointUri "checkpoint_uri" 4000 with
      | error _ =>
          rw [huri] at ho
          cases ho
      | ok uri =>
          rw [huri] at ho
          simp only [Except.toOption, Option.bind_some] at ho
          split at ho
          · rename_i hroot
            obtain rfl := Option.some.inj ho
            refine ⟨rfl, 200, readings.clock 2, fun ledger =>
              ledger.commitCheckpoint readings runId target uri expectedRevision adapterEventId
                cause, fun s => ?_, fun _ _ _ _ _ h => ?_⟩
            · simp only [exec, commitCheckpoint, huri, ok_bind, hroot, orRaise, require, if_true]
            · exact commitCheckpoint_ingests rfl rfl rfl h
          · cases ho
  | createDecision runId target kind prompt options ref revision expectedRevision adapterEventId
      cause caller =>
      simp only [Call.offered] at ho
      cases hkind : requiredText kind "kind" 100 with
      | error _ =>
          rw [hkind] at ho
          cases ho
      | ok kind =>
      cases hprompt : publicDecisionText prompt "prompt" 20000 with
      | error _ =>
          rw [hkind, hprompt] at ho
          cases ho
      | ok prompt =>
      cases hoptions : validateDecisionOptions options with
      | error _ =>
          rw [hkind, hprompt, hoptions] at ho
          cases ho
      | ok options =>
      cases href : optionalText ref "runtime_decision_ref" 500 with
      | error _ =>
          rw [hkind, hprompt, hoptions, href] at ho
          cases ho
      | ok ref =>
      cases hrevision : validateDecisionRevision revision with
      | error _ =>
          rw [hkind, hprompt, hoptions, href, hrevision] at ho
          cases ho
      | ok revision =>
          rw [hkind, hprompt, hoptions, href, hrevision] at ho
          obtain rfl := Option.some.inj ho
          refine ⟨rfl, 201, readings.clock 2, fun ledger =>
            ledger.createDecision readings runId target kind prompt options ref revision
              expectedRevision adapterEventId cause, fun s => ?_, fun _ _ _ _ _ h => ?_⟩
          · simp only [exec, createDecision, hkind, hprompt, hoptions, href, hrevision, ok_bind]
          · exact createDecision_ingests rfl rfl rfl h
  | _ => cases ho

/-- The inbox is as it was, and no receipt of an operation that takes events is new. -/
structure LeavesInbox (s s' : Store Digest) : Prop where
  inbox : s'.tables.inbox = s.tables.inbox
  receipts : ∀ row ∈ s'.receipts, row ∈ s.receipts ∨ row.operation.takesEvents = false

/-- Whatever a command returns, it leaves the inbox alone. -/
private def Leaving (s : Store Digest)
    (command : Except StoreError (Store Digest × CommandResult Response)) : Prop :=
  ∀ s' result, command = .ok (s', result) → LeavesInbox s s'

omit [DecidableEq Digest] in
private theorem Leaving.bind {α : Type} {x : Except StoreError α}
    {f : α → Except StoreError (Store Digest × CommandResult Response)}
    (h : ∀ a, Leaving s (f a)) : Leaving s (x >>= f) := by
  intro s' result heq
  obtain ⟨a, -, hf⟩ := bind_eq_ok.1 heq
  exact h a s' result hf

omit [DecidableEq Digest] in
/-- A claim that is looked up again answers what its receipt answered. -/
private theorem Leaving.recheck
    {x : Except StoreError (Store Digest × CommandResult Response)}
    {f : Store Digest × CommandResult Response →
      Except StoreError (Store Digest × CommandResult Response)}
    (h : Leaving s x) (hf : ∀ a b, f a = .ok b → a = b) : Leaving s (x >>= f) := by
  intro s' result heq
  obtain ⟨a, hx, hlook⟩ := bind_eq_ok.1 heq
  obtain rfl := hf a _ hlook
  exact h s' result hx

private theorem Leaving.ledgerCommand {caller : Caller} {operation : Operation}
    {request : Request} {statusCode : ℕ} {now : Civil}
    {body : Ledger → Except StoreError (Ledger × Response)}
    (hoperation : operation.takesEvents = false) :
    Leaving s (ledgerCommand platform s caller operation request statusCode now body) := by
  intro s' result h
  simp only [Runs.ledgerCommand, command, bind_eq_ok] at h
  obtain ⟨replay, -, h⟩ := h
  cases replay with
  | some replay =>
      simp only [pure_eq_ok, Prod.mk.injEq] at h
      obtain ⟨rfl, -⟩ := h
      exact ⟨rfl, fun row hrow => .inl hrow⟩
  | none =>
      simp only [bind_eq_ok, saveReceipt, orRaise_eq_ok, pure_eq_ok, Prod.mk.injEq] at h
      obtain ⟨⟨tables, value⟩, ⟨⟨ledger, _⟩, -, rfl, -⟩, ⟨receipts, saved⟩,
        ⟨inserted, hinsert, rfl, -⟩, rfl, -⟩ := h
      refine ⟨rfl, fun row hrow => ?_⟩
      rcases (Table.mem_insert hinsert).1 hrow with hold | rfl
      · exact .inl hold
      · exact .inr hoperation

omit [DecidableEq Digest] in
private theorem Leaving.unreceipted {body : Ledger → Except StoreError (Ledger × Response)} :
    Leaving s (unreceipted s body) := by
  intro s' result h
  simp only [Runs.unreceipted, bind_eq_ok, pure_eq_ok, Prod.mk.injEq] at h
  obtain ⟨⟨ledger, value⟩, -, rfl, -⟩ := h
  exact ⟨rfl, fun row hrow => .inl hrow⟩

/-- The two checks of a claim that is answered by its receipt. -/
private theorem eq_of_lookup {α β : Type} {p : Prop} [Decidable p] {a b : α}
    {look : Except StoreError β} {check : β → Except StoreError Unit}
    (h : (if p then do let row ← look; check row; pure a else pure a) = .ok b) : a = b := by
  split at h
  · simp only [bind_eq_ok, pure_eq_ok] at h
    obtain ⟨-, -, -, -, rfl⟩ := h
    rfl
  · simpa using h

/-- A call that offers nothing leaves the inbox. -/
theorem exec_unoffered {result : CommandResult Response} (ho : call.offered platform = none)
    (h : exec platform s (call, readings) = .ok (s', result)) : LeavesInbox s s' := by
  suffices hleaving : Leaving s (exec platform s (call, readings)) from hleaving s' result h
  cases call with
  | createThread => exact .bind fun _ => .ledgerCommand rfl
  | renameThread => exact .bind fun _ => .ledgerCommand rfl
  | archiveThread =>
      simp only [exec, archiveThread]
      exact .ledgerCommand rfl
  | unarchiveThread =>
      simp only [exec, unarchiveThread]
      exact .ledgerCommand rfl
  | appendMessage => exact .bind fun _ => .ledgerCommand rfl
  | createRun =>
      simp only [exec, createRun]
      exact .ledgerCommand rfl
  | createRuntimeBinding =>
      exact .bind fun _ => .bind fun _ => .bind fun _ => .bind fun _ => .ledgerCommand rfl
  | reserveAttemptDispatch =>
      refine .bind fun _ => .bind fun _ => .bind fun _ => .recheck (.ledgerCommand rfl) ?_
      exact fun _ _ h => eq_of_lookup h
  | pinAttemptRuntime =>
      exact .bind fun _ => .bind fun _ => .bind fun _ => .ledgerCommand rfl
  | failUnboundRun => exact .bind fun _ => .ledgerCommand rfl
  | resumeRun =>
      simp only [exec, resumeRun]
      exact .ledgerCommand rfl
  | retryRun => exact .bind fun _ => .ledgerCommand rfl
  | transitionRun => cases ho
  | recordRuntimeObservation =>
      simp only [exec, recordRuntimeObservation, bind_eq_ok] at h
      obtain ⟨_, hpayload, -⟩ := h
      simp only [Call.offered, hpayload, Except.toOption, Option.map_some] at ho
      cases ho
  | appendRuntimeMessage =>
      simp only [exec, appendRuntimeMessage, bind_eq_ok] at h
      obtain ⟨_, hcontent, -⟩ := h
      simp only [Call.offered, hcontent, Except.toOption, Option.map_some] at ho
      cases ho
  | commitCheckpoint =>
      simp only [exec, commitCheckpoint, bind_eq_ok, orRaise_eq_ok, require_eq_ok] at h
      obtain ⟨_, huri, _, hroot, _, rfl, -⟩ := h
      simp only [Call.offered, huri, Except.toOption, Option.bind_some, if_pos hroot] at ho
      cases ho
  | createDecision =>
      simp only [exec, createDecision, bind_eq_ok] at h
      obtain ⟨_, hkind, _, hprompt, _, hoptions, _, href, _, hrevision, -⟩ := h
      rw [Call.offered, hkind, ok_bind, hprompt, ok_bind, hoptions, ok_bind, href, ok_bind,
        hrevision] at ho
      cases ho
  | resolveDecision => exact .bind fun _ => .ledgerCommand rfl
  | createSourceIntent => exact .bind fun _ => .ledgerCommand rfl
  | resolveSourceIntent =>
      simp only [exec, resolveSourceIntent]
      exact .ledgerCommand rfl
  | claimRuntimeAction =>
      refine .bind fun _ => .bind fun _ => .recheck (.ledgerCommand rfl) ?_
      exact fun _ _ h => eq_of_lookup h
  | claimRuntimeActionReconciliation =>
      refine .bind fun _ => .bind fun _ => .recheck (.ledgerCommand rfl) ?_
      exact fun _ _ h => eq_of_lookup h
  | acknowledgeRuntimeAction => exact .bind fun _ => .ledgerCommand rfl
  | failRuntimeAction => exact .bind fun _ => .bind fun _ => .ledgerCommand rfl
  | rejectRuntimeAction => exact .bind fun _ => .bind fun _ => .ledgerCommand rfl
  | markRuntimeActionOutcomeUnknown => exact .bind fun _ => .bind fun _ => .ledgerCommand rfl
  | deferRuntimeActionReconciliation => exact .bind fun _ => .bind fun _ => .ledgerCommand rfl
  | retryRuntimeActionDelivery => exact .bind fun _ => .ledgerCommand rfl
  | claimPinRelease =>
      refine .bind fun _ => .bind fun _ => .recheck (.ledgerCommand rfl) ?_
      exact fun _ _ h => eq_of_lookup h
  | acknowledgePinRelease => exact .bind fun _ => .ledgerCommand rfl
  | failPinRelease => exact .bind fun _ => .bind fun _ => .ledgerCommand rfl
  | retryPinRelease =>
      simp only [exec, retryPinRelease]
      exact .ledgerCommand rfl
  | createWorkflowDecision =>
      exact .bind fun _ => .bind fun _ => .bind fun _ => .unreceipted
  | settleWorkflowFailure =>
      simp only [exec, settleWorkflowFailure]
      exact .unreceipted
  | reviseRun =>
      simp only [exec, reviseRun]
      exact .unreceipted

end Calls

end Cortex.Runs
