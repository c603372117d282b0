import Cortex.Workflow.Coordinator

/-!
# What a step does to a mutation

One lemma for each command says what it does when it commits, and `Moves` says
what a step does to the effect, the call and the journal.  Everything about runs
is proved from `advance_moves`.
-/

namespace Cortex.Workflow

open Control Time Transaction

variable {ρ : Type}

/-! ## The commands -/

namespace EffectStore

variable {s s' : EffectStore ρ} {value : Loaded ρ} {readings : Readings} {fence : Fence}
  {workerId : Text} {leaseSeconds : ℤ}

/-- A claim of a mutation for dispatch. -/
def dispatched (s : EffectStore ρ) (owner : Text) (expiresAt : Stamp) : EffectStore ρ :=
  { effect := { s.effect with
      state := .claimed owner expiresAt
      claimEpoch := s.effect.claimEpoch + 1, deliveryEpoch := s.effect.deliveryEpoch + 1 }
    audit := (s.effect.claimEpoch + 1, s.effect.deliveryEpoch + 1) :: s.audit }

private theorem claimed_of_held {p : Text × Stamp → Bool}
    (h : s.effect.state.dispatchClaim.any p = true) :
    ∃ owner expiresAt, s.effect.state = .claimed owner expiresAt := by
  cases hstate : s.effect.state with
  | claimed owner expiresAt => exact ⟨owner, expiresAt, rfl⟩
  | _ =>
      rw [hstate] at h
      cases h

private theorem reconciling_of_held {p : Text × Stamp → Bool}
    (h : s.effect.state.reconciliationClaim.any p = true) :
    ∃ owner expiresAt, s.effect.state = .reconciling owner expiresAt := by
  cases hstate : s.effect.state with
  | reconciling owner expiresAt => exact ⟨owner, expiresAt, rfl⟩
  | _ =>
      rw [hstate] at h
      cases h

/-- A claim normalizes a mutation whose claim has run out, or claims a pending one. -/
theorem claimWorkflowEffect_eq_ok (hmutation : s.effect.effectClass = .mutation)
    (h : s.claimWorkflowEffect readings workerId leaseSeconds = .ok (s', value)) :
    value = s'.load ∧
      ((∃ owner expiresAt, s.effect.state = .claimed owner expiresAt) ∧
          s' = s.setState .outcomeUnknown ∨
        s.effect.state = .pending ∧ ∃ owner expiresAt, s' = s.dispatched owner expiresAt) := by
  simp only [claimWorkflowEffect, bind_eq_ok] at h
  obtain ⟨workerId, -, -, -, h⟩ := h
  split at h
  · rename_i hexpired
    simp only [pure_eq_ok, Prod.mk.injEq] at h
    obtain ⟨rfl, rfl⟩ := h
    exact ⟨rfl, .inl ⟨claimed_of_held hexpired.1, rfl⟩⟩
  · rename_i hlive
    simp only [bind_eq_ok, require_eq_ok, orRaise_eq_ok, pure_eq_ok, Prod.mk.injEq] at h
    obtain ⟨-, -, -, hclaimable, expires, -, hs', rfl⟩ := h
    have hpending : s.effect.state = .pending := by
      rcases hclaimable with hpending | hexpired
      · cases hstate : s.effect.state with
        | pending => rfl
        | _ =>
            rw [hstate] at hpending
            cases hpending
      · exact absurd ⟨hexpired, hmutation⟩ hlive
    refine ⟨by rw [hs'], .inr ⟨hpending, workerId, formatTime expires, ?_⟩⟩
    rw [← hs', dispatched]
    simp only [takeClaim, hmutation, if_true]

private theorem expectClaim_eq_ok {isCurrent : Bool} {u : Unit}
    (h : s.expectClaim fence isCurrent = .ok u) :
    isCurrent = true ∧ s.effect.claimEpoch = fence.claimEpoch ∧
      s.effect.deliveryEpoch = fence.deliveryEpoch :=
  require_eq_ok.1 h

/-- The effect is claimed for dispatch, under the epochs of the fence. -/
structure ClaimedBy (s : EffectStore ρ) (fence : Fence) : Prop where
  claimed : ∃ owner expiresAt, s.effect.state = .claimed owner expiresAt
  claimEpoch : s.effect.claimEpoch = fence.claimEpoch
  deliveryEpoch : s.effect.deliveryEpoch = fence.deliveryEpoch

/-- The effect is claimed for reconciliation, under the epochs of the fence. -/
structure ReconciledBy (s : EffectStore ρ) (fence : Fence) : Prop where
  reconciling : ∃ owner expiresAt, s.effect.state = .reconciling owner expiresAt
  claimEpoch : s.effect.claimEpoch = fence.claimEpoch
  deliveryEpoch : s.effect.deliveryEpoch = fence.deliveryEpoch

theorem completeWorkflowEffect_eq_ok {result : ρ}
    (h : s.completeWorkflowEffect readings fence result = .ok (s', value)) :
    s.ClaimedBy fence ∧ s' = s.setState (.completed result) := by
  simp only [completeWorkflowEffect, bind_eq_ok, pure_eq_ok, Prod.mk.injEq] at h
  obtain ⟨_, -, _, hclaim, -, -, -, -, rfl, -⟩ := h
  obtain ⟨hheld, hepoch, hdelivery⟩ := expectClaim_eq_ok hclaim
  exact ⟨⟨claimed_of_held hheld, hepoch, hdelivery⟩, rfl⟩

theorem markWorkflowEffectOutcomeUnknown_eq_ok
    (h : s.markWorkflowEffectOutcomeUnknown fence = .ok (s', value)) :
    s.ClaimedBy fence ∧ s' = s.setState .outcomeUnknown := by
  simp only [markWorkflowEffectOutcomeUnknown, bind_eq_ok, pure_eq_ok, Prod.mk.injEq] at h
  obtain ⟨_, -, -, -, _, hclaim, rfl, -⟩ := h
  obtain ⟨hheld, hepoch, hdelivery⟩ := expectClaim_eq_ok hclaim
  exact ⟨⟨claimed_of_held hheld, hepoch, hdelivery⟩, rfl⟩

theorem rejectWorkflowEffect_eq_ok {category : Text} {result : Option (Disposition ρ)}
    (h : s.rejectWorkflowEffect readings fence category result = .ok (s', value)) :
    (s.ClaimedBy fence ∨ s.ReconciledBy fence) ∧
      ∃ category, s' = s.setState (.failed category) := by
  simp only [rejectWorkflowEffect, bind_eq_ok, pure_eq_ok, Prod.mk.injEq] at h
  obtain ⟨_, -, category', -, -, -, -, -, _, hclaim, -, -, -, -, -, -, rfl, -⟩ := h
  obtain ⟨hheld, hepoch, hdelivery⟩ := expectClaim_eq_ok hclaim
  refine ⟨?_, category', rfl⟩
  cases hstate : s.effect.state with
  | claimed owner expiresAt => exact .inl ⟨⟨owner, expiresAt, hstate⟩, hepoch, hdelivery⟩
  | reconciling owner expiresAt => exact .inr ⟨⟨owner, expiresAt, hstate⟩, hepoch, hdelivery⟩
  | _ =>
      rw [hstate] at hheld
      cases hheld

theorem claimWorkflowEffectReconciliation_eq_ok
    (h : s.claimWorkflowEffectReconciliation readings workerId leaseSeconds = .ok (s', value)) :
    value = s'.load ∧
      (s.effect.state = .outcomeUnknown ∨
        ∃ owner expiresAt, s.effect.state = .reconciling owner expiresAt) ∧
      ∃ owner expiresAt, s' = s.takeClaim (.reconciling owner expiresAt) := by
  simp only [claimWorkflowEffectReconciliation, bind_eq_ok, require_eq_ok, orRaise_eq_ok,
    pure_eq_ok, Prod.mk.injEq] at h
  obtain ⟨workerId, -, -, -, -, -, -, hclaimable, expires, -, rfl, rfl⟩ := h
  refine ⟨rfl, ?_, workerId, formatTime expires, rfl⟩
  rcases hclaimable with hunknown | hexpired
  · left
    cases hstate : s.effect.state with
    | outcomeUnknown => rfl
    | _ =>
        rw [hstate] at hunknown
        cases hunknown
  · exact .inr (reconciling_of_held hexpired)

/-- The state that an answer leads to. -/
def answered : Disposition ρ → EffectState ρ
  | .committed result => .completed result
  | .notFound => .pending
  | .unknown => .manualRequired

theorem completeWorkflowEffectReconciliation_eq_ok {result : Disposition ρ}
    (h : s.completeWorkflowEffectReconciliation readings fence result = .ok (s', value)) :
    s.ReconciledBy fence ∧ s' = s.setState (answered result) := by
  simp only [completeWorkflowEffectReconciliation, bind_eq_ok, pure_eq_ok, Prod.mk.injEq] at h
  obtain ⟨_, -, _, hclaim, -, -, rfl, -⟩ := h
  obtain ⟨hheld, hepoch, hdelivery⟩ := expectClaim_eq_ok hclaim
  refine ⟨⟨reconciling_of_held hheld, hepoch, hdelivery⟩, ?_⟩
  cases result with
  | committed => rfl
  | notFound => rfl
  | unknown => rfl

theorem supersedeWorkflowAttemptEffect_eq_ok {category : Text}
    (h : s.supersedeWorkflowAttemptEffect readings category = .ok (s', value)) :
    s' = s ∨ s.effect.state = .pending ∧ s' = s.setState (.failed category) := by
  simp only [supersedeWorkflowAttemptEffect, bind_eq_ok] at h
  obtain ⟨-, -, -, -, h⟩ := h
  cases hstate : s.effect.state with
  | completed =>
      simp only [hstate, pure_eq_ok, Prod.mk.injEq] at h
      exact .inl h.1.symm
  | failed =>
      simp only [hstate, bind_eq_ok, pure_eq_ok, Prod.mk.injEq] at h
      obtain ⟨-, -, rfl, -⟩ := h
      exact .inl rfl
  | pending =>
      simp only [hstate, pure_eq_ok, Prod.mk.injEq] at h
      exact .inr ⟨rfl, h.1.symm⟩
  | _ => simp only [hstate, throw_eq_ok] at h

end EffectStore

/-! ## The steps -/

namespace Phase

/-- The epoch of the claim for dispatch under which the call will hand the request over. -/
def heldEpoch : Phase ρ → Option ℕ
  | holding _ claim =>
      if claim.effect.state.dispatchClaim.isSome then some claim.effect.claimEpoch else none
  | _ => none

/-- The claim for reconciliation with which the call has asked the adapter. -/
def askedClaim : Phase ρ → Option (Loaded ρ)
  | asking _ claim => some claim
  | _ => none

/-- The call neither holds a claim for dispatch nor has asked. -/
structure IsFree (phase : Phase ρ) : Prop where
  held : phase.heldEpoch = none
  asked : phase.askedClaim = none

end Phase

open EffectStore

/-- What a step does to a mutation. -/
inductive Moves (maxMutationDeliveries : ℕ) (s : System ρ) (event : Event ρ) :
    System ρ → Prop
  /-- The call goes on, or ends. -/
  | gone (phase : Phase ρ) (free : phase.IsFree) : Moves maxMutationDeliveries s event (s.goTo event.call phase)
  | same : Moves maxMutationDeliveries s event s
  /-- The request is handed over. -/
  | handedOver (worker : Worker) (claim : Loaded ρ) (action : event.action = .handOver)
      (phase : s.phase event.call = .holding worker claim) :
      Moves maxMutationDeliveries s event (s.handOver event.call worker claim)
  /-- A pending effect is claimed, by a call that will hand it over or by one that will not. -/
  | dispatched (owner : Text) (expiresAt : Stamp) (phase : Phase ρ)
      (pending : s.store.effect.state = .pending)
      (held : ∀ epoch, phase.heldEpoch = some epoch → epoch = s.store.effect.claimEpoch + 1)
      (asked : phase.askedClaim = none) :
      Moves maxMutationDeliveries s event
        ({ s with store := s.store.dispatched owner expiresAt }.goTo event.call phase)
  /-- A claim has run out, and the outcome is unknown. -/
  | normalized (phase : Phase ρ) (free : phase.IsFree)
      (claimed : ∃ owner expiresAt, s.store.effect.state = .claimed owner expiresAt) :
      Moves maxMutationDeliveries s event
        ({ s with store := s.store.setState .outcomeUnknown }.goTo event.call phase)
  /-- A claim is given up, or the effect fails, or nobody knows. -/
  | settled (state : EffectState ρ) (before : s.store.effect.state.isTerminal = false)
      (pending : state ≠ .pending) (claimed : state.dispatchClaim = none)
      (reconciling : state.reconciliationClaim = none) (phases : ℕ → Phase ρ)
      (unlike : ∀ c, phases c = s.phase c ∨ (phases c).IsFree) :
      Moves maxMutationDeliveries s event
        { s with store := s.store.setState state, phase := phases }
  /-- The result is recorded. -/
  | recorded (result : ρ) (before : s.store.effect.state.isTerminal = false) :
      Moves maxMutationDeliveries s event
        (({ s with store := s.store.setState (.completed result) }.goTo event.call .idle).note .recorded)
  /-- The effect is claimed for reconciliation. -/
  | taken (owner : Text) (expiresAt : Stamp) (worker : Worker)
      (before : s.store.effect.state.isTerminal = false) :
      Moves maxMutationDeliveries s event
        ({ s with store := s.store.takeClaim (.reconciling owner expiresAt) }.goTo event.call
          (.asking worker (s.store.takeClaim (.reconciling owner expiresAt)).load))
  /-- The adapter knows nothing of the request, and it may be handed over again. -/
  | foundNothing (worker : Worker) (claim : Loaded ρ) (phase : s.phase event.call = .asking worker claim)
      (reconciled : s.store.ReconciledBy (claim.fence worker))
      (room : claim.dispatchAttemptCount < maxMutationDeliveries) :
      Moves maxMutationDeliveries s event
        (({ s with store := s.store.setState .pending }.goTo event.call .idle).note .notFound)

section Steps

variable {maxMutationDeliveries : ℕ} {s : System ρ} {event : Event ρ} {readings : Readings} {worker : Worker}
  {claim : Loaded ρ}

theorem isFree_idle : (Phase.idle : Phase ρ).IsFree := ⟨rfl, rfl⟩

/-- Only the call that moves is at another phase. -/
private theorem phase_goTo_free (s : System ρ) (call : ℕ) :
    ∀ c, (s.goTo call .idle).phase c = s.phase c ∨ ((s.goTo call .idle).phase c).IsFree := by
  intro c
  by_cases hc : c = call
  · right
    have hidle : (s.goTo call .idle).phase call = .idle := Function.update_self _ _ _
    rw [hc, hidle]
    exact isFree_idle
  · exact .inl (Function.update_of_ne hc _ _)

private theorem not_terminal_of_claimed {state : EffectState ρ}
    (h : ∃ owner expiresAt, state = .claimed owner expiresAt) : state.isTerminal = false := by
  obtain ⟨owner, expiresAt, rfl⟩ := h
  rfl

private theorem not_terminal_of_reconciling {state : EffectState ρ}
    (h : ∃ owner expiresAt, state = .reconciling owner expiresAt) : state.isTerminal = false := by
  obtain ⟨owner, expiresAt, rfl⟩ := h
  rfl

/-- A call that settles the effect and ends. -/
private theorem moves_settled (state : EffectState ρ)
    (before : s.store.effect.state.isTerminal = false) (pending : state ≠ .pending)
    (claimed : state.dispatchClaim = none) (reconciling : state.reconciliationClaim = none) :
    Moves maxMutationDeliveries s event
      ({ s with store := s.store.setState state }.goTo event.call .idle) :=
  .settled state before pending claimed reconciling _ (phase_goTo_free s event.call)

/-- A transaction moves the call on when it commits, and ends it when it raises. -/
private theorem transact_moves {outcome : Except StoreError (EffectStore ρ × Loaded ρ)}
    {next : Loaded ρ → Phase ρ}
    (h : ∀ store value, outcome = .ok (store, value) →
      Moves maxMutationDeliveries s event ({ s with store }.goTo event.call (next value))) :
    Moves maxMutationDeliveries s event (s.transact event.call outcome next) := by
  cases outcome with
  | error => exact .gone .idle isFree_idle
  | ok committed => exact h committed.1 committed.2 rfl

/-- The same for a transaction that leaves an entry. -/
private theorem noted_moves {outcome : Except StoreError (EffectStore ρ × Loaded ρ)} {entry : Entry}
    (h : ∀ store value, outcome = .ok (store, value) →
      Moves maxMutationDeliveries s event (({ s with store }.goTo event.call .idle).note entry)) :
    Moves maxMutationDeliveries s event
      ((s.transact event.call outcome fun _ => .idle).noteCommitted entry outcome) := by
  cases outcome with
  | error => exact .gone .idle isFree_idle
  | ok committed => exact h committed.1 committed.2 rfl

private theorem classify_moves :
    Moves maxMutationDeliveries s event (s.classify event.call readings worker) := by
  unfold System.classify
  split
  · exact .gone _ ⟨rfl, rfl⟩
  · exact .gone _ ⟨rfl, rfl⟩
  · exact .same

private theorem claim_moves (hmutation : s.store.effect.effectClass = .mutation) :
    Moves maxMutationDeliveries s event (s.claim event.call readings worker) := by
  refine transact_moves fun store value h => ?_
  obtain ⟨rfl, ⟨hclaimed, rfl⟩ | ⟨hpending, owner, expiresAt, rfl⟩⟩ :=
    claimWorkflowEffect_eq_ok hmutation h
  · exact .normalized _ ⟨rfl, rfl⟩ hclaimed
  · refine .dispatched owner expiresAt _ hpending (fun epoch hepoch => ?_) rfl
    exact (Option.some.inj hepoch).symm

private theorem normalize_moves (hmutation : s.store.effect.effectClass = .mutation)
    {wasClaimed : Bool} :
    Moves maxMutationDeliveries s event (s.normalize event.call readings worker wasClaimed) := by
  unfold System.normalize
  split
  · refine transact_moves fun store value h => ?_
    obtain ⟨rfl, ⟨hclaimed, rfl⟩ | ⟨hpending, owner, expiresAt, rfl⟩⟩ :=
      claimWorkflowEffect_eq_ok hmutation h
    · exact .normalized _ ⟨rfl, rfl⟩ hclaimed
    · refine .dispatched owner expiresAt _ hpending (fun epoch hepoch => ?_) rfl
      cases hepoch
  · exact .gone _ ⟨rfl, rfl⟩

/-- A rejection settles the effect, under either kind of claim. -/
private theorem reject_moves {category : Text} {result : Option (Disposition ρ)} :
    Moves maxMutationDeliveries s event
      (s.transact event.call (s.store.rejectWorkflowEffect readings (claim.fence worker) category result)
        fun _ => .idle) := by
  refine transact_moves fun store value h => ?_
  obtain ⟨hclaim, category, rfl⟩ := rejectWorkflowEffect_eq_ok h
  refine moves_settled (.failed category) ?_ (by intro h; cases h) rfl rfl
  rcases hclaim with hclaim | hclaim
  · exact not_terminal_of_claimed hclaim.claimed
  · exact not_terminal_of_reconciling hclaim.reconciling

private theorem reply_moves {answer : Reply ρ} :
    Moves maxMutationDeliveries s event (s.reply event.call readings worker claim answer) := by
  cases answer with
  | result value =>
      refine noted_moves fun store value h => ?_
      obtain ⟨hclaim, rfl⟩ := completeWorkflowEffect_eq_ok h
      exact .recorded _ (not_terminal_of_claimed hclaim.claimed)
  | permanentlyRejected category => exact reject_moves
  | outcomeUnknown =>
      simp only [System.reply]
      split
      · exact .gone .idle isFree_idle
      · refine transact_moves fun store value h => ?_
        obtain ⟨hclaim, rfl⟩ := markWorkflowEffectOutcomeUnknown_eq_ok h
        exact moves_settled .outcomeUnknown (not_terminal_of_claimed hclaim.claimed)
          (by intro h; cases h) rfl rfl

private theorem claimReconciliation_moves :
    Moves maxMutationDeliveries s event (s.claimReconciliation event.call readings worker) := by
  refine transact_moves fun store value h => ?_
  obtain ⟨rfl, hbefore, owner, expiresAt, rfl⟩ := claimWorkflowEffectReconciliation_eq_ok h
  refine .taken owner expiresAt worker ?_
  rcases hbefore with hunknown | hreconciling
  · rw [hunknown]
    rfl
  · exact not_terminal_of_reconciling hreconciling

private theorem answer_moves {disposition : Disposition ρ}
    (hphase : s.phase event.call = .asking worker claim) :
    Moves maxMutationDeliveries s event
      (s.answer maxMutationDeliveries event.call readings worker claim disposition) := by
  cases disposition with
  | committed value =>
      refine noted_moves fun store value h => ?_
      obtain ⟨hclaim, rfl⟩ := completeWorkflowEffectReconciliation_eq_ok h
      exact .recorded _ (not_terminal_of_reconciling hclaim.reconciling)
  | notFound =>
      simp only [System.answer]
      split
      · exact reject_moves
      · rename_i hroom
        refine noted_moves fun store value h => ?_
        obtain ⟨hclaim, rfl⟩ := completeWorkflowEffectReconciliation_eq_ok h
        exact .foundNothing worker claim hphase hclaim (Nat.lt_of_not_le hroom)
  | unknown =>
      refine transact_moves fun store value h => ?_
      obtain ⟨hclaim, rfl⟩ := completeWorkflowEffectReconciliation_eq_ok h
      exact moves_settled .manualRequired
        (not_terminal_of_reconciling hclaim.reconciling) (by intro h; cases h) rfl rfl

private theorem supersede_moves {category : Text} :
    Moves maxMutationDeliveries s event (s.supersede readings category) := by
  unfold System.supersede
  cases h : s.store.supersedeWorkflowAttemptEffect readings category with
  | error => exact .same
  | ok committed =>
      obtain ⟨store, value⟩ := committed
      rcases supersedeWorkflowAttemptEffect_eq_ok h with rfl | ⟨hpending, rfl⟩
      · exact .same
      · refine .settled _ ?_ (by intro h; cases h) rfl rfl s.phase fun _ => .inl rfl
        rw [hpending]
        rfl

/-- Every step of the calls at work on a mutation moves it so. -/
theorem advance_moves (hmutation : s.store.effect.effectClass = .mutation) :
    Moves maxMutationDeliveries s event (advance maxMutationDeliveries s event) := by
  unfold advance
  split
  · exact classify_moves
  · exact claim_moves hmutation
  · exact .handedOver _ _ ‹_› ‹_›
  · exact reply_moves
  · exact normalize_moves hmutation
  · exact claimReconciliation_moves
  · exact answer_moves ‹_›
  · exact .gone .idle isFree_idle
  · exact supersede_moves
  · exact .same

end Steps

end Cortex.Workflow
