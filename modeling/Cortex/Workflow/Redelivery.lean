import Cortex.Workflow.Moves

/-!
# How often a request is handed over

The dispatch audit counts the claims for dispatch.  A pending effect was claimed
less often than a mutation may be delivered, because `_reconcile` gives up an
effect that was claimed that often.  So the number of deliveries is bounded, as
long as each is made under a claim of its own.

`_dispatch` does not look at the state that the claim returns: when it is
`outcome_unknown` the request is handed over under no claim at all.  The bound is
about the runs in which every request is handed over under the claim that the
effect still has (`UnderOwnClaim`).
-/

namespace Cortex.Workflow

open Control Time Transaction

variable {ρ : Type} {maxMutationDeliveries : ℕ} {s : System ρ}

/-! ## The journal -/

/-- The epochs under which the request was handed over, the latest first. -/
def deliveries : List Entry → List ℕ
  | [] => []
  | .delivered epoch :: journal => epoch :: deliveries journal
  | _ :: journal => deliveries journal

/-- The latest delivery, when no reconciliation has answered `not_found` since. -/
def openDelivery : List Entry → Option ℕ
  | [] => none
  | .delivered epoch :: _ => some epoch
  | .notFound :: _ => none
  | .recorded :: journal => openDelivery journal

/-- Nothing is handed over while a delivery is open. -/
def Alternates : List Entry → Prop
  | [] => True
  | .delivered _ :: journal => openDelivery journal = none ∧ Alternates journal
  | _ :: journal => Alternates journal

theorem mem_deliveries_of_open {journal : List Entry} {epoch : ℕ}
    (h : openDelivery journal = some epoch) : epoch ∈ deliveries journal := by
  induction journal with
  | nil => cases h
  | cons entry journal ih =>
      cases entry with
      | delivered epoch' =>
          obtain rfl := Option.some.inj h
          exact .head _
      | notFound => cases h
      | recorded => exact ih h

/-- A delivery stays open until a reconciliation answers `not_found`. -/
theorem openDelivery_ne_none {between earlier : List Entry} {epoch : ℕ}
    (h : Entry.notFound ∉ between) :
    openDelivery (between ++ .delivered epoch :: earlier) ≠ none := by
  induction between with
  | nil => exact Option.some_ne_none epoch
  | cons entry between ih =>
      cases entry with
      | delivered epoch' => exact Option.some_ne_none epoch'
      | notFound => exact absurd (.head _) h
      | recorded => exact ih fun hmem => h (.tail _ hmem)

/-- Between two deliveries a reconciliation answered `not_found`. -/
theorem Alternates.notFound_between {later between earlier : List Entry} {epoch epoch' : ℕ}
    (h : Alternates (later ++ .delivered epoch' :: (between ++ .delivered epoch :: earlier))) :
    Entry.notFound ∈ between := by
  induction later with
  | nil =>
      by_contra hnone
      exact openDelivery_ne_none hnone h.1
  | cons entry later ih =>
      cases entry with
      | delivered => exact ih h.2
      | notFound => exact ih h
      | recorded => exact ih h

/-! ## The invariant -/

/-- The epochs of the claims for dispatch. -/
def EffectStore.dispatchEpochs (s : EffectStore ρ) : List ℕ := s.audit.map Prod.fst

/-- Every call that will hand the request over has an audited claim of its own; a call that has
asked knows how often the effect was claimed. -/
structure CallsAgree (s : System ρ) : Prop where
  held : ∀ call epoch, (s.phase call).heldEpoch = some epoch →
    epoch ∈ s.store.dispatchEpochs ∧ epoch ∉ deliveries s.journal
  unique : ∀ call call' epoch, (s.phase call).heldEpoch = some epoch →
    (s.phase call').heldEpoch = some epoch → call = call'
  askedBefore : ∀ call claim, (s.phase call).askedClaim = some claim →
    claim.effect.claimEpoch ≤ s.store.effect.claimEpoch
  asked : ∀ call claim, (s.phase call).askedClaim = some claim →
    s.store.effect.state.reconciliationClaim.isSome →
      claim.effect.claimEpoch = s.store.effect.claimEpoch →
        claim.dispatchAttemptCount = s.store.audit.length

/-- The claims and the journal agree. -/
structure Accounted (maxMutationDeliveries : ℕ) (s : System ρ) : Prop extends CallsAgree s where
  mutation : s.store.effect.effectClass = .mutation
  bounded : s.store.audit.length ≤ maxMutationDeliveries
  room : s.store.effect.state = .pending → s.store.audit.length < maxMutationDeliveries
  epochs : ∀ epoch ∈ s.store.dispatchEpochs, epoch ≤ s.store.effect.claimEpoch
  once : (deliveries s.journal).Nodup
  claimed : ∀ epoch ∈ deliveries s.journal, epoch ∈ s.store.dispatchEpochs
  opened : ∀ epoch, openDelivery s.journal = some epoch → s.store.effect.state ≠ .pending ∧
    (s.store.effect.state.dispatchClaim.isSome → s.store.effect.claimEpoch = epoch)
  alternates : Alternates s.journal
  results : s.journal.count .recorded ≤ 1
  completed : .recorded ∈ s.journal → s.store.effect.state.isTerminal

/-- The call that hands the request over holds a claim for dispatch, and it is still the claim of
the effect. -/
def UnderOwnClaim (s : System ρ) (event : Event ρ) : Prop :=
  ∀ worker claim, event.action = .handOver → s.phase event.call = .holding worker claim →
    claim.effect.state.dispatchClaim.isSome ∧ s.store.effect.state.dispatchClaim.isSome ∧
      s.store.effect.claimEpoch = claim.effect.claimEpoch

/-! ## The calls -/

/-- One call is at another phase, the others stay. -/
theorem phase_goTo (s : System ρ) (call : ℕ) (phase : Phase ρ) (c : ℕ) :
    (s.goTo call phase).phase c = if c = call then phase else s.phase c :=
  Function.update_apply s.phase call phase c

theorem phase_goTo_of_free (s : System ρ) (call : ℕ) {phase : Phase ρ} (h : phase.IsFree) :
    ∀ c, (s.goTo call phase).phase c = s.phase c ∨ ((s.goTo call phase).phase c).IsFree := by
  intro c
  rw [phase_goTo]
  split
  · exact .inr h
  · exact .inl rfl

/-- Calls that go free, while no claim is taken and nothing is handed over. -/
theorem CallsAgree.of_free (hs : CallsAgree s) (s' : System ρ)
    (hphase : ∀ c, s'.phase c = s.phase c ∨ (s'.phase c).IsFree)
    (haudit : s'.store.audit = s.store.audit)
    (hepoch : s'.store.effect.claimEpoch = s.store.effect.claimEpoch)
    (hjournal : deliveries s'.journal = deliveries s.journal)
    (hreconciling : s'.store.effect.state.reconciliationClaim.isSome →
      s.store.effect.state.reconciliationClaim.isSome) : CallsAgree s' := by
  have hheld : ∀ c epoch, (s'.phase c).heldEpoch = some epoch →
      (s.phase c).heldEpoch = some epoch := by
    intro c epoch h
    rcases hphase c with hsame | hfree
    · exact hsame ▸ h
    · rw [hfree.held] at h
      cases h
  have hasked : ∀ c claim, (s'.phase c).askedClaim = some claim →
      (s.phase c).askedClaim = some claim := by
    intro c claim h
    rcases hphase c with hsame | hfree
    · exact hsame ▸ h
    · rw [hfree.asked] at h
      cases h
  refine ⟨fun c epoch h => ?_, fun c c' epoch h h' => ?_, fun c claim h => ?_,
    fun c claim h hstate heq => ?_⟩
  · rw [EffectStore.dispatchEpochs, haudit, hjournal]
    exact hs.held c epoch (hheld c epoch h)
  · exact hs.unique c c' epoch (hheld c epoch h) (hheld c' epoch h')
  · rw [hepoch]
    exact hs.askedBefore c claim (hasked c claim h)
  · rw [haudit]
    exact hs.asked c claim (hasked c claim h) (hreconciling hstate) (heq.trans hepoch)

/-! ## The steps -/

section Kept

variable {event : Event ρ}

/-- A result that was recorded is the end of the effect. -/
private theorem no_record (hs : Accounted maxMutationDeliveries s)
    (hlive : s.store.effect.state.isTerminal = false) : Entry.recorded ∉ s.journal := by
  intro hrecorded
  have hterminal := hs.completed hrecorded
  rw [hlive] at hterminal
  cases hterminal

theorem handOver_accounted {worker : Worker} {claim : Loaded ρ}
    (hs : Accounted maxMutationDeliveries s) (hphase : s.phase event.call = .holding worker claim)
    (hclaim : claim.effect.state.dispatchClaim.isSome)
    (hclaimed : s.store.effect.state.dispatchClaim.isSome)
    (hepoch : s.store.effect.claimEpoch = claim.effect.claimEpoch) :
    Accounted maxMutationDeliveries (s.handOver event.call worker claim) := by
  have hheld : (s.phase event.call).heldEpoch = some claim.effect.claimEpoch := by
    rw [hphase]
    exact if_pos hclaim
  obtain ⟨hmem, hfresh⟩ := hs.held _ _ hheld
  have hclosed : openDelivery s.journal = none := by
    cases hopen : openDelivery s.journal with
    | none => rfl
    | some epoch =>
        have heq := (hs.opened epoch hopen).2 hclaimed
        exact absurd (heq.symm.trans hepoch ▸ mem_deliveries_of_open hopen) hfresh
  have hpending : s.store.effect.state ≠ .pending := by
    intro hpending
    rw [hpending] at hclaimed
    cases hclaimed
  have hcalls := hs.toCallsAgree.of_free (s.goTo event.call (.handedOver worker claim))
    (phase_goTo_of_free s event.call ⟨rfl, rfl⟩) rfl rfl rfl id
  refine { hcalls with
    mutation := hs.mutation, bounded := hs.bounded, room := hs.room, epochs := hs.epochs
    held := ?_, once := ?_, claimed := ?_, opened := ?_, alternates := ⟨hclosed, hs.alternates⟩
    results := ?_, completed := ?_ }
  · intro c epoch h
    obtain ⟨hin, hout⟩ := hcalls.held c epoch h
    refine ⟨hin, fun hdelivered => ?_⟩
    rcases List.mem_cons.1 hdelivered with rfl | hdelivered
    · -- the call that hands over is free now, and no other one holds its claim
      have hother : ((s.goTo event.call (.handedOver worker claim)).phase c).heldEpoch =
          some claim.effect.claimEpoch := h
      rw [phase_goTo] at hother
      split at hother
      · cases hother
      · rename_i hne
        exact hne (hs.unique c event.call _ hother hheld)
    · exact hout hdelivered
  · exact List.nodup_cons.2 ⟨hfresh, hs.once⟩
  · intro epoch hdelivered
    rcases List.mem_cons.1 hdelivered with rfl | hdelivered
    · exact hmem
    · exact hs.claimed epoch hdelivered
  · intro epoch hopen
    obtain rfl := Option.some.inj hopen
    exact ⟨hpending, fun _ => hepoch⟩
  · exact (List.count_cons_of_ne (by intro h; cases h)).trans_le hs.results
  · intro hrecorded
    rcases List.mem_cons.1 hrecorded with heq | hrecorded
    · cases heq
    · exact hs.completed hrecorded

theorem dispatched_accounted {owner : Text} {expiresAt : Stamp} {phase : Phase ρ}
    (hs : Accounted maxMutationDeliveries s) (hpending : s.store.effect.state = .pending)
    (hheld : ∀ epoch, phase.heldEpoch = some epoch → epoch = s.store.effect.claimEpoch + 1)
    (hasked : phase.askedClaim = none) :
    Accounted maxMutationDeliveries
      ({ s with store := s.store.dispatched owner expiresAt }.goTo event.call phase) := by
  have hnew : s.store.effect.claimEpoch + 1 ∉ s.store.dispatchEpochs := by
    intro hmem
    have := hs.epochs _ hmem
    omega
  have hold : ∀ c epoch, ¬c = event.call → (s.phase c).heldEpoch = some epoch →
      epoch ≠ s.store.effect.claimEpoch + 1 := by
    rintro c epoch - h rfl
    exact hnew (hs.held c _ h).1
  refine
    { held := ?_, unique := ?_, askedBefore := ?_, asked := ?_, mutation := hs.mutation
      bounded := hs.room hpending, room := ?_, epochs := ?_, once := hs.once, claimed := ?_
      opened := ?_, alternates := hs.alternates, results := hs.results, completed := ?_ }
  · intro c epoch h
    rw [phase_goTo] at h
    split at h
    · obtain rfl := hheld epoch h
      exact ⟨.head _, fun hdelivered => hnew (hs.claimed _ hdelivered)⟩
    · obtain ⟨hin, hout⟩ := hs.held c epoch h
      exact ⟨.tail _ hin, hout⟩
  · intro c c' epoch h h'
    rw [phase_goTo] at h h'
    split at h <;> split at h'
    · exact ‹c = event.call›.trans ‹c' = event.call›.symm
    · exact absurd (hheld epoch h) (hold c' epoch ‹_› h')
    · exact absurd (hheld epoch h') (hold c epoch ‹_› h)
    · exact hs.unique c c' epoch h h'
  · intro c claim h
    rw [phase_goTo] at h
    split at h
    · rw [hasked] at h
      cases h
    · exact Nat.le_succ_of_le (hs.askedBefore c claim h)
  · intro c claim _ hreconciling
    cases hreconciling
  · intro hstate
    cases hstate
  · intro epoch hmem
    rcases List.mem_cons.1 hmem with rfl | hmem
    · exact Nat.le_refl _
    · exact Nat.le_succ_of_le (hs.epochs epoch hmem)
  · exact fun epoch hdelivered => .tail _ (hs.claimed epoch hdelivered)
  · intro epoch hopen
    exact absurd hpending (hs.opened epoch hopen).1
  · intro hrecorded
    refine absurd hrecorded (no_record (s := s) hs ?_)
    rw [hpending]
    rfl

/-- The effect goes to a state in which nobody holds it. -/
theorem settled_accounted (state : EffectState ρ) {phases : ℕ → Phase ρ}
    (hs : Accounted maxMutationDeliveries s) (hlive : s.store.effect.state.isTerminal = false)
    (hpending : state ≠ .pending) (hclaimed : state.dispatchClaim = none)
    (hreconciling : state.reconciliationClaim = none)
    (hphase : ∀ c, phases c = s.phase c ∨ (phases c).IsFree) :
    Accounted maxMutationDeliveries
      { s with store := s.store.setState state, phase := phases } := by
  have hcalls := hs.toCallsAgree.of_free
    { s with store := s.store.setState state, phase := phases } hphase rfl rfl rfl (by
      intro h
      rw [EffectStore.setState, hreconciling] at h
      cases h)
  refine
    { hcalls with
      mutation := hs.mutation, bounded := hs.bounded, room := fun h => absurd h hpending
      epochs := hs.epochs, once := hs.once, claimed := hs.claimed, opened := ?_
      alternates := hs.alternates, results := hs.results
      completed := fun hrecorded => absurd hrecorded (no_record (s := s) hs hlive) }
  intro epoch hopen
  refine ⟨hpending, fun h => ?_⟩
  rw [EffectStore.setState, hclaimed] at h
  cases h

/-- A result is recorded once. -/
theorem recorded_accounted {result : ρ} (hs : Accounted maxMutationDeliveries s)
    (hlive : s.store.effect.state.isTerminal = false) :
    Accounted maxMutationDeliveries
      (({ s with store := s.store.setState (.completed result) }.goTo event.call .idle).note
        .recorded) := by
  have hsettled := settled_accounted (.completed result) hs hlive
    (by intro h; cases h) rfl rfl (phase_goTo_of_free s event.call isFree_idle)
  refine
    { hsettled with results := ?_, completed := fun _ => rfl }
  have hnone := List.count_eq_zero.2 (no_record hs hlive)
  have hcons : (Entry.recorded :: s.journal).count .recorded = s.journal.count .recorded + 1 :=
    List.count_cons_self
  exact (hcons.trans (by rw [hnone])).le

theorem taken_accounted {owner : Text} {expiresAt : Stamp} {worker : Worker}
    (hs : Accounted maxMutationDeliveries s) (hlive : s.store.effect.state.isTerminal = false) :
    Accounted maxMutationDeliveries
      ({ s with store := s.store.takeClaim (.reconciling owner expiresAt) }.goTo event.call
        (.asking worker (s.store.takeClaim (.reconciling owner expiresAt)).load)) := by
  refine
    { held := ?_, unique := ?_, askedBefore := ?_, asked := ?_, mutation := hs.mutation
      bounded := hs.bounded, room := ?_, epochs := ?_, once := hs.once, claimed := hs.claimed
      opened := ?_, alternates := hs.alternates, results := hs.results
      completed := fun hrecorded => absurd hrecorded (no_record (s := s) hs hlive) }
  · intro c epoch h
    rw [phase_goTo] at h
    split at h
    · cases h
    · exact hs.held c epoch h
  · intro c c' epoch h h'
    rw [phase_goTo] at h h'
    split at h
    · cases h
    · split at h'
      · cases h'
      · exact hs.unique c c' epoch h h'
  · intro c claim h
    rw [phase_goTo] at h
    split at h
    · obtain rfl := Option.some.inj h
      exact Nat.le_refl _
    · exact Nat.le_succ_of_le (hs.askedBefore c claim h)
  · intro c claim h _ heq
    rw [phase_goTo] at h
    split at h
    · obtain rfl := Option.some.inj h
      rfl
    · have hbefore := hs.askedBefore c claim h
      have hnow : claim.effect.claimEpoch = s.store.effect.claimEpoch + 1 := heq
      omega
  · intro hstate
    cases hstate
  · exact fun epoch hmem => Nat.le_succ_of_le (hs.epochs epoch hmem)
  · intro epoch _
    refine ⟨(by intro h; cases h), fun h => ?_⟩
    cases h

theorem foundNothing_accounted {worker : Worker} {claim : Loaded ρ}
    (hs : Accounted maxMutationDeliveries s) (hphase : s.phase event.call = .asking worker claim)
    (hreconciled : s.store.ReconciledBy (claim.fence worker))
    (hroom : claim.dispatchAttemptCount < maxMutationDeliveries) :
    Accounted maxMutationDeliveries
      (({ s with store := s.store.setState .pending }.goTo event.call .idle).note .notFound) := by
  obtain ⟨⟨owner, expiresAt, hstate⟩, hepoch, -⟩ := hreconciled
  have hcount : claim.dispatchAttemptCount = s.store.audit.length := by
    refine hs.asked event.call claim ?_ ?_ hepoch.symm
    · rw [hphase]
      rfl
    · rw [hstate]
      rfl
  have hlive : s.store.effect.state.isTerminal = false := by
    rw [hstate]
    rfl
  have hcalls := hs.toCallsAgree.of_free
    ({ s with store := s.store.setState .pending }.goTo event.call .idle)
    (phase_goTo_of_free s event.call isFree_idle) rfl rfl rfl (by intro h; cases h)
  refine
    { hcalls with
      mutation := hs.mutation, bounded := hs.bounded, room := fun _ => hcount ▸ hroom
      epochs := hs.epochs, once := hs.once, claimed := hs.claimed
      opened := by intro epoch hopen; cases hopen
      alternates := hs.alternates, results := ?_, completed := ?_ }
  · exact (List.count_cons_of_ne (by decide)).trans_le hs.results
  · intro hrecorded
    rcases List.mem_cons.1 hrecorded with heq | hrecorded
    · cases heq
    · exact absurd hrecorded (no_record (s := s) hs hlive)

/-- A step under its own claim keeps the accounts. -/
theorem advance_accounted (hs : Accounted maxMutationDeliveries s) (hown : UnderOwnClaim s event) :
    Accounted maxMutationDeliveries (advance maxMutationDeliveries s event) := by
  have hmoves : Moves maxMutationDeliveries s event (advance maxMutationDeliveries s event) :=
    advance_moves hs.mutation
  generalize advance maxMutationDeliveries s event = s' at hmoves ⊢
  cases hmoves with
  | gone phase free =>
      have hcalls := hs.toCallsAgree.of_free (s.goTo event.call phase)
        (phase_goTo_of_free s event.call free) rfl rfl rfl id
      exact { hs with toCallsAgree := hcalls }
  | same => exact hs
  | handedOver worker claim action phase =>
      obtain ⟨hclaim, hclaimed, hepoch⟩ := hown worker claim action phase
      exact handOver_accounted hs phase hclaim hclaimed hepoch
  | dispatched owner expiresAt phase pending held asked =>
      exact dispatched_accounted hs pending held asked
  | normalized phase free claimed =>
      refine settled_accounted .outcomeUnknown hs ?_ (by intro h; cases h) rfl rfl
        (phase_goTo_of_free s event.call free)
      obtain ⟨owner, expiresAt, hstate⟩ := claimed
      rw [hstate]
      rfl
  | settled state before pending claimed reconciling phases unlike =>
      exact settled_accounted state hs before pending claimed reconciling unlike
  | recorded result before => exact recorded_accounted hs before
  | taken owner expiresAt worker before => exact taken_accounted hs before
  | foundNothing worker claim phase reconciled room =>
      exact foundNothing_accounted hs phase reconciled room

/-! ## What holds of every step -/

/-- An effect that has ended stays as it is. -/
theorem advance_terminal (hmutation : s.store.effect.effectClass = .mutation)
    (hterminal : s.store.effect.state.isTerminal = true) :
    (advance maxMutationDeliveries s event).store = s.store := by
  have hmoves : Moves maxMutationDeliveries s event (advance maxMutationDeliveries s event) :=
    advance_moves hmutation
  generalize advance maxMutationDeliveries s event = s' at hmoves ⊢
  cases hmoves with
  | gone => rfl
  | same => rfl
  | handedOver => rfl
  | dispatched owner expiresAt phase pending =>
      rw [pending] at hterminal
      cases hterminal
  | normalized phase free claimed =>
      obtain ⟨owner, expiresAt, hstate⟩ := claimed
      rw [hstate] at hterminal
      cases hterminal
  | settled state before =>
      rw [before] at hterminal
      cases hterminal
  | recorded result before =>
      rw [before] at hterminal
      cases hterminal
  | taken owner expiresAt worker before =>
      rw [before] at hterminal
      cases hterminal
  | foundNothing worker claim phase reconciled =>
      obtain ⟨owner, expiresAt, hstate⟩ := reconciled.reconciling
      rw [hstate] at hterminal
      cases hterminal

/-- Epochs never go back. -/
theorem advance_epochs (hmutation : s.store.effect.effectClass = .mutation) :
    s.store.effect.claimEpoch ≤ (advance maxMutationDeliveries s event).store.effect.claimEpoch ∧
      s.store.effect.deliveryEpoch ≤
        (advance maxMutationDeliveries s event).store.effect.deliveryEpoch := by
  have hmoves : Moves maxMutationDeliveries s event (advance maxMutationDeliveries s event) :=
    advance_moves hmutation
  generalize advance maxMutationDeliveries s event = s' at hmoves ⊢
  cases hmoves with
  | dispatched => exact ⟨Nat.le_succ _, Nat.le_succ _⟩
  | taken => exact ⟨Nat.le_succ _, Nat.le_succ _⟩
  | _ => exact ⟨Nat.le_refl _, Nat.le_refl _⟩

end Kept

/-! ## Runs -/

/-- What the store and the coordinators promise of the redelivery of a mutation. -/
structure BoundedRedelivery (maxMutationDeliveries : ℕ) (s : System ρ) : Prop where
  /-- The request is handed over at most so often. -/
  bounded : (deliveries s.journal).length ≤ maxMutationDeliveries
  /-- Between two deliveries a reconciliation answered `not_found`. -/
  reconciled : ∀ later between earlier epoch epoch',
    s.journal = later ++ .delivered epoch' :: (between ++ .delivered epoch :: earlier) →
      .notFound ∈ between
  /-- At most one result was recorded. -/
  results : s.journal.count .recorded ≤ 1
  /-- A claim for dispatch takes higher epochs. -/
  dispatchEpochs : ∀ readings workerId leaseSeconds store value,
    s.store.claimWorkflowEffect readings workerId leaseSeconds = .ok (store, value) →
      value.effect.state.dispatchClaim.isSome →
        s.store.effect.claimEpoch < store.effect.claimEpoch ∧
          s.store.effect.deliveryEpoch < store.effect.deliveryEpoch
  /-- So does a claim for reconciliation. -/
  reconciliationEpochs : ∀ readings workerId leaseSeconds store value,
    s.store.claimWorkflowEffectReconciliation readings workerId leaseSeconds =
      .ok (store, value) →
        s.store.effect.claimEpoch < store.effect.claimEpoch ∧
          s.store.effect.deliveryEpoch < store.effect.deliveryEpoch
  /-- No step lowers them. -/
  epochs : ∀ event : Event ρ,
    s.store.effect.claimEpoch ≤ (advance maxMutationDeliveries s event).store.effect.claimEpoch ∧
      s.store.effect.deliveryEpoch ≤
        (advance maxMutationDeliveries s event).store.effect.deliveryEpoch
  /-- A completion under older epochs does not commit. -/
  stale : ∀ readings fence, (fence.claimEpoch < s.store.effect.claimEpoch ∨
      fence.deliveryEpoch < s.store.effect.deliveryEpoch) → ∀ committed,
    (∀ result, s.store.completeWorkflowEffect readings fence result ≠ .ok committed) ∧
      ∀ disposition,
        s.store.completeWorkflowEffectReconciliation readings fence disposition ≠ .ok committed
  /-- An effect that has ended stays as it is in every further run. -/
  absorbing : s.store.effect.state.isTerminal = true → ∀ events s',
    History (Step maxMutationDeliveries) s events s' → s'.store.effect = s.store.effect

private theorem initial_accounted (hm : 1 ≤ maxMutationDeliveries) :
    Accounted maxMutationDeliveries (System.initial : System ρ) where
  held _ _ h := by cases h
  unique _ _ _ h := by cases h
  askedBefore _ _ h := by cases h
  asked _ _ h := by cases h
  mutation := rfl
  bounded := Nat.zero_le _
  room _ := hm
  epochs _ h := by cases h
  once := List.nodup_nil
  claimed _ h := by cases h
  opened _ h := by cases h
  alternates := trivial
  results := Nat.zero_le _
  completed h := by cases h

/-- The deliveries are among the claims for dispatch, each under a claim of its own. -/
theorem Accounted.deliveries_le (hs : Accounted maxMutationDeliveries s) :
    (deliveries s.journal).length ≤ maxMutationDeliveries := by
  have hsubperm := List.subperm_of_subset hs.once hs.claimed
  calc (deliveries s.journal).length
      ≤ s.store.dispatchEpochs.length := hsubperm.length_le
    _ = s.store.audit.length := List.length_map _
    _ ≤ maxMutationDeliveries := hs.bounded

/-- In every run of the coordinators whose requests are all handed over under the claim that the
effect still has, redelivery is bounded and reconciled. -/
theorem redelivery_bounded (hm : 1 ≤ maxMutationDeliveries) {events : List (Event ρ)}
    (h : History (restrict (Step maxMutationDeliveries) UnderOwnClaim) .initial events s) :
    BoundedRedelivery maxMutationDeliveries s := by
  have hs : Accounted maxMutationDeliveries s := by
    refine h.invariant (initial_accounted hm) ?_
    rintro s event s' hs ⟨rfl, hown⟩
    exact advance_accounted hs hown
  refine
    { bounded := hs.deliveries_le, results := hs.results
      epochs := fun _ => advance_epochs hs.mutation, reconciled := ?_, dispatchEpochs := ?_, reconciliationEpochs := ?_, stale := ?_
      absorbing := ?_ }
  · intro later between earlier epoch epoch' hjournal
    have halternates := hs.alternates
    rw [hjournal] at halternates
    exact halternates.notFound_between
  · intro readings workerId leaseSeconds store value hclaim hheld
    obtain ⟨rfl, ⟨-, rfl⟩ | ⟨-, owner, expiresAt, rfl⟩⟩ :=
      EffectStore.claimWorkflowEffect_eq_ok hs.mutation hclaim
    · cases hheld
    · exact ⟨Nat.lt_succ_self _, Nat.lt_succ_self _⟩
  · intro readings workerId leaseSeconds store value hclaim
    obtain ⟨rfl, -, owner, expiresAt, rfl⟩ :=
      EffectStore.claimWorkflowEffectReconciliation_eq_ok hclaim
    exact ⟨Nat.lt_succ_self _, Nat.lt_succ_self _⟩
  · rintro readings fence hstale ⟨store, value⟩
    refine ⟨fun result hok => ?_, fun disposition hok => ?_⟩
    · obtain ⟨⟨-, hclaim, hdelivery⟩, -⟩ := EffectStore.completeWorkflowEffect_eq_ok hok
      omega
    · obtain ⟨⟨-, hclaim, hdelivery⟩, -⟩ :=
        EffectStore.completeWorkflowEffectReconciliation_eq_ok hok
      omega
  · intro hterminal later s' hlater
    have hstore : s'.store = s.store := by
      refine hlater.invariant (P := fun x => x.store = s.store) rfl ?_
      rintro x event x' hx rfl
      rw [advance_terminal, hx]
      · rw [hx]
        exact hs.mutation
      · rw [hx]
        exact hterminal
    rw [hstore]

/-! ## Two coordinators -/

/-- The system after some events, the latest first. -/
def after (maxMutationDeliveries : ℕ) : List (Event Unit) → System Unit
  | [] => .initial
  | event :: earlier => advance maxMutationDeliveries (after maxMutationDeliveries earlier) event

theorem history_after (maxMutationDeliveries : ℕ) (events : List (Event Unit)) :
    History (Step maxMutationDeliveries) .initial events (after maxMutationDeliveries events) := by
  induction events with
  | nil => exact .nil
  | cons event earlier ih => exact ih.cons rfl

/-- Readings of an open run, at noon or an hour later. -/
def atNoon (late : Bool) : Readings where
  clock _ :=
    { year := 2026, month := 10, day := 21, hour := if late then 13 else 12
      minute := 0, second := 0, microsecond := 0
      validDate := by decide, validTime := by cases late <;> decide }
  runIsOpen := true
  resultIsValid := true
  failureIsSettled := true
  attemptIsReplaced := false

/-- Two calls find the effect pending, and one claims it. -/
def claimedOnce : List (Event Unit) :=
  [ ⟨0, .claim, atNoon false⟩
  , ⟨1, .classify ⟨['b'], 60⟩, atNoon false⟩
  , ⟨0, .classify ⟨['a'], 60⟩, atNoon false⟩ ]

/-- It hands the request over. -/
def deliveredOnce : List (Event Unit) := ⟨0, .handOver, atNoon false⟩ :: claimedOnce

/-- A run in which nothing is handed over before the last event. -/
private theorem history_restrict_after {m : ℕ} {events : List (Event Unit)}
    (h : ∀ event ∈ events, event.action ≠ .handOver) :
    History (restrict (Step m) UnderOwnClaim) .initial events (after m events) := by
  induction events with
  | nil => exact .nil
  | cons event earlier ih =>
      refine (ih fun e he => h e (.tail _ he)).cons ⟨rfl, fun _ _ haction => ?_⟩
      exact absurd haction (h event (.head _))

theorem redelivery_bounded_deliveredOnce : BoundedRedelivery 1 (after 1 deliveredOnce) := by
  have hclaimed : History (restrict (Step 1) UnderOwnClaim) .initial claimedOnce
      (after 1 claimedOnce) := by
    refine history_restrict_after fun event hevent => ?_
    simp only [claimedOnce, List.mem_cons, List.not_mem_nil, or_false] at hevent
    rcases hevent with rfl | rfl | rfl
    · intro h
      cases h
    · intro h
      cases h
    · intro h
      cases h
  refine redelivery_bounded (by decide) (hclaimed.cons ⟨rfl, ?_⟩)
  intro worker claim _ hphase
  have hheld : (after 1 claimedOnce).phase 0 =
      .holding ⟨['a'], 60⟩ (after 1 claimedOnce).store.load := rfl
  rw [hheld] at hphase
  cases hphase
  exact ⟨by decide, by decide, rfl⟩

/-- The claim of the first call runs out, the second call normalizes it and hands the request over
nevertheless. -/
def deliveredTwice : List (Event Unit) :=
  ⟨1, .handOver, atNoon true⟩ :: ⟨1, .claim, atNoon true⟩ :: deliveredOnce

theorem redelivered_unclaimed :
    History (Step 1) System.initial deliveredTwice (after 1 deliveredTwice) ∧
      ¬BoundedRedelivery 1 (after 1 deliveredTwice) := by
  refine ⟨history_after 1 deliveredTwice, fun h => ?_⟩
  exact absurd h.bounded (by decide)

end Cortex.Workflow
