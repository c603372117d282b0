import Cortex.Adapter.Choices

/-!
# What was accepted stays accepted

A late answer overwrites the record of its operation, whatever the record says, and
a delivery looks for a record once, when it arrives.  `Harmless` is the condition
on a step that keeps both from doing harm: nothing but an acceptance, at no higher
epoch, is recorded over an acceptance, and an operation that has no record yet is
not reused for another identity.
-/

namespace Cortex.Adapter

open Control (Text)
open Transaction

variable {limits : Limits} {digest : Digest} {outcomes outcomes' : Outcomes} {d other : Delivery}
  {outcome : Outcome} {claim : Claim} {index : ℕ} {events : List Event} {event : Event}
  {s s' : State} {action : Action} {effect : Effect}

/-! ## The condition -/

/-- A verdict that is recorded at once. -/
def Verdict.ended : Verdict → Option Outcome
  | .ends outcome => some outcome
  | _ => none

/-- The delivery and the outcome that a step is about to record. -/
def writes (limits : Limits) (s : State) : Action → Option (Delivery × Outcome)
  | .controls index execution =>
      match s.deliveries[index]? with
      | some ⟨d, .checked⟩ =>
          match d.request with
          | .control request => (controlSection d request execution).ended.map fun o => (d, o)
          | .decision _ => none
      | _ => none
  | .records index =>
      match s.deliveries[index]? with
      | some ⟨d, .holds outcome⟩ => some (d, outcome)
      | _ => none
  | .decides index pending =>
      match s.deliveries[index]? with
      | some ⟨d, .checked⟩ =>
          match d.request with
          | .decision resolution =>
              (decisionSection limits.decision s.decisions d resolution pending).2.ended.map
                fun o => (d, o)
          | .control _ => none
      | _ => none
  | .remembers index =>
      match s.decisions.claims[index]? with
      | some ⟨d, _, .settled outcome⟩ => some (d, outcome)
      | _ => none
  | _ => none

/-- A step that does no harm to the records. -/
structure Harmless (digest : Digest) (limits : Limits) (s : State) (event : Event) : Prop where
  /-- Fewer operations and decisions are live than the caches hold. -/
  room : s.outcomes.length < limits.action ∧ s.decisions.Room limits.decision
  /-- An operation without a record is not under way for another identity. -/
  fresh : ∀ d, event.1 = .checks d → s.outcomes.find d.operationId = none →
    ∀ other ∈ s.deliveries, other.delivery.operationId = d.operationId →
      other.delivery.identity digest = d.identity digest
  /-- What is recorded over an acceptance is one, at no higher epoch. -/
  keeps : ∀ d outcome previous, writes limits s event.1 = some (d, outcome) →
    s.outcomes.find d.operationId = some previous → previous.outcome.status.accepts = true →
      outcome.status.accepts = true ∧ d.deliveryEpoch ≤ previous.deliveryEpoch
  /-- The delivery that opened a claim sees an acceptance only when it is recorded. -/
  recorded : ∀ index d claim, event.1 = .wakes index →
    s.deliveries[index]? = some ⟨d, .waits claim true⟩ →
      ∀ c outcome, s.decisions.claims[claim]? = some c → c.phase = .settled outcome →
        outcome.status.accepts = false

/-! ## What must hold of a step -/

/-- Some delivery like this one returned an acceptance. -/
def AcceptedIn (events : List Event) (d : Delivery) : Prop :=
  ∃ action outcome, (action, Effect.returned d outcome) ∈ events ∧ outcome.status.accepts = true

/-- A step remembers what was accepted, keeps to one choice for each decision, and refuses an
operation that is reused for another identity. -/
structure Faithful (digest : Digest) (events : List Event) (s : State) (event : Event)
    (s' : State) : Prop where
  delivery : ∀ d accepted, event.1 = .checks d → AcceptedIn events accepted →
    accepted.operationId = d.operationId → accepted.identity digest = d.identity digest →
    accepted.deliveryEpoch ≤ d.deliveryEpoch →
      ∃ outcome, event.2 = .returned d outcome ∧ outcome.status.accepts = true
  query : ∀ q accepted, event.1 = .queries q → AcceptedIn events accepted →
    accepted.operationId = q.operationId → (accepted.identity digest).target = q.target →
    accepted.deliveryEpoch ≤ q.deliveryEpoch →
      ∃ outcome, event.2 = .queried (some outcome) ∧ outcome.status.accepts = true
  conflict : ∀ d earlier, event.1 = .checks d → (.checks earlier, .goesOn) ∈ events →
    earlier.operationId = d.operationId → earlier.identity digest ≠ d.identity digest →
      event.2 = .returned d (d.rejected "adapter_operation_conflict") ∧ s' = s
  choice : ∀ key choice, event.2 = .called key choice →
    (∀ action choice', (action, Effect.called key choice') ∈ events → choice' = choice) ∧
    (∀ action outcome, (action, Effect.answered key outcome) ∈ events →
      outcome.status.accepts = false) ∧
    ∀ claim ∈ s.decisions.claims, claim.key = key → claim.phase ≠ .calling

/-! ## The invariant -/

/-- The records say that this delivery was accepted. -/
def Recorded (digest : Digest) (outcomes : Outcomes) (d : Delivery) : Prop :=
  ∃ previous, outcomes.find d.operationId = some previous ∧
    previous.identity = d.identity digest ∧ previous.deliveryEpoch ≤ d.deliveryEpoch ∧
    previous.outcome.status.accepts = true

/-- An outcome is about its delivery. -/
def Outcome.isOf (outcome : Outcome) (d : Delivery) : Prop :=
  outcome.operationId = d.operationId ∧ outcome.deliveryEpoch = d.deliveryEpoch

/-- The adapter took this delivery on. -/
def State.Delivers (s : State) (d : Delivery) : Prop := ∃ u ∈ s.deliveries, u.delivery = d

/-- What holds in every state. -/
structure Inv (digest : Digest) (events : List Event) (s : State) : Prop where
  alike : ∀ d other, s.Delivers d → s.Delivers other → d.operationId = other.operationId →
    d.identity digest = other.identity digest
  origin : ∀ operationId previous, s.outcomes.find operationId = some previous →
    ∃ d, s.Delivers d ∧ d.operationId = operationId ∧ d.identity digest = previous.identity
  holds : ∀ u ∈ s.deliveries, ∀ outcome, u.phase = .holds outcome → outcome.isOf u.delivery
  waits : ∀ u ∈ s.deliveries, ∀ index, u.phase = .waits index true →
    ∃ claim, s.decisions.claims[index]? = some claim ∧ claim.delivery = u.delivery
  claimed : ∀ claim ∈ s.decisions.claims, s.Delivers claim.delivery
  heard : ∀ claim ∈ s.decisions.claims, ∀ outcome, claim.phase.heard = some outcome →
    outcome.isOf claim.delivery
  recorded : ∀ claim ∈ s.decisions.claims, ∀ outcome, claim.phase = .recorded outcome →
    outcome.status.accepts = true → Recorded digest s.outcomes claim.delivery
  accepted : ∀ d, AcceptedIn events d → Recorded digest s.outcomes d
  passed : ∀ d, (.checks d, .goesOn) ∈ events → s.Delivers d

/-! ### Parts of a step -/

private theorem find_remember {limit : ℕ} (hroom : outcomes.length < limit) (identity : Identity)
    (outcome : Outcome) (operationId : Text) :
    (rememberActionOutcome limit outcomes identity outcome).find operationId =
      if operationId = outcome.operationId then some ⟨identity, outcome.deliveryEpoch, outcome⟩
      else outcomes.find operationId := by
  rw [rememberActionOutcome, Cache.trim_put hroom, Cache.find_put]

/-- An outcome is recorded without harm. -/
private theorem Inv.keeps (h : Inv digest events s) {limit : ℕ}
    (hroom : s.outcomes.length < limit) (hd : s.Delivers d) (hof : outcome.isOf d)
    (hkeeps : ∀ previous, s.outcomes.find d.operationId = some previous →
      previous.outcome.status.accepts = true →
        outcome.status.accepts = true ∧ d.deliveryEpoch ≤ previous.deliveryEpoch)
    (hother : Recorded digest s.outcomes other) :
    Recorded digest (rememberActionOutcome limit s.outcomes (d.identity digest) outcome) other := by
  obtain ⟨previous, hfind, hidentity, hepoch, haccepts⟩ := hother
  rw [Recorded, find_remember hroom]
  split
  · rename_i hsame
    rw [hof.1] at hsame
    rw [hsame] at hfind
    obtain ⟨hnew, hle⟩ := hkeeps previous hfind haccepts
    obtain ⟨first, hfirst, hop, horigin⟩ := h.origin _ _ hfind
    have halike : first.identity digest = d.identity digest := h.alike _ _ hfirst hd hop
    refine ⟨_, rfl, ?_, ?_, hnew⟩
    · exact halike.symm.trans (horigin.trans hidentity)
    · exact Nat.le_trans (Nat.le_of_eq hof.2) (Nat.le_trans hle hepoch)
  · exact ⟨previous, hfind, hidentity, hepoch, haccepts⟩

private theorem recorded_remember {limit : ℕ} (hroom : outcomes.length < limit)
    (hof : outcome.isOf d) (haccepts : outcome.status.accepts = true) :
    Recorded digest (rememberActionOutcome limit outcomes (d.identity digest) outcome) d := by
  rw [Recorded, find_remember hroom, if_pos hof.1.symm]
  exact ⟨_, rfl, rfl, Nat.le_of_eq hof.2, haccepts⟩

private theorem Inv.remembers (h : Inv digest events s) {limit : ℕ}
    (hroom : s.outcomes.length < limit) (hd : s.Delivers d) (hof : outcome.isOf d)
    (hkeeps : ∀ previous, s.outcomes.find d.operationId = some previous →
      previous.outcome.status.accepts = true →
        outcome.status.accepts = true ∧ d.deliveryEpoch ≤ previous.deliveryEpoch) :
    Inv digest events { s with
      outcomes := rememberActionOutcome limit s.outcomes (d.identity digest) outcome } := by
  refine ⟨h.alike, fun operationId previous hfind => ?_, h.holds, h.waits, h.claimed, h.heard,
    fun claim hclaim o hphase haccepts => ?_, fun other hother => ?_, h.passed⟩
  · rw [find_remember hroom] at hfind
    split at hfind
    · rename_i hsame
      obtain rfl := Option.some.inj hfind
      exact ⟨d, hd, hof.1.symm.trans hsame.symm, rfl⟩
    · exact h.origin operationId previous hfind
  · exact h.keeps hroom hd hof hkeeps (h.recorded claim hclaim o hphase haccepts)
  · exact h.keeps hroom hd hof hkeeps (h.accepted other hother)

/-- What happened is added. -/
private theorem Inv.logs (h : Inv digest events s)
    (hreturned : ∀ d outcome, effect = .returned d outcome → outcome.status.accepts = true →
      Recorded digest s.outcomes d)
    (hpassed : ∀ d, action = .checks d → effect = .goesOn → s.Delivers d) :
    Inv digest ((action, effect) :: events) s := by
  refine ⟨h.alike, h.origin, h.holds, h.waits, h.claimed, h.heard, h.recorded, ?_, fun d hmem => ?_⟩
  · rintro d ⟨other, outcome, hmem, haccepts⟩
    rcases List.mem_cons.1 hmem with heq | hmem
    · injection heq with _ heffect
      exact hreturned d outcome heffect.symm haccepts
    · exact h.accepted d ⟨other, outcome, hmem, haccepts⟩
  · rcases List.mem_cons.1 hmem with heq | hmem
    · injection heq with haction heffect
      exact hpassed d haction.symm heffect.symm
    · exact h.passed d hmem

private theorem delivers_of_getElem? {phase : Phase}
    (hindex : s.deliveries[index]? = some ⟨d, phase⟩) : s.Delivers d :=
  ⟨_, List.mem_iff_getElem?.2 ⟨index, hindex⟩, rfl⟩

private theorem delivers_moves {phase phase' : Phase}
    (hindex : s.deliveries[index]? = some ⟨d, phase⟩) :
    (s.moves index d phase').Delivers other ↔ s.Delivers other := by
  constructor
  · rintro ⟨u, hu, rfl⟩
    rcases List.mem_or_eq_of_mem_set hu with hold | rfl
    · exact ⟨u, hold, rfl⟩
    · exact delivers_of_getElem? hindex
  · rintro ⟨u, hu, rfl⟩
    obtain ⟨place, hplace⟩ := List.mem_iff_getElem?.1 hu
    by_cases heq : index = place
    · subst heq
      obtain rfl := Option.some.inj (hindex.symm.trans hplace)
      exact ⟨_, List.mem_set (List.getElem?_eq_some_iff.1 hindex).1 _, rfl⟩
    · refine ⟨u, List.mem_iff_getElem?.2 ⟨place, ?_⟩, rfl⟩
      rw [State.moves, List.getElem?_set_ne heq, hplace]

/-- A delivery goes on. -/
private theorem Inv.moves (h : Inv digest events s) {phase phase' : Phase}
    (hindex : s.deliveries[index]? = some ⟨d, phase⟩)
    (hholds : ∀ outcome, phase' = .holds outcome → outcome.isOf d)
    (hwaits : ∀ claim, phase' = .waits claim true →
      ∃ c, s.decisions.claims[claim]? = some c ∧ c.delivery = d) :
    Inv digest events (s.moves index d phase') := by
  refine ⟨fun one two hone htwo => ?_, fun operationId previous hfind => ?_, fun u hu => ?_,
    fun u hu => ?_, fun claim hclaim => ?_, h.heard, h.recorded, h.accepted, fun one hmem => ?_⟩
  · exact h.alike one two ((delivers_moves hindex).1 hone) ((delivers_moves hindex).1 htwo)
  · obtain ⟨first, hfirst, hand⟩ := h.origin operationId previous hfind
    exact ⟨first, (delivers_moves hindex).2 hfirst, hand⟩
  · rcases List.mem_or_eq_of_mem_set hu with hold | rfl
    · exact h.holds u hold
    · exact hholds
  · rcases List.mem_or_eq_of_mem_set hu with hold | rfl
    · exact h.waits u hold
    · exact hwaits
  · exact (delivers_moves hindex).2 (h.claimed claim hclaim)
  · exact (delivers_moves hindex).2 (h.passed one hmem)

/-- The claims move on, or one is opened. -/
private theorem Inv.decisions (h : Inv digest events s) {decisions : Decisions}
    (hkept : ∀ (index : ℕ) (claim : Claim), s.decisions.claims[index]? = some claim →
      ∃ claim' : Claim, decisions.claims[index]? = some claim' ∧ claim'.delivery = claim.delivery)
    (hclaims : ∀ claim ∈ decisions.claims, claim ∈ s.decisions.claims ∨
      s.Delivers claim.delivery ∧
        (∀ outcome, claim.phase.heard = some outcome → outcome.isOf claim.delivery) ∧
        ∀ outcome, claim.phase = .recorded outcome → outcome.status.accepts = true →
          Recorded digest s.outcomes claim.delivery) :
    Inv digest events { s with decisions } := by
  refine ⟨h.alike, h.origin, h.holds, fun u hu index hwaits => ?_, fun claim hclaim => ?_,
    fun claim hclaim => ?_, fun claim hclaim => ?_, h.accepted, h.passed⟩
  · obtain ⟨claim, hindex, hdelivery⟩ := h.waits u hu index hwaits
    obtain ⟨claim', hindex', hsame⟩ := hkept index claim hindex
    exact ⟨claim', hindex', hsame.trans hdelivery⟩
  · rcases hclaims claim hclaim with hold | ⟨hdelivers, -, -⟩
    · exact h.claimed claim hold
    · exact hdelivers
  · rcases hclaims claim hclaim with hold | ⟨-, hheard, -⟩
    · exact h.heard claim hold
    · exact hheard
  · rcases hclaims claim hclaim with hold | ⟨-, -, hrecorded⟩
    · exact h.recorded claim hold
    · exact hrecorded

private theorem Inv.same (h : Inv digest events s) {decisions : Decisions}
    (hsame : decisions.claims = s.decisions.claims) : Inv digest events { s with decisions } := by
  refine h.decisions (fun index claim hindex => ?_) fun claim hclaim => ?_
  · exact ⟨claim, by rw [hsame, hindex], rfl⟩
  · exact .inl (hsame ▸ hclaim)

/-! ### Steps -/

private theorem isOf_outcome (d : Delivery) (status : Status) (reasonCode : Option Text) :
    (d.outcome status reasonCode).isOf d := ⟨rfl, rfl⟩

/-- A delivery records its outcome and returns it. -/
private theorem Inv.ends (h : Inv digest events s) {phase : Phase}
    (hindex : s.deliveries[index]? = some ⟨d, phase⟩)
    (hroom : s.outcomes.length < limits.action) (hof : outcome.isOf d)
    (hkeeps : ∀ previous, s.outcomes.find d.operationId = some previous →
      previous.outcome.status.accepts = true →
        outcome.status.accepts = true ∧ d.deliveryEpoch ≤ previous.deliveryEpoch)
    (hchecks : ∀ d, action ≠ .checks d)
    (hstep : s.ends digest limits index d outcome = (s', effect)) :
    Inv digest ((action, effect) :: events) s' := by
  cases hstep
  have hrecords := h.remembers hroom (delivers_of_getElem? hindex) hof hkeeps
  have hmoves : Inv digest events (State.moves { s with
      outcomes := rememberActionOutcome limits.action s.outcomes (d.identity digest) outcome }
      index d .returned) :=
    hrecords.moves hindex (fun _ hphase => by cases hphase) fun _ hphase => by cases hphase
  refine hmoves.logs (fun other o heq haccepts => ?_) fun other heq => absurd heq (hchecks other)
  cases heq
  exact recorded_remember hroom hof haccepts

private theorem Inv.follows (h : Inv digest events s) {phase : Phase} {verdict : Verdict}
    (hindex : s.deliveries[index]? = some ⟨d, phase⟩)
    (hroom : s.outcomes.length < limits.action)
    (hof : ∀ outcome, verdict = .ends outcome ∨ verdict = .holds outcome → outcome.isOf d)
    (hwaits : ∀ claim, verdict = .waits claim true →
      ∃ c, s.decisions.claims[claim]? = some c ∧ c.delivery = d)
    (hkeeps : ∀ outcome previous, verdict.ended = some outcome →
      s.outcomes.find d.operationId = some previous → previous.outcome.status.accepts = true →
        outcome.status.accepts = true ∧ d.deliveryEpoch ≤ previous.deliveryEpoch)
    (hchecks : ∀ d, action ≠ .checks d)
    (hstep : s.follows digest limits index d verdict = (s', effect)) :
    Inv digest ((action, effect) :: events) s' := by
  cases verdict with
  | ends outcome =>
      exact h.ends hindex hroom (hof outcome (.inl rfl)) (fun previous => hkeeps outcome previous rfl)
        hchecks hstep
  | calls =>
      cases hstep
      refine (h.moves hindex (fun _ hphase => by cases hphase) fun _ hphase => by cases hphase).logs
        (fun _ _ heffect => by cases heffect) fun other heq => absurd heq (hchecks other)
  | holds outcome =>
      cases hstep
      refine (h.moves hindex (fun o hphase => ?_) fun _ hphase => by cases hphase).logs
        (fun _ _ heffect => by cases heffect) fun other heq => absurd heq (hchecks other)
      cases hphase
      exact hof outcome (.inr rfl)
  | waits claim owns =>
      cases hstep
      refine (h.moves hindex (fun _ hphase => by cases hphase) fun c hphase => ?_).logs
        (fun _ _ heffect => by cases heffect) fun other heq => absurd heq (hchecks other)
      cases hphase
      exact hwaits claim rfl

/-- What a section does to the claims, and the claim that its delivery waits for. -/
private theorem Inv.decides (h : Inv digest events s) {phase : Phase} {r : Resolution}
    {dec : Decisions} {verdict : Verdict} (hindex : s.deliveries[index]? = some ⟨d, phase⟩)
    (hdecided : Decided s.decisions d r dec verdict) :
    Inv digest events { s with decisions := dec } ∧
      (∀ outcome, verdict = .ends outcome ∨ verdict = .holds outcome → outcome.isOf d) ∧
      ∀ claim, verdict = .waits claim true → ∃ c, dec.claims[claim]? = some c ∧ c.delivery = d := by
  cases hdecided with
  | ends hsame =>
      refine ⟨h.same hsame.claims, fun outcome houtcome => ?_, fun _ hwaits => by cases hwaits⟩
      rcases houtcome with heq | heq <;> cases heq
      exact isOf_outcome d _ _
  | joins hsame =>
      refine ⟨h.same hsame.claims, fun outcome houtcome => ?_, fun _ hwaits => by cases hwaits⟩
      rcases houtcome with heq | heq <;> cases heq
  | opens _ _ _ _ _ _ hclaims =>
      refine ⟨h.decisions (fun place claim hplace => ?_) fun claim hclaim => ?_,
        fun outcome houtcome => ?_, fun claim hwaits => ?_⟩
      · refine ⟨claim, ?_, rfl⟩
        rw [hclaims, List.getElem?_append_left (List.getElem?_eq_some_iff.1 hplace).1, hplace]
      · rw [hclaims, List.mem_append, List.mem_singleton] at hclaim
        rcases hclaim with hold | rfl
        · exact .inl hold
        · exact .inr ⟨delivers_of_getElem? hindex, fun _ heq => (by cases heq),
            fun _ heq => (by cases heq)⟩
      · rcases houtcome with heq | heq <;> cases heq
      · cases hwaits
        exact ⟨_, by rw [hclaims, List.getElem?_concat_length], rfl⟩

variable {q : Query}

end Cortex.Adapter
