import Cortex.Runs.Projection
import Cortex.Runs.ActiveRun

/-!
# Which open decisions can be answered

The store takes any trimmed text as the id of an option; the projection lists only
identifiers without sensitive texts.  A decision can be answered by whoever sees
its projection just when the two agree on its options.

The prompt and the options of a decision never change, so what the projection lists
of an open decision is what its creation asked for.
-/

namespace Cortex.Runs

open Control Time Transaction

variable {Digest : Type} [DecidableEq Digest] {platform : Platform Digest}

/-! ## Answers -/

/-- The option check of `resolve_decision`, with the check of the choice before it. -/
def IsOptionError (error : StoreError) : Prop :=
  error = .valueError "choice is invalid" ∨
    error = .valueError "choice is not one of the decision options"

instance : DecidablePred IsOptionError :=
  fun _ => inferInstanceAs (Decidable (_ ∨ _))

/-- A choice passes the option check of `resolve_decision` at the revision of the decision, and
is what a commit records. -/
structure Answers (platform : Platform Digest) (s : Store Digest) (d : Decision) (choice : Text) :
    Prop where
  passes : ∀ readings caller, Raises (fun error => ¬IsOptionError error)
    (resolveDecision platform s readings d.id choice d.revision caller)
  records : ∀ readings caller s' result,
    resolveDecision platform s readings d.id choice d.revision caller = .ok (s', result) →
      result.replayed = false → ∃ d' ∈ s'.tables.ledger.decisions, d'.id = d.id ∧
        d'.state = .resolved ∧ d'.resolution = some { choice, actorId := caller.actorId }

/-- Every option of an open decision can be chosen by clients, and the event of its creation
listed the same options. -/
structure CanBeAnswered (isAlnum : Char → Bool) (platform : Platform Digest) (s : Store Digest)
    (created d : Decision) : Prop where
  lists : (projectPublicDecision isAlnum d).options.map DecisionOption.id =
    d.options.map DecisionOption.id
  answers : ∀ option ∈ (projectPublicDecision isAlnum d).options, Answers platform s d option.id
  event : (projectDecisionRequired isAlnum (decisionRequired created)).options =
    (projectPublicDecision isAlnum d).options

/-! ## The option check -/

section Resolve

variable {s : Ledger} {readings : Readings} {d : Decision} {actorId choice : Text}

private theorem not_isOptionError_invalidTransition {source target : String} :
    ¬IsOptionError (.invalidTransition source target) := by
  rintro (h | h)
  · cases h
  · cases h

/-- A pending decision is settled with the choice. -/
private theorem settled_mem {resolution : Resolution} {now : Stamp} (hd : d ∈ s.decisions)
    (hpending : d.state = .pending) :
    ∃ d' ∈ (s.settleDecision d resolution now).decisions, d'.id = d.id ∧ d'.state = .resolved ∧
      d'.resolution = some resolution := by
  refine ⟨{ d with
    state := .resolved, resolution := some resolution
    revision := d.revision + 1, resolvedAt := some now }, ?_, rfl, rfl, rfl⟩
  apply Table.mem_update.2
  · exact ⟨d, hd, if_pos ⟨rfl, rfl, hpending⟩⟩
  · exact fun _ => rfl

private theorem raises_resolveWorkflowDecision {isPending stageIsWaiting : Bool}
    {resolution : Resolution} :
    Raises (fun error => ¬IsOptionError error)
      (s.resolveWorkflowDecision readings d isPending stageIsWaiting resolution) := by
  refine .bind (.require (by decide)) fun _ _ => .bind (.require (by decide)) fun _ _ => ?_
  refine .bind (.orRaise (by decide)) fun run _ => ?_
  refine .bind (.require not_isOptionError_invalidTransition) fun _ _ => ?_
  exact .bind (.require not_isOptionError_invalidTransition) fun _ _ => .pure

private theorem raises_resolveRuntimeDecision {resolution : Resolution} :
    Raises (fun error => ¬IsOptionError error)
      (s.resolveRuntimeDecision readings d resolution) := by
  refine .bind (.orRaise (by decide)) fun run _ => ?_
  refine .bind (.require not_isOptionError_invalidTransition) fun _ _ => ?_
  refine .bind (.orRaise (by decide)) fun attempt _ => ?_
  refine .bind (.orRaise not_isOptionError_invalidTransition) fun _ _ => ?_
  refine .bind (.orRaise not_isOptionError_invalidTransition) fun _ _ => ?_
  exact .bind (.orRaise (by decide)) fun _ _ => .pure

/-- A choice among the options passes the check of the options. -/
private theorem raises_resolveDecision (hd : d ∈ s.decisions)
    (hchoice : choice ∈ d.options.map DecisionOption.id) :
    Raises (fun error => ¬IsOptionError error)
      (s.resolveDecision readings actorId d.id choice d.revision) := by
  have hread : s.decision d.id = .ok d := Ledger.decision_eq_ok.2 ⟨hd, rfl⟩
  refine .bind (.of_ok hread) fun decision hdecision => ?_
  rw [hread] at hdecision
  injection hdecision with hdecision
  subst hdecision
  refine .bind (.of_ok (a := ()) (expectRevision_eq_ok.2 rfl)) fun _ _ => ?_
  refine .bind (.require (by decide)) fun _ _ => ?_
  refine .bind (.require not_isOptionError_invalidTransition) fun _ _ => ?_
  refine .bind (.of_ok (a := ()) (require_eq_ok.2 hchoice)) fun _ _ => ?_
  split
  · refine .bind raises_resolveWorkflowDecision fun _ _ => ?_
    exact .bind (.orRaise (by decide)) fun _ _ => .pure
  · refine .bind (.require (by decide)) fun _ _ => .bind raises_resolveRuntimeDecision fun _ _ => ?_
    exact .bind (.orRaise (by decide)) fun _ _ => .pure

/-- What is committed about a pending decision is the choice. -/
private theorem resolveDecision_records {s' : Ledger} {value : Response} (hd : d ∈ s.decisions)
    (hpending : d.state = .pending)
    (h : s.resolveDecision readings actorId d.id choice d.revision = .ok (s', value)) :
    ∃ d' ∈ s'.decisions, d'.id = d.id ∧ d'.state = .resolved ∧
      d'.resolution = some { choice, actorId } := by
  simp only [Ledger.resolveDecision, bind_eq_ok, require_eq_ok, Ledger.decision_eq_ok] at h
  obtain ⟨decision, ⟨hdecision, hid⟩, -, -, -, -, -, -, -, -, h⟩ := h
  obtain rfl : decision = d := Table.eq_of_key hdecision hd hid
  split at h
  · simp only [Ledger.resolveWorkflowDecision, bind_eq_ok, require_eq_ok, Ledger.run_eq_ok,
      Ledger.decision_eq_ok, pure_eq_ok, Prod.mk.injEq] at h
    obtain ⟨m, ⟨-, -, -, -, run, -, -, -, -, -, rfl⟩, -, -, rfl, -⟩ := h
    exact settled_mem hd hpending
  · simp only [Ledger.resolveRuntimeDecision, bind_eq_ok, require_eq_ok, orRaise_eq_ok,
      Ledger.run_eq_ok, Ledger.decision_eq_ok, pure_eq_ok, Prod.mk.injEq] at h
    obtain ⟨-, -, m, ⟨run, -, -, -, _, -, _, -, _, -, actions, -, rfl⟩, -, -, rfl, -⟩ := h
    exact settled_mem hd hpending

end Resolve

private theorem raises_ledgerCommand {s : Store Digest} {caller : Caller} {operation : Operation}
    {request : Request} {statusCode : ℕ} {now : Civil}
    {body : Ledger → Except StoreError (Ledger × Response)}
    (h : Raises (fun error => ¬IsOptionError error) (body s.tables.ledger)) :
    Raises (fun error => ¬IsOptionError error)
      (ledgerCommand platform s caller operation request statusCode now body) := by
  have hreceipt : Raises (fun error => ¬IsOptionError error)
      (receipt platform.requestHash s.receipts caller operation (.request request)) := by
    refine .bind (.require (by decide)) fun _ _ => ?_
    split
    · exact .pure
    · split
      · exact .pure
      · intro error herror
        injection herror with herror
        rw [← herror]
        decide
  refine .bind hreceipt fun replay _ => ?_
  cases replay with
  | some replay => exact .pure
  | none =>
      refine .bind (.bind h fun _ _ => .pure) fun _ _ => .bind ?_ fun _ _ => .pure
      exact .bind (.orRaise (by decide)) fun _ _ => .pure

/-- An option of a pending decision, under a trimmed id, can be chosen. -/
theorem answers_of_mem {s : Store Digest} {d : Decision} {choice : Text}
    (hd : d ∈ s.tables.ledger.decisions) (hpending : d.state = .pending)
    (hchoice : choice ∈ d.options.map DecisionOption.id)
    (htext : requiredText choice "choice" 500 = .ok choice) : Answers platform s d choice where
  passes readings caller := by
    refine .bind (.of_ok htext) fun choice' hchoice' => ?_
    rw [htext] at hchoice'
    injection hchoice' with hchoice'
    subst hchoice'
    exact raises_ledgerCommand (raises_resolveDecision hd hchoice)
  records readings caller s' result h hnew := by
    simp only [resolveDecision, htext, ok_bind] at h
    rcases ledgerCommand_eq_ok h with ⟨hreplayed, -⟩ | ⟨-, -, -, hbody⟩
    · rw [hnew] at hreplayed
      cases hreplayed
    · exact resolveDecision_records hd hpending hbody

/-! ## What the store accepts -/

private theorem requiredText_of_public {value text : Text} {name : String} {maximum : ℕ}
    (h : publicDecisionText value name maximum = .ok text) :
    requiredText value name maximum = .ok text := by
  simp only [publicDecisionText, bind_eq_ok, pure_eq_ok] at h
  obtain ⟨text', htext, -, -, rfl⟩ := h
  exact htext

/-- The options that were validated: as many as are allowed, under trimmed ids. -/
theorem validateDecisionOptions_eq_ok {options normalized : List DecisionOption}
    (h : validateDecisionOptions options = .ok normalized) :
    normalized.length ≤ 20 ∧
      normalized.map DecisionOption.id = options.map (fun option => strip option.id) ∧
      ∀ id ∈ normalized.map DecisionOption.id, requiredText id "choice" 500 = .ok id := by
  simp only [validateDecisionOptions, bind_eq_ok, require_eq_ok, pure_eq_ok] at h
  obtain ⟨-, ⟨-, hlength⟩, normalized', hmap, -, -, rfl⟩ := h
  have hnormalized := forall₂_of_mapM hmap
  refine ⟨hnormalized.length_eq ▸ hlength, ?_, ?_⟩
  · clear hlength hmap
    induction hnormalized with
    | nil => rfl
    | cons hoption _ ih =>
        simp only [bind_eq_ok, pure_eq_ok] at hoption
        obtain ⟨id, hid, _, -, _, -, rfl⟩ := hoption
        rw [List.map_cons, List.map_cons, ih, requiredText_eq_ok (requiredText_of_public hid)]
  · clear hlength hmap
    induction hnormalized with
    | nil => exact fun id hid => absurd hid List.not_mem_nil
    | cons hoption _ ih =>
        simp only [bind_eq_ok, pure_eq_ok] at hoption
        obtain ⟨id, hid, _, -, _, -, rfl⟩ := hoption
        intro id' hid'
        rcases List.mem_cons.1 hid' with rfl | hid'
        · exact requiredText_of_trimmed (requiredText_of_public hid) (by omega)
        · exact ih id' hid'

/-! ## Decisions keep what they ask -/

/-- The decisions of a ledger stay with their prompts and options. -/
theorem Effect.decisions {s s' : Ledger} {closes unarchived unclaimed : Prop}
    (h : Effect closes unarchived unclaimed s s') :
    ∃ N, s.decisions.Grows WorkKept N s'.decisions := by
  cases h with
  | touched subject runs threads attempts states work => exact ⟨_, work.decisions⟩
  | archived threadId threads same =>
      rw [same]
      exact ⟨fun _ => False, .refl .refl⟩
  | created run attempt thread runs attempts threads hthread id hopen idle state own active first
      fresh work => exact ⟨_, work.decisions⟩
  | moved r r' step attempts active live live' paused => exact ⟨_, step.work.decisions⟩
  | finished r r' step attempts active terminal detached closed => exact ⟨_, step.work.decisions⟩
  | restarted r r' attempt thread step attempts own active source fresh hthread threadId idle live'
      running hopen => exact ⟨_, step.work.decisions⟩
  | putBack r r' step attempts live state own paused unclaimed => exact ⟨_, step.work.decisions⟩
  | claimedRelease releaseId releases same grows free =>
      rw [same]
      exact ⟨fun _ => False, .refl .refl⟩

/-- A well-formed store that still has a decision, with what it asks. -/
def StillAsks (created : Decision) (s : Store Digest) : Prop :=
  WellFormed s.tables.ledger ∧
    ∃ d ∈ s.tables.ledger.decisions, d.id = created.id ∧ WorkKept created d

/-- A step keeps what a decision asks. -/
theorem StillAsks.kept {created : Decision} {s s' : Store Digest} {event : Event}
    (hs : StillAsks created s) (h : Step platform s event s') : StillAsks created s' := by
  obtain ⟨hwell, d, hd, hid, hkept⟩ := hs
  refine ⟨step_wellFormed hwell h, ?_⟩
  rcases step_effect hwell h with ⟨-, rfl⟩ | ⟨-, heffect⟩
  · exact ⟨d, hd, hid, hkept⟩
  · obtain ⟨N, hgrows⟩ := heffect.decisions
    obtain ⟨d', hd', hkey, hkept'⟩ := hgrows.kept d hd
    exact ⟨d', hd', Eq.trans hkey hid, hkept.trans hkept'⟩

/-- After a decision was created it is in the store, with the options that were validated. -/
theorem createDecision_stored {s s' : Store Digest} {readings : Readings} {runId : ℕ}
    {target : RuntimeTarget} {kind prompt : Text} {options : List DecisionOption}
    {ref : Option Text} {revision : Option ℤ} {expectedRevision : ℤ}
    {adapterEventId : Option Text} {cause : RuntimeCause} {caller : Caller}
    {result : CommandResult Response} {created : Decision}
    (h : createDecision platform s readings runId target kind prompt options ref revision
      expectedRevision adapterEventId cause caller = .ok (s', result))
    (hnew : result.replayed = false) (hvalue : result.value = .decision created) :
    created ∈ s'.tables.ledger.decisions ∧
      validateDecisionOptions options = .ok created.options := by
  simp only [createDecision, bind_eq_ok] at h
  obtain ⟨_, -, _, -, normalized, hnormalized, _, -, _, -, h⟩ := h
  rcases offer_eq_ok h with ⟨hreplayed, -⟩ | ⟨-, attemptId, hbody, -⟩
  · rw [hnew] at hreplayed
    cases hreplayed
  · simp only [Ledger.createDecision, Ledger.insertDecision, bind_eq_ok, orRaise_eq_ok, pure_eq_ok,
      Prod.mk.injEq] at hbody
    obtain ⟨_, -, _, -, ⟨_, _, _⟩, -, _, -, ⟨_, _⟩, ⟨decisions, hinsert, rfl, rfl⟩, hledger,
      hdecision, -⟩ := hbody
    rw [hvalue] at hdecision
    injection hdecision with hdecision
    subst hdecision
    refine ⟨?_, hnormalized⟩
    rw [← hledger]
    exact (Table.mem_insert hinsert).2 (.inr rfl)

/-! ## Open decisions -/

/-- A pending decision that asks what it was created with, under trimmed ids. -/
theorem canBeAnswered_iff {isAlnum : Char → Bool} {s : Store Digest} {created d : Decision}
    (hd : d ∈ s.tables.ledger.decisions) (hpending : d.state = .pending)
    (hlength : d.options.length ≤ 20)
    (htrimmed : ∀ id ∈ d.options.map DecisionOption.id, requiredText id "choice" 500 = .ok id)
    (hprompt : d.prompt = created.prompt) (hoptions : d.options = created.options) :
    CanBeAnswered isAlnum platform s created d ↔
      ∀ id ∈ d.options.map DecisionOption.id, (safeIdentifier isAlnum id).isSome := by
  have hlisted := ids_listed_iff isAlnum d.prompt
    (hlength.trans (show 20 ≤ 100 by decide))
  constructor
  · intro hanswered
    exact hlisted.1 hanswered.lists
  · intro hsafe
    refine ⟨hlisted.2 hsafe, ?_, ?_⟩
    · intro option hoption
      have hmem := id_mem_of_listed isAlnum hoption
      exact answers_of_mem hd hpending hmem (htrimmed option.id hmem)
    · simp only [projectDecisionRequired, decisionRequired, projectPublicDecision, hprompt,
        hoptions]

/-- While a decision that was created is pending, every option of it can be chosen by clients,
and is listed by its event, just when the ids of all its options, trimmed, are safe
identifiers. -/
theorem open_decision_answered (isAlnum : Char → Bool) {events : List Event} {event : Event}
    {s : Store Digest} {runId : ℕ} {target : RuntimeTarget} {kind prompt : Text}
    {options : List DecisionOption} {ref : Option Text} {revision : Option ℤ}
    {expectedRevision : ℤ} {adapterEventId : Option Text} {cause : RuntimeCause}
    {caller : Caller} {created d : Decision}
    (h : History (Step platform) emptyStore events s) (hevent : event ∈ events)
    (hcall : event.1.1 = .createDecision runId target kind prompt options ref revision
      expectedRevision adapterEventId cause caller)
    (hnew : event.2.replayed = false) (hvalue : event.2.value = .decision created)
    (hd : d ∈ s.tables.ledger.decisions) (hid : d.id = created.id) (hpending : d.state = .pending) :
    CanBeAnswered isAlnum platform s created d ↔
      ∀ option ∈ options, (safeIdentifier isAlnum (strip option.id)).isSome := by
  obtain ⟨later, earlier, rfl⟩ := List.append_of_mem hevent
  obtain ⟨m, hbefore, hlater⟩ := h.split
  cases hbefore with
  | cons hearlier hstep =>
      rename_i m₀
      obtain ⟨⟨call, readings⟩, result⟩ := event
      simp only at hcall hnew hvalue
      subst hcall
      obtain ⟨hcreated, hoptions⟩ := createDecision_stored hstep hnew hvalue
      obtain ⟨hlength, hids, htrimmed⟩ := validateDecisionOptions_eq_ok hoptions
      have hasks : StillAsks created s := by
        refine hlater.invariant (P := StillAsks created) ⟨?_, created, hcreated, rfl, .refl _⟩ ?_
        · exact step_wellFormed (hearlier.invariant (P := fun s => WellFormed s.tables.ledger)
            wellFormed_empty step_wellFormed) hstep
        · exact fun hs hstep => hs.kept hstep
      obtain ⟨-, d', hd', hid', hkept⟩ := hasks
      obtain rfl : d' = d := Table.eq_of_key hd' hd (hid'.trans hid.symm)
      obtain ⟨hprompt, hsame⟩ := Prod.mk.injEq .. ▸ hkept.content
      rw [canBeAnswered_iff hd hpending (hsame ▸ hlength) (hsame ▸ htrimmed) hprompt hsame, hsame,
        hids]
      exact List.forall_mem_map

/-! ## A run that asks -/

/-- A run that asks one question. -/
def askingRun (option : DecisionOption) : List (Call × Readings) :=
  let worker : TransitionTarget := ⟨some 3, some 4, some ['r'], some ['g']⟩
  let noCause : RuntimeCause := ⟨none, none, none⟩
  [ (.createDecision 2 ⟨3, 4, ['r'], some ['g']⟩ ['k'] ['p'] [option] none none 4 none noCause
      (someCaller 'h'), noon 5)
  , (.transitionRun 2 .running 3 none [] worker none noCause (someCaller 'g'), noon 0)
  , (.transitionRun 2 .starting 2 none [] worker none noCause (someCaller 'f'), noon 0)
  , (.pinAttemptRuntime 2 3 4 ['r'] (some ['g']) (some ['o']) 1 (someCaller 'e'), noon 0)
  , (.reserveAttemptDispatch 2 3 ['o'] ⟨['r'], ['g'], ['s'], ['d'], ['p']⟩ 0 60 (someCaller 'd'),
      noon 0)
  , (.createRuntimeBinding 1 ['x'] ['s'] 0 ['1'] none (someCaller 'c'), noon 4) ] ++ firstRun

/-- The decision of the run. -/
def askedDecision (option : DecisionOption) : Decision :=
  { id := 5, runId := 2, attemptId := 3, kind := ['k'], prompt := ['p'], options := [option]
    state := .pending, resolution := none, revision := 0
    createdAt := (noon 5).stamp 1, resolvedAt := none
    runtimeDecisionRef := none, runtimeDecisionRevision := none }

theorem open_decision_answered_askingRun :
    CanBeAnswered (fun _ => false) plainPlatform (after (askingRun ⟨['y'], none, none⟩)).2
      (askedDecision ⟨['y'], none, none⟩) (askedDecision ⟨['y'], none, none⟩) := by
  refine (open_decision_answered _ (history_after (askingRun ⟨['y'], none, none⟩))
    List.mem_cons_self rfl rfl rfl List.mem_cons_self rfl rfl).2 ?_
  decide

/-- An option with a blank in its id is accepted, and is not listed. -/
theorem open_decision_unanswerable :
    ∃ events event s created d, History (Step plainPlatform) emptyStore events s ∧
      event ∈ events ∧ event.2.replayed = false ∧ event.2.value = .decision created ∧
      (∃ runId target kind prompt options ref revision expectedRevision adapterEventId cause caller,
        event.1.1 = Call.createDecision runId target kind prompt options ref revision
          expectedRevision adapterEventId cause caller) ∧
      d ∈ s.tables.ledger.decisions ∧ d.id = created.id ∧ d.state = .pending ∧
      ¬CanBeAnswered (fun _ => false) plainPlatform s created d := by
  refine ⟨_, _, _, askedDecision ⟨"yes please".toList, none, none⟩,
    askedDecision ⟨"yes please".toList, none, none⟩,
    history_after (askingRun ⟨"yes please".toList, none, none⟩), List.mem_cons_self, rfl, rfl,
    ⟨_, _, _, _, _, _, _, _, _, _, _, rfl⟩, List.mem_cons_self, rfl, rfl, fun hanswered => ?_⟩
  exact absurd hanswered.lists (by decide)

end Cortex.Runs
