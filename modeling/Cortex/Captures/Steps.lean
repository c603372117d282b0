import Cortex.Captures.Store
import Cortex.Library.History

/-!
# What one capture command can do

`exec` collects the commands of the inbox, called by operators and consumers in
any order.  `step_cases` is the only place that looks inside them: a committed
command either adds a pending capture whose key had no open one, or moves every
row along one of the seven arrows of `Moved`.
-/

namespace Cortex.Captures

open Control Time Transaction

variable {Digest : Type} [DecidableEq Digest]

inductive Call
  | create (payload note : Text) (caller : Caller)
  | stage (payload note : Text)
  | approve (captureId : ℕ) (expectedRevision : ℤ) (caller : Caller)
  | dismiss (captureId : ℕ) (expectedRevision : ℤ) (caller : Caller)
  | reopen (captureId : ℕ) (expectedRevision : ℤ) (acknowledged : Bool) (caller : Caller)
  | listPending (limit : ℤ)
  | claim (captureId : ℕ) (workerId : Text) (leaseSeconds : ℤ) (caller : Caller)
  | complete (captureId : ℕ) (claimOwner : Text) (claimEpoch : ℤ) (outcome : Outcome)
      (caller : Caller)

/-- The answer of a committed command about one capture; a list answers none. -/
structure Reply where
  value : Option Capture
  replayed : Bool

def CommandReply (result : CommandResult Capture) : Reply :=
  { value := some result.value, replayed := result.replayed }

section

variable (requestHash : Request → Digest) (captureShape : Text → CaptureKind × Text)

/-- One command, with its readings of the clock and the other tables. -/
def exec (s : Store Digest) (input : Call × Readings) : Except StoreError (Store Digest × Reply) :=
  let readings := input.2
  match input.1 with
  | .create payload note caller => do
      let (s, result) ← createCapture requestHash captureShape s readings payload note caller
      pure (s, CommandReply result)
  | .stage payload note => do
      let (s, row, reused) ← stageCapture captureShape s readings payload note
      pure (s, { value := some row, replayed := reused })
  | .approve captureId expectedRevision caller => do
      let (s, result) ← approveCapture requestHash s readings captureId expectedRevision caller
      pure (s, CommandReply result)
  | .dismiss captureId expectedRevision caller => do
      let (s, result) ← dismissCapture requestHash s readings captureId expectedRevision caller
      pure (s, CommandReply result)
  | .reopen captureId expectedRevision acknowledged caller => do
      let (s, result) ←
        reopenCapture requestHash s readings captureId expectedRevision acknowledged caller
      pure (s, CommandReply result)
  | .listPending limit => do
      let (s, _) ← listPendingCaptures s readings limit
      pure (s, { value := none, replayed := false })
  | .claim captureId workerId leaseSeconds caller => do
      let (s, result) ← claimCapture requestHash s readings captureId workerId leaseSeconds caller
      pure (s, CommandReply result)
  | .complete captureId claimOwner claimEpoch outcome caller => do
      let (s, result) ←
        completeCapture requestHash s readings captureId claimOwner claimEpoch outcome caller
      pure (s, CommandReply result)

/-- One committed command of the inbox. -/
abbrev Step : Store Digest → (Call × Readings) × Reply → Store Digest → Prop :=
  Commits (exec requestHash captureShape)

end

/-- A committed command and its reply. -/
abbrev Event := (Call × Readings) × Reply

namespace Event

/-- A new approve or reopen decision on a capture. -/
def authorizes (captureId : ℕ) (e : Event) : Bool :=
  !e.2.replayed &&
    match e.1.1 with
    | .approve id _ _ => id == captureId
    | .reopen id _ _ _ => id == captureId
    | _ => false

/-- A new claim of a capture. -/
def claims (captureId : ℕ) (e : Event) : Bool :=
  !e.2.replayed &&
    match e.1.1 with
    | .claim id _ _ _ => id == captureId
    | _ => false

/-- A new completion of a capture under an owner and an epoch. -/
def completes (captureId : ℕ) (owner : Text) (epoch : ℤ) (e : Event) : Bool :=
  !e.2.replayed &&
    match e.1.1 with
    | .complete id claimOwner claimEpoch _ _ =>
        id == captureId && strip claimOwner == owner && claimEpoch == epoch
    | _ => false

/-- The command leaves the authorisations, claims and completions of a capture alone. -/
def Spares (captureId : ℕ) (e : Event) : Prop :=
  e.authorizes captureId = false ∧ e.claims captureId = false ∧
    ∀ owner epoch, e.completes captureId owner epoch = false

end Event

/-- The arrows of the capture state machine, with the command that takes each. -/
inductive Moved (e : Event) : Capture → Capture → Prop
  | kept {c : Capture} : e.Spares c.id → Moved e c c
  | swept {c c' : Capture} : e.Spares c.id → c.state = .claimed → c'.state = .uncertain →
      c'.id = c.id → c'.captureKey = c.captureKey → c'.claimEpoch = c.claimEpoch → Moved e c c'
  | authorized {c c' : Capture} : e.authorizes c.id = true → e.claims c.id = false →
      c.state = .pending ∨ c.state = .uncertain → c'.state = .approved →
      c'.id = c.id → c'.captureKey = c.captureKey → c'.claimEpoch = c.claimEpoch → Moved e c c'
  | dismissed {c c' : Capture} : e.Spares c.id → c.state.isDismissable → c'.state = .dismissed →
      c'.id = c.id → c'.captureKey = c.captureKey → c'.claimEpoch = c.claimEpoch → Moved e c c'
  | claimed {c c' : Capture} : e.claims c.id = true → e.authorizes c.id = false →
      e.2.value = some c' → c.state = .approved → c'.state = .claimed →
      c'.id = c.id → c'.captureKey = c.captureKey → c'.claimEpoch = c.claimEpoch + 1 → Moved e c c'
  | completed {c c' : Capture} {owner : Text} : e.completes c.id owner c.claimEpoch = true →
      c.claimOwner = some owner → e.claims c.id = false → e.authorizes c.id = false →
      c.state = .claimed → c'.state = .consumed ∨ c'.state = .failed ∨ c'.state = .uncertain →
      c'.id = c.id → c'.captureKey = c.captureKey → c'.claimEpoch = c.claimEpoch → Moved e c c'

/-- What a committed command does to the table. -/
inductive Effect (e : Event) (t t' : CaptureTable) : Prop
  | inserted {row : Capture} : t.insert? row = some t' → row.state = .pending →
      row.claimEpoch = 0 → (∀ c ∈ t, c.state.isOpen → c.captureKey ≠ row.captureKey) →
      (∀ captureId, e.Spares captureId) → Effect e t t'
  | moved (f : Capture → Capture) : t'.rows = t.rows.map f → (∀ c ∈ t, Moved e c (f c)) →
      (∀ captureId, (∀ c ∈ t, c.id ≠ captureId) → e.Spares captureId) → Effect e t t'

/-! ## The commands -/

private theorem capture_eq_ok {captures : CaptureTable} {captureId : ℕ} {row : Capture}
    (h : capture captures captureId = .ok row) : row ∈ captures ∧ row.id = captureId := by
  rw [capture, orRaise_eq_ok] at h
  exact Table.get?_eq_some.1 h

private theorem openCapture_eq_none {captures : CaptureTable} {captureKey : Text}
    (h : (openCapture captures captureKey).isNone) :
    ∀ c ∈ captures, c.state.isOpen → c.captureKey ≠ captureKey := by
  intro c hc hopen hkey
  rw [Option.isNone_iff_eq_none, openCapture, List.head?_eq_none_iff] at h
  have hmem : c ∈ captures.rows.filter fun c => c.captureKey = captureKey ∧ c.state.isOpen := by
    simp only [List.mem_filter, decide_eq_true_eq]
    exact ⟨hc, hkey, hopen⟩
  rw [← Keyset.mem_orderBy (fun c : Capture => toLex (c.createdAt, c.id)), h] at hmem
  simp at hmem

private theorem insertCapture_eq_ok {captures captures' : CaptureTable} {readings : Readings}
    {payload note : Text} {kind : CaptureKind} {captureKey : Text} {row : Capture}
    (h : insertCapture captures readings payload note kind captureKey = .ok (captures', row)) :
    captures.insert? row = some captures' ∧ row.state = .pending ∧ row.claimEpoch = 0 ∧
      row.captureKey = captureKey := by
  simp only [insertCapture, bind_eq_ok, orRaise_eq_ok, pure_eq_ok, Prod.mk.injEq] at h
  obtain ⟨_, hinsert, rfl, rfl⟩ := h
  exact ⟨hinsert, rfl, rfl, rfl⟩

private theorem decideCapture_eq_ok {captures captures' : CaptureTable} {captureId : ℕ}
    {expectedRevision : ℤ} {now : Civil} {target : CaptureState} {source : CaptureState → Prop}
    [DecidablePred source] {change : Capture → Capture} {hchange : ∀ c, (change c).id = c.id}
    {value : Capture}
    (h : decideCapture captures captureId expectedRevision now target source change hchange =
      .ok (captures', value)) :
    ∃ row ∈ captures, row.id = captureId ∧ source row.state ∧
      captures'.rows = captures.rows.map fun c => if c.id = captureId then { change c with
        state := target, revision := c.revision + 1, updatedAt := formatTime now } else c := by
  simp only [decideCapture, bind_eq_ok, orRaise_eq_ok, pure_eq_ok, Prod.mk.injEq] at h
  obtain ⟨-, -, -, -, -, -, _, hupdate, -, -, rfl, -⟩ := h
  obtain ⟨row, hrow, hid, ⟨-, hsource⟩, -, hrows⟩ := Table.updateRow?_eq_some hupdate
  exact ⟨row, hrow, hid, hsource, hrows⟩

/-- The row is kept, or its expired claim is set aside. -/
def SweptTo (c c' : Capture) : Prop :=
  c' = c ∨ c.state = .claimed ∧ c'.state = .uncertain ∧ c'.id = c.id ∧
    c'.captureKey = c.captureKey ∧ c'.claimEpoch = c.claimEpoch

theorem SweptTo.id_eq {c c' : Capture} (h : SweptTo c c') : c'.id = c.id := by
  rcases h with rfl | ⟨-, -, hid, -⟩
  · rfl
  · exact hid

private theorem sweepExpiredCaptures_spec (captures : CaptureTable) (now : Civil) :
    ∃ f : Capture → Capture, (sweepExpiredCaptures captures now).rows = captures.rows.map f ∧
      ∀ c, SweptTo c (f c) := by
  refine ⟨_, rfl, fun c => ?_⟩
  by_cases hexpired : leaseExpired (formatTime now) c
  · rw [if_pos hexpired]
    exact .inr ⟨hexpired.1, rfl, rfl, rfl, rfl⟩
  · exact .inl (if_neg hexpired)

/-- A claim sweeps, and then takes one approved row, which the sweep has not touched. -/
private theorem claimApproved_eq_ok {captures captures' : CaptureTable} {readings : Readings}
    {captureId : ℕ} {workerId : Text} {leaseSeconds : ℤ} {value : Capture}
    (h : claimApproved captures readings captureId workerId leaseSeconds = .ok (captures', value)) :
    (∃ row ∈ captures, row.id = captureId) ∧
      ∃ f : Capture → Capture, captures'.rows = captures.rows.map f ∧
        ∀ c ∈ captures, (c.id ≠ captureId ∧ SweptTo c (f c)) ∨
          (c.id = captureId ∧ c.state = .approved ∧ value = f c ∧ (f c).state = .claimed ∧
            (f c).id = c.id ∧ (f c).captureKey = c.captureKey ∧
            (f c).claimEpoch = c.claimEpoch + 1) := by
  simp only [claimApproved, bind_eq_ok, orRaise_eq_ok, pure_eq_ok, Prod.mk.injEq] at h
  obtain ⟨-, -, -, -, expires, -, _, hupdate, row', hrow', rfl, rfl⟩ := h
  obtain ⟨row, hrow, hid, happroved, hget, hrows⟩ := Table.updateRow?_eq_some hupdate
  obtain rfl := Option.some.inj (hget.symm.trans (orRaise_eq_ok.1 hrow'))
  obtain ⟨g, hg, hswept⟩ := sweepExpiredCaptures_spec captures (readings.clock 0)
  rw [Table.mem_def, hg, List.mem_map] at hrow
  obtain ⟨c₀, hc₀, rfl⟩ := hrow
  change (g c₀).id = captureId at hid
  have hid₀ : c₀.id = captureId := (hswept c₀).id_eq ▸ hid
  have hkept : g c₀ = c₀ := by
    rcases hswept c₀ with hkept | ⟨-, huncertain, -⟩
    · exact hkept
    · rw [huncertain] at happroved
      contradiction
  rw [hkept] at happroved
  rw [hg, List.map_map] at hrows
  refine ⟨⟨c₀, hc₀, hid₀⟩, _, hrows, fun c hc => ?_⟩
  by_cases hcid : c.id = captureId
  · obtain rfl : c = c₀ := Table.eq_of_key hc hc₀ (hcid.trans hid₀.symm)
    right
    simp only [Function.comp_apply, hkept, Keyed.key, hcid, if_true, happroved, and_self]
  · refine .inl ⟨hcid, ?_⟩
    have hcid' : Keyed.key (g c) ≠ captureId := fun h => hcid ((hswept c).id_eq ▸ h)
    rw [Function.comp_apply, if_neg hcid']
    exact hswept c

theorem completeClaimed_eq_ok {captures captures' : CaptureTable} {readings : Readings}
    {captureId : ℕ} {claimOwner : Text} {claimEpoch : ℤ} {target : CaptureState}
    {sourceIds : Option (List Text)} {category : Option String} {value : Capture}
    (h : completeClaimed captures readings captureId claimOwner claimEpoch target sourceIds
      category = .ok (captures', value)) :
    ∃ row ∈ captures, row.id = captureId ∧ (row.state = .claimed ∧
      row.claimOwner = some claimOwner ∧ (row.claimEpoch : ℤ) = claimEpoch) ∧
      captures'.rows = captures.rows.map fun c => if c.id = captureId then
        { c with
          state := target, claimOwner := none, claimExpiresAt := none
          consumedSourceIds := sourceIds, failureCategory := category
          revision := c.revision + 1, updatedAt := formatTime (readings.clock 0) } else c := by
  simp only [completeClaimed, bind_eq_ok, orRaise_eq_ok, pure_eq_ok, Prod.mk.injEq] at h
  obtain ⟨-, -, -, -, _, hupdate, -, -, rfl, -⟩ := h
  obtain ⟨row, hrow, hid, hfence, -, hrows⟩ := Table.updateRow?_eq_some hupdate
  exact ⟨row, hrow, hid, hfence, hrows⟩

theorem captureOutcome_eq_ok {o : Outcome}
    {target : CaptureState × Option (List Text) × Option String}
    (h : captureOutcome o = .ok target) :
    target.1 = .consumed ∨ target.1 = .failed ∨ target.1 = .uncertain := by
  unfold captureOutcome at h
  split at h
  · simp only [bind_eq_ok, pure_eq_ok] at h
    obtain ⟨-, -, -, -, rfl⟩ := h
    exact .inl rfl
  · simp only [bind_eq_ok] at h
    obtain ⟨-, -, h⟩ := h
    split at h
    · split at h
      · simp only [bind_eq_ok, pure_eq_ok] at h
        obtain ⟨-, -, rfl⟩ := h
        exact .inr (.inl rfl)
      · simp at h
    · split at h
      · split at h
        · simp only [pure_eq_ok] at h
          subst h
          exact .inr (.inr rfl)
        · simp only [bind_eq_ok, pure_eq_ok] at h
          obtain ⟨-, -, rfl⟩ := h
          exact .inr (.inr rfl)
      · simp at h

/-! ## The step -/

section

variable {requestHash : Request → Digest} {captureShape : Text → CaptureKind × Text}

/-- A command that changes nothing and decides nothing. -/
theorem Effect.unchanged {e : Event} {t : CaptureTable} (h : ∀ captureId, e.Spares captureId) :
    Effect e t t :=
  .moved id (List.map_id _).symm (fun c _ => .kept (h c.id)) fun captureId _ => h captureId

private theorem Event.spares_of_replayed {e : Event} (h : e.2.replayed = true) (captureId : ℕ) :
    e.Spares captureId := by
  simp [Spares, authorizes, claims, completes, h]

/-- The rows other than the one a command names are kept. -/
theorem Effect.one {e : Event} {t t' : CaptureTable} {captureId : ℕ} {f : Capture → Capture}
    (hrows : t'.rows = t.rows.map fun c => if c.id = captureId then f c else c)
    (hrow : ∃ row ∈ t, row.id = captureId ∧ Moved e row (f row))
    (hspares : ∀ other, other ≠ captureId → e.Spares other) : Effect e t t' := by
  obtain ⟨row, hmem, hid, hmoved⟩ := hrow
  refine .moved _ hrows (fun c hc => ?_) fun other hother => hspares other ?_
  · by_cases hcid : c.id = captureId
    · obtain rfl : c = row := Table.eq_of_key hc hmem (hcid.trans hid.symm)
      rwa [if_pos hcid]
    · rw [if_neg hcid]
      exact .kept (hspares c.id hcid)
  · rintro rfl
    exact hother row hmem hid

theorem SweptTo.moved {e : Event} {c c' : Capture} (h : SweptTo c c') (hspares : e.Spares c.id) :
    Moved e c c' := by
  rcases h with rfl | ⟨hclaimed, huncertain, hid, hkey, hepoch⟩
  · exact .kept hspares
  · exact .swept hspares hclaimed huncertain hid hkey hepoch

/-- A committed command inserts one pending capture, or moves rows along the arrows. -/
theorem step_cases {s s' : Store Digest} {e : Event} (h : Step requestHash captureShape s e s') :
    Effect e s.tables s'.tables := by
  obtain ⟨⟨call, readings⟩, reply⟩ := e
  unfold Step Commits at h
  cases call with
  | create payload note caller =>
      simp only [exec, createCapture, bind_eq_ok, pure_eq_ok, Prod.mk.injEq] at h
      obtain ⟨⟨s₁, result⟩, ⟨_, -, _, -, hcommand⟩, rfl, rfl⟩ := h
      have hspares : ∀ captureId, Event.Spares captureId
          ((.create payload note caller, readings), CommandReply result) := by
        simp [Event.Spares, Event.authorizes, Event.claims, Event.completes]
      rcases command_eq_ok hcommand with ⟨-, rfl⟩ | ⟨-, -, hbody⟩
      · exact .unchanged hspares
      · simp only [bind_eq_ok, require_eq_ok] at hbody
        obtain ⟨-, hopen, hinsert⟩ := hbody
        obtain ⟨hinsert, hstate, hepoch, hkey⟩ := insertCapture_eq_ok hinsert
        exact .inserted hinsert hstate hepoch (hkey ▸ openCapture_eq_none hopen) hspares
  | stage payload note =>
      simp only [exec, stageCapture, bind_eq_ok, pure_eq_ok, Prod.mk.injEq] at h
      obtain ⟨⟨s₁, row, reused⟩, ⟨_, -, _, -, hstage⟩, rfl, rfl⟩ := h
      have hspares : ∀ captureId, Event.Spares captureId
          ((.stage payload note, readings), { value := some row, replayed := reused }) := by
        simp [Event.Spares, Event.authorizes, Event.claims, Event.completes]
      split at hstage
      · simp only [pure_eq_ok, Prod.mk.injEq] at hstage
        obtain ⟨rfl, -, -⟩ := hstage
        exact .unchanged hspares
      · rename_i hopen
        simp only [bind_eq_ok, pure_eq_ok, Prod.mk.injEq] at hstage
        obtain ⟨⟨captures, _⟩, hinsert, rfl, -, -⟩ := hstage
        obtain ⟨hinsert, hstate, hepoch, hkey⟩ := insertCapture_eq_ok hinsert
        exact .inserted hinsert hstate hepoch
          (hkey ▸ openCapture_eq_none (Option.isNone_iff_eq_none.2 hopen)) hspares
  | approve captureId expectedRevision caller =>
      simp only [exec, approveCapture, bind_eq_ok, pure_eq_ok, Prod.mk.injEq] at h
      obtain ⟨⟨s₁, result⟩, hcommand, rfl, rfl⟩ := h
      rcases command_eq_ok hcommand with ⟨hreplayed, rfl⟩ | ⟨hnew, -, hbody⟩
      · exact .unchanged (Event.spares_of_replayed hreplayed)
      · obtain ⟨row, hrow, hid, hsource, hrows⟩ := decideCapture_eq_ok hbody
        refine .one hrows ⟨row, hrow, hid, .authorized ?_ ?_ (.inl hsource) rfl rfl rfl rfl⟩ ?_
        · simp [Event.authorizes, CommandReply, hnew, hid]
        · simp [Event.claims]
        · intro other hother
          simp [Event.Spares, Event.authorizes, Event.claims, Event.completes, hother.symm]
  | dismiss captureId expectedRevision caller =>
      simp only [exec, dismissCapture, bind_eq_ok, pure_eq_ok, Prod.mk.injEq] at h
      obtain ⟨⟨s₁, result⟩, hcommand, rfl, rfl⟩ := h
      have hspares : ∀ other, Event.Spares other
          ((.dismiss captureId expectedRevision caller, readings), CommandReply result) := by
        simp [Event.Spares, Event.authorizes, Event.claims, Event.completes]
      rcases command_eq_ok hcommand with ⟨-, rfl⟩ | ⟨-, -, hbody⟩
      · exact .unchanged hspares
      · obtain ⟨row, hrow, hid, hsource, hrows⟩ := decideCapture_eq_ok hbody
        exact .one hrows ⟨row, hrow, hid, .dismissed (hspares _) hsource rfl rfl rfl rfl⟩
          fun other _ => hspares other
  | reopen captureId expectedRevision acknowledged caller =>
      simp only [exec, reopenCapture, bind_eq_ok, pure_eq_ok, Prod.mk.injEq] at h
      obtain ⟨⟨s₁, result⟩, ⟨-, -, hcommand⟩, rfl, rfl⟩ := h
      rcases command_eq_ok hcommand with ⟨hreplayed, rfl⟩ | ⟨hnew, -, hbody⟩
      · exact .unchanged (Event.spares_of_replayed hreplayed)
      · obtain ⟨row, hrow, hid, hsource, hrows⟩ := decideCapture_eq_ok hbody
        refine .one hrows ⟨row, hrow, hid, .authorized ?_ ?_ (.inr hsource) rfl rfl rfl rfl⟩ ?_
        · simp [Event.authorizes, CommandReply, hnew, hid]
        · simp [Event.claims]
        · intro other hother
          simp [Event.Spares, Event.authorizes, Event.claims, Event.completes, hother.symm]
  | listPending limit =>
      simp only [exec, listPendingCaptures, bind_eq_ok, pure_eq_ok, Prod.mk.injEq] at h
      obtain ⟨_, ⟨-, -, rfl⟩, rfl, rfl⟩ := h
      have hspares : ∀ other, Event.Spares other
          ((.listPending limit, readings), { value := none, replayed := false }) := by
        simp [Event.Spares, Event.authorizes, Event.claims, Event.completes]
      obtain ⟨f, hrows, hswept⟩ := sweepExpiredCaptures_spec s.tables (readings.clock 0)
      exact .moved f hrows (fun c _ => (hswept c).moved (hspares c.id)) fun other _ => hspares other
  | claim captureId workerId leaseSeconds caller =>
      simp only [exec, claimCapture, bind_eq_ok, pure_eq_ok, Prod.mk.injEq] at h
      obtain ⟨⟨s₁, result⟩, ⟨_, -, -, -, ⟨s₂, result₂⟩, hcommand, h⟩, rfl, rfl⟩ := h
      obtain ⟨rfl, rfl⟩ : s₂ = s₁ ∧ result₂ = result := by
        split at h
        · simp only [bind_eq_ok, pure_eq_ok, Prod.mk.injEq] at h
          obtain ⟨-, -, -, -, h⟩ := h
          exact h
        · simpa only [pure_eq_ok, Prod.mk.injEq] using h
      rcases command_eq_ok hcommand with ⟨hreplayed, rfl⟩ | ⟨hnew, -, hbody⟩
      · exact .unchanged (Event.spares_of_replayed hreplayed)
      · obtain ⟨⟨row, hrow, hid⟩, f, hrows, hf⟩ := claimApproved_eq_ok hbody
        have hspares : ∀ other, other ≠ captureId → Event.Spares other
            ((.claim captureId workerId leaseSeconds caller, readings), CommandReply result₂) := by
          intro other hother
          simp [Event.Spares, Event.authorizes, Event.claims, Event.completes, hother.symm]
        refine .moved f hrows (fun c hc => ?_) fun other hother => hspares other ?_
        · rcases hf c hc with ⟨hcid, hswept⟩ | ⟨hcid, happroved, hvalue, hclaimed⟩
          · exact hswept.moved (hspares c.id hcid)
          · refine .claimed ?_ ?_ (congrArg some hvalue) happroved hclaimed.1 hclaimed.2.1
              hclaimed.2.2.1 hclaimed.2.2.2
            · simp [Event.claims, CommandReply, hnew, hcid]
            · simp [Event.authorizes]
        · rintro rfl
          exact hother row hrow hid
  | complete captureId claimOwner claimEpoch outcome caller =>
      simp only [exec, completeCapture, bind_eq_ok, pure_eq_ok, Prod.mk.injEq] at h
      obtain ⟨⟨s₁, result⟩, ⟨owner, howner, -, -, target, htarget, _, -, hcommand⟩, rfl, rfl⟩ := h
      rcases command_eq_ok hcommand with ⟨hreplayed, rfl⟩ | ⟨hnew, -, hbody⟩
      · exact .unchanged (Event.spares_of_replayed hreplayed)
      · obtain ⟨row, hrow, hid, ⟨hstate, hrowowner, hepoch⟩, hrows⟩ := completeClaimed_eq_ok hbody
        refine .one hrows ⟨row, hrow, hid, .completed ?_ hrowowner ?_ ?_ hstate
          (captureOutcome_eq_ok htarget) rfl rfl rfl⟩ ?_
        · simp [Event.completes, CommandReply, hnew, hid, hepoch, requiredText_eq_ok howner]
        · simp [Event.claims]
        · simp [Event.authorizes]
        · intro other hother
          simp [Event.Spares, Event.authorizes, Event.claims, Event.completes, hother.symm]

end

end Cortex.Captures
