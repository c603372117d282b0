import Cortex.Captures.Steps

/-!
# One authorisation, one claim

What holds over every run of the inbox: a key has at most one open capture, a
capture is claimed at most once for each approve or reopen decision, a claim
epoch only grows, and a terminal capture never changes.

The counting invariant is `Budget`: an approved capture has one decision left
that no claim has used.
-/

namespace Cortex.Captures

open Control Time

variable {Digest : Type} [DecidableEq Digest] {requestHash : Request → Digest}
  {captureShape : Text → CaptureKind × Text}

def emptyStore : Store Digest := ⟨.empty, .empty⟩

/-! ## Rows along an arrow -/

theorem Moved.id_eq {e : Event} {c c' : Capture} (h : Moved e c c') : c'.id = c.id := by
  cases h <;> first | rfl | assumption

private theorem Moved.key_eq {e : Event} {c c' : Capture} (h : Moved e c c') :
    c'.captureKey = c.captureKey := by
  cases h <;> first | rfl | assumption

/-- No arrow opens a closed capture. -/
theorem Moved.isOpen {e : Event} {c c' : Capture} (h : Moved e c c') (hopen : c'.state.isOpen) :
    c.state.isOpen := by
  cases h with
  | kept => exact hopen
  | authorized _ _ hstate => rcases hstate with hstate | hstate <;> simp [hstate, CaptureState.isOpen]
  | dismissed _ _ hstate => simp [hstate, CaptureState.isOpen] at hopen
  | swept _ hstate => simp [hstate, CaptureState.isOpen]
  | claimed _ _ _ hstate => simp [hstate, CaptureState.isOpen]
  | completed _ _ _ _ hstate => simp [hstate, CaptureState.isOpen]

/-- The epoch never falls, and a claim raises it. -/
theorem Moved.epoch_le {e : Event} {c c' : Capture} (h : Moved e c c') :
    c.claimEpoch + (if e.claims c.id then 1 else 0) ≤ c'.claimEpoch := by
  cases h with
  | kept hspares => simp [hspares.2.1]
  | authorized _ hclaims _ _ _ _ hepoch => simp [hclaims, hepoch]
  | dismissed hspares _ _ _ _ hepoch => simp [hspares.2.1, hepoch]
  | swept hspares _ _ _ _ hepoch => simp [hspares.2.1, hepoch]
  | claimed hclaims _ _ _ _ _ _ hepoch => simp [hclaims, hepoch]
  | completed _ _ hclaims _ _ _ _ _ hepoch => simp [hclaims, hepoch]

/-- A terminal capture stays as it is. -/
theorem Moved.terminal {e : Event} {c c' : Capture} (h : Moved e c c')
    (hterminal : c.state.isTerminal) : c' = c := by
  cases h with
  | kept => rfl
  | authorized _ _ hstate =>
      rcases hstate with hstate | hstate <;> simp [hstate, CaptureState.isTerminal] at hterminal
  | dismissed _ hdismissable =>
      simp only [CaptureState.isDismissable, CaptureState.isTerminal, List.mem_cons,
        List.not_mem_nil, or_false] at hdismissable hterminal
      rcases hdismissable with h | h | h <;> simp [h] at hterminal
  | swept _ hstate => simp [hstate, CaptureState.isTerminal] at hterminal
  | claimed _ _ _ hstate => simp [hstate, CaptureState.isTerminal] at hterminal
  | completed _ _ _ _ hstate => simp [hstate, CaptureState.isTerminal] at hterminal

/-- A claim uses the approval; the approval comes from a decision. -/
private theorem Moved.budget {e : Event} {c c' : Capture} (h : Moved e c c') :
    (if e.claims c.id then 1 else 0) + (if c'.state = .approved then 1 else 0) ≤
      (if e.authorizes c.id then 1 else 0) + (if c.state = .approved then 1 else 0) := by
  cases h with
  | kept hspares => simp [hspares.1, hspares.2.1]
  | authorized hauthorizes hclaims _ hstate => simp [hauthorizes, hclaims, hstate]
  | dismissed hspares _ hstate => simp [hspares.2.1, hstate]
  | swept hspares _ hstate => simp [hspares.2.1, hstate]
  | claimed hclaims _ _ hstate hstate' => simp [hclaims, hstate, hstate']
  | completed _ _ hclaims _ _ hstate => rcases hstate with hstate | hstate | hstate <;>
      simp [hclaims, hstate]

/-- A row before a step is the same row, moved, after it. -/
theorem Effect.move {e : Event} {t t' : CaptureTable} (h : Effect e t t') {c : Capture}
    (hc : c ∈ t) : ∃ c' ∈ t', Moved e c c' := by
  cases h with
  | inserted hinsert _ _ _ hspares =>
      exact ⟨c, (Table.mem_insert hinsert).2 (.inl hc), .kept (hspares c.id)⟩
  | moved f hrows hf _ =>
      refine ⟨f c, ?_, hf c hc⟩
      rw [Table.mem_def, hrows]
      exact List.mem_map_of_mem hc

/-- A row after a step is a new pending row, or a moved one. -/
theorem Effect.origin {e : Event} {t t' : CaptureTable} (h : Effect e t t') {c' : Capture}
    (hc' : c' ∈ t') :
    (∃ c ∈ t, Moved e c c') ∨
      (c'.state = .pending ∧ c'.claimEpoch = 0 ∧ (∀ c ∈ t, c.id ≠ c'.id) ∧
        (∀ c ∈ t, c.state.isOpen → c.captureKey ≠ c'.captureKey) ∧ e.Spares c'.id) := by
  cases h with
  | inserted hinsert hstate hepoch hopen hspares =>
      rcases (Table.mem_insert hinsert).1 hc' with hc | rfl
      · exact .inl ⟨c', hc, .kept (hspares c'.id)⟩
      · exact .inr ⟨hstate, hepoch, (Table.rows_insert hinsert).2, hopen, hspares _⟩
  | moved f hrows hf _ =>
      rw [Table.mem_def, hrows, List.mem_map] at hc'
      obtain ⟨c, hc, rfl⟩ := hc'
      exact .inl ⟨c, hc, hf c hc⟩

/-- A command spares a capture that is not there. -/
private theorem Effect.spares {e : Event} {t t' : CaptureTable} (h : Effect e t t') (captureId : ℕ)
    (habsent : ∀ c ∈ t, c.id ≠ captureId) : e.Spares captureId := by
  cases h with
  | inserted _ _ _ _ hspares => exact hspares captureId
  | moved _ _ _ hspares => exact hspares captureId habsent

/-! ## (a) One open capture of a key -/

/-- At most one capture of a key is open. -/
def OpenUnique (t : CaptureTable) : Prop :=
  ∀ c ∈ t, ∀ c' ∈ t, c.captureKey = c'.captureKey → c.state.isOpen → c'.state.isOpen → c = c'

theorem OpenUnique.step {e : Event} {t t' : CaptureTable} (hunique : OpenUnique t)
    (h : Effect e t t') : OpenUnique t' := by
  intro c hc d hd hkey hopen hopen'
  cases h with
  | inserted hinsert _ _ hother _ =>
      rcases (Table.mem_insert hinsert).1 hc with hc | rfl
      · rcases (Table.mem_insert hinsert).1 hd with hd | rfl
        · exact hunique c hc d hd hkey hopen hopen'
        · exact absurd hkey (hother c hc hopen)
      · rcases (Table.mem_insert hinsert).1 hd with hd | rfl
        · exact absurd hkey.symm (hother d hd hopen')
        · rfl
  | moved f hrows hf _ =>
      rw [Table.mem_def, hrows, List.mem_map] at hc hd
      obtain ⟨c₀, hc₀, rfl⟩ := hc
      obtain ⟨d₀, hd₀, rfl⟩ := hd
      rw [(hf c₀ hc₀).key_eq, (hf d₀ hd₀).key_eq] at hkey
      rw [hunique c₀ hc₀ d₀ hd₀ hkey ((hf c₀ hc₀).isOpen hopen) ((hf d₀ hd₀).isOpen hopen')]

/-! ## (b) Claims are paid for by decisions -/

/-- Every claim so far, and the approval still standing, has its own decision. -/
def Budget (events : List Event) (t : CaptureTable) : Prop :=
  (∀ captureId, (∀ c ∈ t, c.id ≠ captureId) → events.countP (·.claims captureId) = 0) ∧
    ∀ c ∈ t, events.countP (·.claims c.id) + (if c.state = .approved then 1 else 0) ≤
      events.countP (·.authorizes c.id)

theorem Budget.step {events : List Event} {e : Event} {t t' : CaptureTable}
    (hbudget : Budget events t) (h : Effect e t t') : Budget (e :: events) t' := by
  obtain ⟨habsent, hpaid⟩ := hbudget
  refine ⟨fun captureId hnone => ?_, fun c' hc' => ?_⟩
  · have hnone' : ∀ c ∈ t, c.id ≠ captureId := by
      intro c hc hid
      obtain ⟨c', hc', hmoved⟩ := h.move hc
      exact hnone c' hc' (hmoved.id_eq.trans hid)
    simp [habsent captureId hnone', (h.spares captureId hnone').2.1]
  · rcases h.origin hc' with ⟨c, hc, hmoved⟩ | ⟨hstate, -, hfresh, -, hspares⟩
    · have hbefore := hpaid c hc
      have hmove := hmoved.budget
      rw [hmoved.id_eq, List.countP_cons, List.countP_cons]
      omega
    · simp [List.countP_cons, habsent c'.id hfresh, hstate, hspares.2.1]

private theorem Budget.claims_le {events : List Event} {t : CaptureTable} (h : Budget events t)
    (captureId : ℕ) :
    events.countP (·.claims captureId) ≤ events.countP (·.authorizes captureId) := by
  by_cases hrow : ∃ c ∈ t, c.id = captureId
  · obtain ⟨c, hc, rfl⟩ := hrow
    have := h.2 c hc
    omega
  · have := h.1 captureId fun c hc hid => hrow ⟨c, hc, hid⟩
    omega

/-- Without a decision no command approves a capture. -/
private theorem not_approved_of_undecided {s s' : Store Digest} {events : List Event} {c : Capture}
    (h : History (Step requestHash captureShape) s events s') (hc : c ∈ s.tables)
    (hstate : c.state ≠ .approved) (hundecided : ∀ e ∈ events, e.authorizes c.id = false) :
    ∃ c' ∈ s'.tables, c'.id = c.id ∧ c'.state ≠ .approved := by
  induction h with
  | nil => exact ⟨c, hc, rfl, hstate⟩
  | cons _ hstep ih =>
      obtain ⟨d, hd, hid, hdstate⟩ := ih fun e he => hundecided e (List.mem_cons_of_mem _ he)
      obtain ⟨d', hd', hmoved⟩ := (step_cases hstep).move hd
      refine ⟨d', hd', hmoved.id_eq.trans hid, fun happroved => ?_⟩
      have hbudget := hmoved.budget
      rw [if_pos happroved, if_neg hdstate, hid, hundecided _ List.mem_cons_self] at hbudget
      simp at hbudget

/-- The row a claim names, before and after it. -/
theorem Effect.claimed {e : Event} {t t' : CaptureTable} (h : Effect e t t') {captureId : ℕ}
    (hclaims : e.claims captureId = true) :
    ∃ c ∈ t, ∃ c' ∈ t', c.id = captureId ∧ c'.id = captureId ∧ c.state = .approved ∧
      c'.state = .claimed ∧ e.2.value = some c' := by
  by_cases hrow : ∃ c ∈ t, c.id = captureId
  · obtain ⟨c, hc, rfl⟩ := hrow
    obtain ⟨c', hc', hmoved⟩ := h.move hc
    refine ⟨c, hc, c', hc', rfl, hmoved.id_eq, ?_⟩
    cases hmoved with
    | claimed _ _ hvalue hstate hstate' => exact ⟨hstate, hstate', hvalue⟩
    | kept hspares => simp [hspares.2.1] at hclaims
    | authorized _ hnot => simp [hnot] at hclaims
    | dismissed hspares => simp [hspares.2.1] at hclaims
    | swept hspares => simp [hspares.2.1] at hclaims
    | completed _ _ hnot => simp [hnot] at hclaims
  · have hspares := h.spares captureId fun c hc hid => hrow ⟨c, hc, hid⟩
    simp [hspares.2.1] at hclaims

/-! ## (c) and (d) along a run -/

/-- The epoch of a row never falls along a run. -/
private theorem epoch_le_of_history {s s' : Store Digest} {events : List Event} {c : Capture}
    (h : History (Step requestHash captureShape) s events s') (hc : c ∈ s.tables) :
    ∃ c' ∈ s'.tables, c'.id = c.id ∧ c.claimEpoch ≤ c'.claimEpoch := by
  induction h with
  | nil => exact ⟨c, hc, rfl, le_rfl⟩
  | cons _ hstep ih =>
      obtain ⟨d, hd, hid, hle⟩ := ih
      obtain ⟨d', hd', hmoved⟩ := (step_cases hstep).move hd
      have hmove := hmoved.epoch_le
      exact ⟨d', hd', hmoved.id_eq.trans hid, by omega⟩

private theorem terminal_of_history {s s' : Store Digest} {events : List Event} {c : Capture}
    (h : History (Step requestHash captureShape) s events s') (hc : c ∈ s.tables)
    (hterminal : c.state.isTerminal) : c ∈ s'.tables := by
  induction h with
  | nil => exact hc
  | cons _ hstep ih =>
      obtain ⟨c', hc', hmoved⟩ := (step_cases hstep).move ih
      rwa [hmoved.terminal hterminal] at hc'

/-- A completion carries one epoch, and is neither a decision nor a claim. -/
private theorem Event.completes_epoch {e : Event} {captureId : ℕ} {owner : Text} {epoch : ℤ}
    (h : e.completes captureId owner epoch = true) :
    e.authorizes captureId = false ∧ e.claims captureId = false ∧
      ∀ owner' epoch', e.completes captureId owner' epoch' = true → epoch' = epoch := by
  obtain ⟨⟨call, readings⟩, reply⟩ := e
  cases call <;> simp_all [completes, authorizes, claims]

/-- A completion finds its own epoch in the row. -/
theorem Effect.completed {e : Event} {t t' : CaptureTable} (h : Effect e t t') {captureId : ℕ}
    {owner : Text} {epoch : ℤ} (hcompletes : e.completes captureId owner epoch = true) :
    ∃ c ∈ t, c.id = captureId ∧ (c.claimEpoch : ℤ) = epoch := by
  obtain ⟨hauthorizes, hclaims, hepoch⟩ := Event.completes_epoch hcompletes
  by_cases hrow : ∃ c ∈ t, c.id = captureId
  · obtain ⟨c, hc, rfl⟩ := hrow
    obtain ⟨c', hc', hmoved⟩ := h.move hc
    refine ⟨c, hc, rfl, ?_⟩
    cases hmoved with
    | completed hown => exact hepoch _ _ hown
    | kept hspares => simp [hspares.2.2] at hcompletes
    | dismissed hspares => simp [hspares.2.2] at hcompletes
    | swept hspares => simp [hspares.2.2] at hcompletes
    | authorized hown => simp [hown] at hauthorizes
    | claimed hown => simp [hown] at hclaims
  · have hspares := h.spares captureId fun c hc hid => hrow ⟨c, hc, hid⟩
    simp [hspares.2.2] at hcompletes

/-! ## The contract of the inbox -/

/-- A run cut at one of its events, into what led to it and what followed. -/
private theorem history_cut {start s : Store Digest} {later earlier : List Event} {e : Event}
    (h : History (Step requestHash captureShape) start (later ++ e :: earlier) s) :
    ∃ m m', History (Step requestHash captureShape) start earlier m ∧
      Effect e m.tables m'.tables ∧ History (Step requestHash captureShape) m' later s := by
  obtain ⟨m', h₁, h₂⟩ := h.split
  cases h₁ with
  | cons h₁ hstep => exact ⟨_, m', h₁, step_cases hstep, h₂⟩

/-- Two claims of a capture have a decision between them. -/
private theorem decision_between_claims {start s : Store Digest} {later mid earlier : List Event}
    {e e' : Event} {captureId : ℕ}
    (h : History (Step requestHash captureShape) start (later ++ e' :: (mid ++ e :: earlier)) s)
    (hclaims : e.claims captureId = true) (hclaims' : e'.claims captureId = true) :
    ∃ d ∈ mid, d.authorizes captureId = true := by
  obtain ⟨m, m', hbefore, heffect', -⟩ := history_cut h
  obtain ⟨n, n', -, heffect, hmid⟩ := history_cut hbefore
  obtain ⟨-, -, c, hc, -, rfl, -, hstate, -⟩ := heffect.claimed hclaims
  obtain ⟨d, hd, -, -, hid, -, happroved, -, -⟩ := heffect'.claimed hclaims'
  by_contra hnone
  have hundecided : ∀ e ∈ mid, e.authorizes c.id = false := by
    intro e he
    simpa using fun hyes => hnone ⟨e, he, hyes⟩
  obtain ⟨d', hd', hid', hnot⟩ :=
    not_approved_of_undecided hmid hc (by rw [hstate]; decide) hundecided
  obtain rfl : d' = d := Table.eq_of_key hd' hd (hid'.trans hid.symm)
  exact hnot happroved

/-- A completion under the epoch of an earlier claim does not follow a later claim. -/
private theorem no_stale_completion {start s : Store Digest} {later mid mid' earlier : List Event}
    {e e' complete : Event} {captureId : ℕ} {owner : Text} {claimed : Capture}
    (h : History (Step requestHash captureShape) start
      (later ++ complete :: (mid' ++ e' :: (mid ++ e :: earlier))) s)
    (hclaims : e.claims captureId = true) (hvalue : e.2.value = some claimed)
    (hclaims' : e'.claims captureId = true) :
    complete.completes captureId owner claimed.claimEpoch = false := by
  by_contra hcompletes
  rw [Bool.not_eq_false] at hcompletes
  obtain ⟨m, m', h₁, heffect₁, -⟩ := history_cut h
  obtain ⟨n, n', h₂, heffect₂, hmid'⟩ := history_cut h₁
  obtain ⟨o, o', -, heffect₃, hmid⟩ := history_cut h₂
  obtain ⟨-, -, c, hc, -, rfl, -, -, hvalue'⟩ := heffect₃.claimed hclaims
  obtain rfl : c = claimed := Option.some.inj (hvalue'.symm.trans hvalue)
  obtain ⟨d, hd, hdid, hdle⟩ := epoch_le_of_history hmid hc
  obtain ⟨d', hd', hmoved⟩ := heffect₂.move hd
  have hraised := hmoved.epoch_le
  rw [hdid, if_pos hclaims'] at hraised
  obtain ⟨f, hf, hfid, hfle⟩ := epoch_le_of_history hmid' hd'
  obtain ⟨g, hg, hgid, hgepoch⟩ := heffect₁.completed hcompletes
  obtain rfl : f = g :=
    Table.eq_of_key hf hg (hfid.trans (hmoved.id_eq.trans (hdid.trans hgid.symm)))
  omega

/-- Over every run of the inbox: one open capture of a key, one decision for each claim,
growing epochs that fence lost consumers off, and terminal captures that stay. -/
theorem exactly_one_authorisation {events : List Event} {s : Store Digest}
    (h : History (Step requestHash captureShape) emptyStore events s) :
    (∀ c ∈ s.tables, ∀ c' ∈ s.tables, c.captureKey = c'.captureKey →
      c.state.isOpen → c'.state.isOpen → c = c') ∧
    (∀ captureId,
      events.countP (·.claims captureId) ≤ events.countP (·.authorizes captureId)) ∧
    (∀ (captureId : ℕ) (later : List Event) (e' : Event) (mid : List Event) (e : Event)
      (earlier : List Event), events = later ++ e' :: (mid ++ e :: earlier) →
      e.claims captureId = true → e'.claims captureId = true →
      ∃ d ∈ mid, d.authorizes captureId = true) ∧
    (∀ (e : Event) s', Step requestHash captureShape s e s' → ∀ c ∈ s.tables, ∃ c' ∈ s'.tables,
      c'.id = c.id ∧ c.claimEpoch ≤ c'.claimEpoch ∧
      (e.claims c.id = true → c.claimEpoch < c'.claimEpoch)) ∧
    (∀ (captureId : ℕ) (owner : Text) (later : List Event) (complete : Event)
      (mid' : List Event) (e' : Event) (mid : List Event) (e : Event) (earlier : List Event)
      (claimed : Capture),
      events = later ++ complete :: (mid' ++ e' :: (mid ++ e :: earlier)) →
      e.claims captureId = true → e.2.value = some claimed → e'.claims captureId = true →
      complete.completes captureId owner claimed.claimEpoch = false) ∧
    (∀ events' s', History (Step requestHash captureShape) s events' s' →
      ∀ c ∈ s.tables, c.state.isTerminal → c ∈ s'.tables) := by
  refine ⟨?_, ?_, ?_, ?_, ?_, ?_⟩
  · refine h.invariant (P := fun s => OpenUnique s.tables) ?_ fun hunique hstep =>
      hunique.step (step_cases hstep)
    exact fun c hc => absurd hc (Table.not_mem_empty c)
  · have hbudget := h.induction (P := fun events s => Budget events s.tables)
      ⟨fun _ _ => rfl, fun c hc => absurd hc (Table.not_mem_empty c)⟩
      fun hbudget hstep => hbudget.step (step_cases hstep)
    exact hbudget.claims_le
  · rintro captureId later e' mid e earlier rfl hclaims hclaims'
    exact decision_between_claims h hclaims hclaims'
  · intro e s' hstep c hc
    obtain ⟨c', hc', hmoved⟩ := (step_cases hstep).move hc
    have hle := hmoved.epoch_le
    refine ⟨c', hc', hmoved.id_eq, by omega, fun hclaims => ?_⟩
    rw [if_pos hclaims] at hle
    omega
  · rintro captureId owner later complete mid' e' mid e earlier claimed rfl hclaims hvalue hclaims'
    exact no_stale_completion h hclaims hvalue hclaims'
  · exact fun events' s' h' c hc hterminal => terminal_of_history h' hc hterminal

/-- Readings whose clock stands still at noon of a day. -/
def noon (newId : ℕ) : Readings where
  clock _ :=
    { year := 2026, month := 9, day := 1, hour := 12, minute := 0, second := 0, microsecond := 0
      validDate := by decide, validTime := Civil.validTime_noon }
  newId
  sourceOfAlias _ := none
  isSource _ := true

def someCaller (key : Char) : Caller :=
  { actorId := ['o'], idempotencyKey := List.replicate 16 key }

/-- A capture staged, approved, claimed, reported uncertain, re-opened and claimed again. -/
def twoClaims : List (Call × Readings) :=
  [ (.claim 7 ['w'] 60 (someCaller 'e'), noon 0)
  , (.reopen 7 3 true (someCaller 'd'), noon 0)
  , (.complete 7 ['w'] 1
      { outcome := "uncertain", consumedSourceIds := none, failureCategory := none, detail := [] }
      (someCaller 'c'), noon 0)
  , (.claim 7 ['w'] 60 (someCaller 'b'), noon 0)
  , (.approve 7 0 (someCaller 'a'), noon 0)
  , (.create ['p'] [] (someCaller 'a'), noon 7) ]

/-- The state after `twoClaims`, with requests standing for their own digests. -/
def afterTwoClaims : List Event × Store Request :=
  runCalls (exec id fun payload => (.text, payload)) emptyStore twoClaims

theorem exactly_one_authorisation_twoClaims :
    afterTwoClaims.1.countP (·.claims 7) = 2 ∧
      afterTwoClaims.1.countP (·.claims 7) ≤ afterTwoClaims.1.countP (·.authorizes 7) :=
  ⟨by rfl, (exactly_one_authorisation (history_runCalls _ emptyStore twoClaims)).2.1 7⟩

end Cortex.Captures
