import Cortex.Worker.Serve
import Cortex.OperationLedger.Known

/-!
# One run for each operation

`Inv` holds in every state of every run of worker processes over one ledger: the
ledger knows the operations that began, each under one digest; the runner was
called at most once for each; and every turn but the latest is done.  It does not
depend on what the requests are.

What does is the answer to a `turn.begin`.  While the turn of an operation is
open, its process answers `duplicate` without a look at the digest, so `Careful`
is the exact condition for the answer to be right (`turn_runs_once`).
-/

namespace Cortex.Worker

open Control (Text)
open OperationLedger Transaction

variable {P : Platform} {events : List Event} {s s' : Machine} {p : Process}

/-- The checks of `requireReady`. -/
structure Ready (s : Machine) (p : Process) : Prop where
  identity : p.identityOk = true
  ledger : s.ledger.handle.isSome = true
  measured : p.measured = true

/-- What holds in every reachable state. -/
structure Inv (P : Platform) (events : List Event) (s : Machine) : Prop where
  knows : ∃ r, Knows P s.ledger r ∧
    ∀ operationId digest, r operationId = some digest ↔ BegunUnder events operationId digest
  closed : s.process = none → s.ledger.handle = none
  called : ∀ operationId, events.countP (callsRunner operationId) ≤ 1
  calledBegun : ∀ operationId, 0 < events.countP (callsRunner operationId) →
    ∃ digest, BegunUnder events operationId digest
  others : ∀ p, s.process = some p → ∀ turn ∈ p.turns.tail, turn.phase = .done
  turnBegun : ∀ p, s.process = some p → ∀ turn ∈ p.turns,
    ∃ digest, BegunUnder events turn.operationId.val digest

/-! ## Events -/

theorem BegunUnder.cons {operationId digest : Text} (h : BegunUnder events operationId digest)
    (event : Event) : BegunUnder (event :: events) operationId digest := by
  rw [BegunUnder, List.filterMap_cons]
  split
  · exact h
  · exact List.mem_cons_of_mem _ h

theorem begunUnder_quiet {event : Event} (h : begun event = none) {operationId digest : Text} :
    BegunUnder (event :: events) operationId digest ↔ BegunUnder events operationId digest := by
  rw [BegunUnder, List.filterMap_cons_none h, BegunUnder]

theorem begunUnder_begun {event : Event} {operationId digest id d : Text}
    (h : begun event = some (id, d)) :
    BegunUnder (event :: events) operationId digest ↔
      operationId = id ∧ digest = d ∨ BegunUnder events operationId digest := by
  rw [BegunUnder, List.filterMap_cons_some h, List.mem_cons, Prod.mk.injEq, BegunUnder]

theorem callsRunner_begun {event : Event} {operationId : Text}
    (h : callsRunner operationId event = true) :
    ∃ digest, begun event = some (operationId, digest) := by
  unfold callsRunner at h
  split at h
  · rename_i id digest _
    rw [decide_eq_true_eq] at h
    exact ⟨digest.val, by rw [← h]; rfl⟩
  · cases h

/-! ## Steps of the invariant -/

/-- A step that begins nothing. -/
theorem Inv.quiet (h : Inv P events s) {event : Event} (hbegun : begun event = none)
    (hknows : ∀ r, Knows P s.ledger r → Knows P s'.ledger r)
    (hclosed : s'.process = none → s'.ledger.handle = none)
    (hothers : ∀ p, s'.process = some p → ∀ turn ∈ p.turns.tail, turn.phase = .done)
    (hturns : ∀ p', s'.process = some p' → ∀ turn ∈ p'.turns,
      ∃ p, s.process = some p ∧ ∃ old ∈ p.turns, old.operationId = turn.operationId) :
    Inv P (event :: events) s' := by
  have hcalls : ∀ operationId, callsRunner operationId event = false := by
    intro operationId
    by_contra hcall
    obtain ⟨digest, hdigest⟩ := callsRunner_begun (Bool.not_eq_false _ ▸ hcall)
    rw [hbegun] at hdigest
    cases hdigest
  have hcount : ∀ operationId, (event :: events).countP (callsRunner operationId) =
      events.countP (callsRunner operationId) := by
    intro operationId
    rw [List.countP_cons, hcalls]
    rfl
  obtain ⟨r, hr, hagrees⟩ := h.knows
  refine ⟨⟨r, hknows r hr, fun operationId digest => ?_⟩, hclosed, fun operationId => ?_,
    fun operationId hpos => ?_, hothers, fun p' hp' turn hturn => ?_⟩
  · rw [hagrees, begunUnder_quiet hbegun]
  · rw [hcount]
    exact h.called operationId
  · rw [hcount] at hpos
    obtain ⟨digest, hdigest⟩ := h.calledBegun operationId hpos
    exact ⟨digest, hdigest.cons event⟩
  · obtain ⟨p, hp, old, hold, hid⟩ := hturns p' hp' turn hturn
    obtain ⟨digest, hdigest⟩ := h.turnBegun p hp old hold
    rw [hid] at hdigest
    exact ⟨digest, hdigest.cons event⟩

/-- A step that changes neither the process nor what the ledger knows. -/
theorem Inv.same (h : Inv P events s) {event : Event} (hbegun : begun event = none)
    (hprocess : s'.process = s.process) (hhandle : s'.ledger.handle.isSome = s.ledger.handle.isSome)
    (hknows : ∀ r, Knows P s.ledger r → Knows P s'.ledger r) : Inv P (event :: events) s' := by
  refine h.quiet hbegun hknows (fun hnone => ?_) (fun p hp => ?_) fun p hp turn hturn => ?_
  · have hclosed := h.closed (hprocess ▸ hnone)
    rw [hclosed] at hhandle
    exact Option.isNone_iff_eq_none.1 (by rw [← Option.not_isSome, hhandle]; rfl)
  · exact h.others p (hprocess ▸ hp)
  · exact ⟨p, hprocess ▸ hp, turn, hturn, rfl⟩

/-- The process is gone. -/
theorem Inv.gone (h : Inv P events s) {event : Event} (hbegun : begun event = none)
    (hprocess : s'.process = none) (hhandle : s'.ledger.handle = none)
    (hknows : ∀ r, Knows P s.ledger r → Knows P s'.ledger r) : Inv P (event :: events) s' := by
  refine h.quiet hbegun hknows (fun _ => hhandle) (fun p hp => ?_) fun p hp => ?_
  · rw [hprocess] at hp
    cases hp
  · rw [hprocess] at hp
    cases hp

/-- A step that begins an operation which the ledger did not know. -/
theorem Inv.begins (h : Inv P events s) {event : Event} {operationId digest : Text}
    (hbegun : begun event = some (operationId, digest))
    (hknows : ∀ r, Knows P s.ledger r → r operationId = none ∧
      Knows P s'.ledger (Function.update r operationId (some digest)))
    (hclosed : s'.process = none → s'.ledger.handle = none)
    (hothers : ∀ p, s'.process = some p → ∀ turn ∈ p.turns.tail, turn.phase = .done)
    (hturns : ∀ p', s'.process = some p' → ∀ turn ∈ p'.turns, turn.operationId.val = operationId ∨
      ∃ p, s.process = some p ∧ ∃ old ∈ p.turns, old.operationId = turn.operationId) :
    Inv P (event :: events) s' := by
  obtain ⟨r, hr, hagrees⟩ := h.knows
  obtain ⟨hnone, hknows⟩ := hknows r hr
  have hfresh : ∀ d, ¬BegunUnder events operationId d := by
    intro d hd
    rw [← hagrees, hnone] at hd
    cases hd
  refine ⟨⟨_, hknows, fun id d => ?_⟩, hclosed, fun id => ?_, fun id hpos => ?_, hothers,
    fun p' hp' turn hturn => ?_⟩
  · rw [begunUnder_begun hbegun]
    by_cases hid : id = operationId
    · subst hid
      rw [Function.update_self, Option.some.injEq]
      constructor
      · rintro rfl
        exact .inl ⟨rfl, rfl⟩
      · rintro (⟨-, rfl⟩ | hold)
        · rfl
        · exact absurd hold (hfresh d)
    · rw [Function.update_of_ne hid, hagrees]
      exact ⟨.inr, fun hor => hor.resolve_left fun hand => hid hand.1⟩
  · rw [List.countP_cons]
    split
    · -- The runner was not called for this operation before.
      rename_i hcall
      obtain ⟨d, hd⟩ := callsRunner_begun hcall
      obtain rfl : operationId = id := by
        rw [hbegun] at hd
        exact congrArg Prod.fst (Option.some.inj hd)
      have hzero : events.countP (callsRunner operationId) = 0 := by
        by_contra hne
        obtain ⟨d, hd⟩ := h.calledBegun operationId (Nat.pos_of_ne_zero hne)
        exact hfresh d hd
      omega
    · exact h.called id
  · by_cases hid : id = operationId
    · exact ⟨digest, (begunUnder_begun hbegun).2 (.inl ⟨hid, rfl⟩)⟩
    · have hcall : callsRunner id event = false := by
        by_contra hcall
        obtain ⟨d, hd⟩ := callsRunner_begun (Bool.not_eq_false _ ▸ hcall)
        rw [hbegun] at hd
        exact hid (congrArg Prod.fst (Option.some.inj hd)).symm
      rw [List.countP_cons, hcall] at hpos
      obtain ⟨d, hd⟩ := h.calledBegun id (by simpa using hpos)
      exact ⟨d, hd.cons event⟩
  · rcases hturns p' hp' turn hturn with hid | ⟨p, hp, old, hold, hid⟩
    · exact ⟨digest, (begunUnder_begun hbegun).2 (.inl ⟨hid, rfl⟩)⟩
    · obtain ⟨d, hd⟩ := h.turnBegun p hp old hold
      rw [hid] at hd
      exact ⟨d, hd.cons event⟩

/-! ## Steps of the machine -/

/-- Only the latest turn can move. -/
theorem move_turns {p' : Process} {index : ℕ} {source target : TurnPhase}
    (hmove : p.move index source target = some p') (hsource : source ≠ .done)
    (hothers : ∀ turn ∈ p.turns.tail, turn.phase = .done) :
    (∀ turn ∈ p'.turns.tail, turn.phase = .done) ∧
      ∀ turn ∈ p'.turns, ∃ old ∈ p.turns, old.operationId = turn.operationId := by
  unfold Process.move at hmove
  split at hmove
  · rename_i turn hturn
    split at hmove
    · rename_i hphase
      injection hmove with hmove
      subst hmove
      obtain ⟨identityOk, measured, turns⟩ := p
      cases turns with
      | nil => simp at hturn
      | cons latest turns =>
          cases index with
          | zero =>
              obtain rfl : latest = turn := by simpa using hturn
              refine ⟨hothers, fun other hother => ?_⟩
              rcases List.mem_cons.1 hother with rfl | hother
              · exact ⟨latest, List.mem_cons_self, rfl⟩
              · exact ⟨other, List.mem_cons_of_mem _ hother, rfl⟩
          | succ index =>
              have hmem : turn ∈ turns := List.mem_of_getElem? hturn
              exact absurd (hphase.symm.trans (hothers turn hmem)) hsource
    · cases hmove
  · cases hmove

/-- The thread of a turn goes on. -/
theorem Inv.moves (h : Inv P events s) (hp : s.process = some p) {p' : Process} {index : ℕ}
    {source target : TurnPhase} (hmove : p.move index source target = some p')
    (hsource : source ≠ .done) {event : Event} (hbegun : begun event = none)
    (hprocess : s'.process = some p')
    (hknows : ∀ r, Knows P s.ledger r → Knows P s'.ledger r) : Inv P (event :: events) s' := by
  obtain ⟨hothers, hturns⟩ := move_turns hmove hsource (h.others p hp)
  refine h.quiet hbegun hknows (fun hnone => ?_) (fun q hq => ?_) fun q hq turn hturn => ?_
  · rw [hprocess] at hnone
    cases hnone
  · rw [hprocess] at hq
    cases hq
    exact hothers
  · rw [hprocess] at hq
    cases hq
    exact ⟨p, hp, hturns turn hturn⟩

theorem knows_finishes {ledger : System} {r : Text → Option Text} (h : Knows P ledger r)
    {operationId outcome resultDigest : Text} {now : Monotonic} :
    Knows P (finishes P ledger (.finish operationId outcome resultDigest now)) r := by
  unfold finishes
  split
  · rename_i hexec
    exact (h.finishes hexec).2
  · exact h

/-! ### Deaths -/

/-- A death that is not in a `begin`. -/
private theorem Inv.ended (h : Inv P events s) {event : Event} (hbegun : begun event = none) :
    Inv P (event :: events) s.ended :=
  h.gone hbegun rfl rfl fun _ hr => hr.dropped

private theorem diesIn_finish (operationId outcome resultDigest : Text) (now : Monotonic)
    (written : ℕ) :
    (diesIn P s (some (.crashInFinish operationId outcome resultDigest now written))).1.process =
        none ∧
      (diesIn P s (some (.crashInFinish operationId outcome resultDigest now
        written))).1.ledger.handle = none ∧
      ∀ r, Knows P s.ledger r →
        Knows P (diesIn P s (some (.crashInFinish operationId outcome resultDigest now
          written))).1.ledger r := by
  unfold diesIn
  dsimp only
  split
  · rename_i ledger whole hexec
    refine ⟨rfl, ?_, fun r hr => (hr.crashInFinish hexec).2⟩
    simp only [exec, bind_eq_ok, orRaise_eq_ok, pure_eq_ok] at hexec
    obtain ⟨handle, -, entry, -, hexec⟩ := hexec
    exact (congrArg (fun result => result.1.handle) hexec).symm
  · exact ⟨rfl, rfl, fun r hr => hr.dropped⟩

/-- A death in a `begin` that reached the ledger. -/
private theorem Inv.diesBegin (h : Inv P events s) {operationId : OperationId} {kind : Kind}
    {requestDigest : Sha256} {now : Monotonic} {written : ℕ} {action : Action}
    (hbegun : begun (action, .died true) = some (operationId.val, requestDigest.val))
    (hquiet : begun (action, .died false) = none) :
    Inv P ((action, .died (diesIn P s (some (.crashInBegin operationId.val kind.val
        requestDigest.val now written))).2) :: events)
      (diesIn P s (some (.crashInBegin operationId.val kind.val requestDigest.val now
        written))).1 := by
  unfold diesIn
  dsimp only
  split
  · rename_i ledger whole hexec
    obtain ⟨r, hr, -⟩ := h.knows
    obtain ⟨_, hreply, hclosed, -, -⟩ := hr.crashInBegin hexec
    cases whole with
    | true =>
        refine h.begins hbegun (fun r hr => ?_) (fun _ => hclosed) (fun p hp => ?_) fun p hp => ?_
        · obtain ⟨whole, hreply, -, hnone, hknows⟩ := hr.crashInBegin hexec
          obtain rfl : true = whole := by injection hreply
          exact ⟨hnone rfl, hknows⟩
        · cases hp
        · cases hp
    | false =>
        refine h.gone hquiet rfl hclosed fun r hr => ?_
        obtain ⟨whole, hreply, -, -, hknows⟩ := hr.crashInBegin hexec
        obtain rfl : false = whole := by injection hreply
        exact hknows
  · exact h.ended hquiet

private theorem Inv.lineDies (h : Inv P events s) (request : Request) (now : Monotonic)
    (written : ℕ) :
    Inv P ((.lineDies request now written,
        .died (diesIn P s (dyingCall s p now written request)).2) :: events)
      (diesIn P s (dyingCall s p now written request)).1 := by
  cases request with
  | operationBegin operationId kind requestDigest =>
      simp only [dyingCall]
      split
      · exact h.diesBegin rfl rfl
      · exact h.ended rfl
  | operationFinish operationId outcome resultDigest =>
      simp only [dyingCall]
      split
      · obtain ⟨hprocess, hhandle, hknows⟩ := diesIn_finish (P := P) (s := s)
          operationId.val outcome resultDigest.val now written
        exact h.gone rfl hprocess hhandle hknows
      · exact h.ended rfl
  | turnBegin operationId requestDigest =>
      simp only [dyingCall]
      split
      · exact h.diesBegin rfl rfl
      · exact h.ended rfl
  | _ => exact h.ended rfl

/-! ### Lines -/

theorem ledgerCall_eq_ok {ledger : System} {call : Call} {result : System × Reply}
    (h : ledgerCall P ledger call = .ok result) : exec P ledger call = .ok result := by
  unfold ledgerCall at h
  split at h
  · rename_i heq
    injection h with h
    rw [heq, h]
  · cases h
  · cases h

theorem requireReady_eq_ok {u : Unit} : requireReady s p = .ok u ↔ Ready s p := by
  simp only [requireReady, bind_eq_ok, require_eq_ok]
  constructor
  · rintro ⟨-, hidentity, -, hledger, hmeasured⟩
    exact ⟨hidentity, hledger, hmeasured⟩
  · rintro ⟨hidentity, hledger, hmeasured⟩
    exact ⟨(), hidentity, (), hledger, hmeasured⟩

/-- The handle of a ledger that answered a `begin` stays open. -/
private theorem open_of_begins {r : Text → Option Text} (hr : Knows P s.ledger r)
    {operationId : OperationId} {kind : Kind} {requestDigest : Sha256} {now : Monotonic}
    {ledger : System} {reply : Reply} (hready : Ready s p)
    (hexec : exec P s.ledger (.begin operationId.val kind.val requestDigest.val now) =
      .ok (ledger, reply)) : ledger.handle.isSome = true := by
  rcases hr.begins hexec with ⟨-, -, hopen, -⟩ | ⟨-, rfl, -⟩
  · exact hopen
  · exact hready.ledger

/-- What `_begin_turn` can do. -/
theorem beginTurn_cases {operationId : OperationId} {requestDigest : Sha256} {now : Monotonic}
    {state : BeginState} {r : Text → Option Text} (hr : Knows P s.ledger r)
    (h : beginTurn P s p operationId requestDigest now = .ok (s', state)) :
    (state = .duplicate ∧ s' = s ∧
      ((∃ turn ∈ p.openTurn, turn.operationId = operationId) ∨
        r operationId.val = some requestDigest.val)) ∨
    (state = .accepted ∧ p.openTurn = none ∧ r operationId.val = none ∧
      s'.process = some { p with turns := ⟨operationId, .running⟩ :: p.turns } ∧
      Knows P s'.ledger (Function.update r operationId.val (some requestDigest.val))) := by
  unfold beginTurn at h
  split at h
  · rename_i turn hturn
    split at h
    · rename_i hid
      obtain ⟨rfl, rfl⟩ := Prod.mk.inj (pure_eq_ok.1 h)
      exact .inl ⟨rfl, rfl, .inl ⟨turn, hturn, hid⟩⟩
    · cases h
  · rename_i hnone
    rw [bind_eq_ok] at h
    obtain ⟨⟨ledger, reply⟩, hcall, h⟩ := h
    have hexec : exec P s.ledger (.begin operationId.val turnKind.val requestDigest.val now) =
        .ok (ledger, reply) := ledgerCall_eq_ok hcall
    rcases hr.begins hexec with
      ⟨rfl, hfresh, -, hknows⟩ | ⟨rfl, rfl, hknown⟩
    · obtain ⟨rfl, rfl⟩ := Prod.mk.inj (pure_eq_ok.1 h)
      exact .inr ⟨rfl, hnone, hfresh, rfl, hknows⟩
    · obtain ⟨rfl, rfl⟩ := Prod.mk.inj (pure_eq_ok.1 h)
      exact .inl ⟨rfl, rfl, .inr hknown⟩

private theorem Inv.serveReady (h : Inv P events s) (hp : s.process = some p)
    {readings : LineReadings} {request : Request} {answer : Answer} (hready : Ready s p)
    (hserve : serveReady P s p readings request = .ok (s', answer)) :
    Inv P ((.line (some request) readings, .answered answer) :: events) s' := by
  obtain ⟨r, hr, -⟩ := h.knows
  cases request with
  | operationBegin operationId kind requestDigest =>
      simp only [Worker.serveReady, bind_eq_ok] at hserve
      obtain ⟨⟨ledger, reply⟩, hcall, hserve⟩ := hserve
      have hexec := ledgerCall_eq_ok hcall
      have hopen := open_of_begins hr hready hexec
      rcases hr.begins hexec with ⟨rfl, -⟩ | ⟨rfl, rfl, -⟩
      · obtain ⟨rfl, rfl⟩ := Prod.mk.inj (pure_eq_ok.1 hserve)
        refine h.begins rfl (fun r hr => ?_) (fun hnone => ?_) h.others
          fun q hq turn hturn => .inr ⟨q, hq, turn, hturn, rfl⟩
        · rcases hr.begins hexec with ⟨-, hfresh, -, hknows⟩ | ⟨hreply, -⟩
          · exact ⟨hfresh, hknows⟩
          · cases hreply
        · rw [show ({ s with ledger } : Machine).process = s.process from rfl, hp] at hnone
          cases hnone
      · obtain ⟨rfl, rfl⟩ := Prod.mk.inj (pure_eq_ok.1 hserve)
        exact h.same rfl rfl rfl fun _ hr => hr
  | operationFinish operationId outcome resultDigest =>
      simp only [Worker.serveReady, bind_eq_ok] at hserve
      obtain ⟨⟨ledger, reply⟩, hcall, hserve⟩ := hserve
      have hexec := ledgerCall_eq_ok hcall
      obtain ⟨rfl, rfl⟩ := Prod.mk.inj (pure_eq_ok.1 hserve)
      exact h.same rfl rfl ((hr.finishes hexec).1.trans hready.ledger.symm)
        fun r hr => (hr.finishes hexec).2
  | operationStatus operationId =>
      simp only [Worker.serveReady, bind_eq_ok] at hserve
      obtain ⟨⟨ledger, reply⟩, hcall, hserve⟩ := hserve
      have hexec := ledgerCall_eq_ok hcall
      simp only [exec, bind_eq_ok, orRaise_eq_ok, pure_eq_ok, Prod.mk.injEq] at hexec
      obtain ⟨handle, -, rfl, rfl⟩ := hexec
      obtain ⟨rfl, rfl⟩ := Prod.mk.inj (pure_eq_ok.1 hserve)
      exact h.same rfl rfl rfl fun _ hr => hr
  | turnBegin operationId requestDigest =>
      simp only [Worker.serveReady, bind_eq_ok] at hserve
      obtain ⟨⟨s₁, state⟩, hbegin, hserve⟩ := hserve
      obtain ⟨rfl, rfl⟩ := Prod.mk.inj (pure_eq_ok.1 hserve)
      rcases beginTurn_cases hr hbegin with ⟨rfl, rfl, -⟩ | ⟨rfl, hnone, -, hprocess, -⟩
      · exact h.same rfl rfl rfl fun _ hr => hr
      · refine h.begins rfl (fun r hr => ?_) (fun hgone => ?_) (fun q hq turn hturn => ?_)
          fun q hq turn hturn => ?_
        · rcases beginTurn_cases hr hbegin with ⟨hstate, -⟩ | ⟨-, -, hfresh, -, hknows⟩
          · cases hstate
          · exact ⟨hfresh, hknows⟩
        · rw [hprocess] at hgone
          cases hgone
        · -- The latest turn is done, for no turn is open, and so are the others.
          rw [hprocess] at hq
          cases hq
          change turn ∈ p.turns at hturn
          cases hturns : p.turns with
          | nil =>
              rw [hturns] at hturn
              cases hturn
          | cons latest turns =>
              rw [hturns] at hturn
              rcases List.mem_cons.1 hturn with rfl | hturn
              · by_contra hopen
                rw [Process.openTurn, hturns, List.head?_cons, Option.filter_some,
                  if_pos (by simpa using hopen)] at hnone
                cases hnone
              · refine h.others p hp turn ?_
                rw [hturns]
                exact hturn
        · rw [hprocess] at hq
          cases hq
          rcases List.mem_cons.1 hturn with rfl | hturn
          · exact .inl rfl
          · exact .inr ⟨p, hp, turn, hturn, rfl⟩
  | telegramCall =>
      simp only [Worker.serveReady, bind_eq_ok, pure_eq_ok, Prod.mk.injEq] at hserve
      obtain ⟨-, -, rfl, rfl⟩ := hserve
      exact h.same rfl rfl rfl fun _ hr => hr
  | turnResolve operationId =>
      simp only [Worker.serveReady, bind_eq_ok, pure_eq_ok, Prod.mk.injEq] at hserve
      obtain ⟨-, -, rfl, rfl⟩ := hserve
      exact h.same rfl rfl rfl fun _ hr => hr
  | turnCancel operationId =>
      simp only [Worker.serveReady, bind_eq_ok, pure_eq_ok, Prod.mk.injEq] at hserve
      obtain ⟨-, -, rfl, rfl⟩ := hserve
      exact h.same rfl rfl rfl fun _ hr => hr
  | _ =>
      obtain ⟨rfl, rfl⟩ := Prod.mk.inj (pure_eq_ok.1 hserve)
      exact h.same rfl rfl rfl fun _ hr => hr

private theorem begun_error (line : Option Request) (readings : LineReadings)
    (category : ErrorCategory) : begun (.line line readings, .answered (.error category)) = none := by
  unfold begun
  split <;> rename_i heq <;> first | cases heq | rfl

/-- A request that needs the ledger: served when the worker is ready. -/
private theorem Inv.serves (h : Inv P events s) (hp : s.process = some p)
    {readings : LineReadings} {request : Request} {result : Machine × Answer}
    (hresult : (match (do requireReady s p; Worker.serveReady P s p readings request) with
      | .ok result => result
      | .error category => (s, .error category)) = result) :
    Inv P ((.line (some request) readings, .answered result.2) :: events) result.1 := by
  subst hresult
  split
  · rename_i result hok
    rw [bind_eq_ok] at hok
    obtain ⟨_, hready, hserve⟩ := hok
    exact h.serveReady hp (requireReady_eq_ok.1 hready) hserve
  · exact h.same (begun_error _ _ _) rfl rfl fun _ hr => hr

private theorem Inv.line (h : Inv P events s) (hp : s.process = some p) (line : Option Request)
    (readings : LineReadings) :
    Inv P ((.line line readings, .answered (serveLine P s p readings line).2) :: events)
      (serveLine P s p readings line).1 := by
  cases line with
  | none => exact h.same rfl rfl rfl fun _ hr => hr
  | some request =>
      cases request with
      | shutdown => exact h.ended rfl
      | healthCheck => exact h.same rfl rfl rfl fun _ hr => hr
      | identityMeasure =>
          have hbegun : begun (.line (some .identityMeasure) readings,
              .answered (measureIdentity s p readings.measures).2) = none := by
            unfold measureIdentity
            split <;> rfl
          obtain ⟨q, hq, hturns, hledger⟩ : ∃ q,
              (measureIdentity s p readings.measures).1.process = some q ∧ q.turns = p.turns ∧
              (measureIdentity s p readings.measures).1.ledger = s.ledger := by
            unfold measureIdentity
            split
            · exact ⟨_, rfl, rfl, rfl⟩
            · exact ⟨_, rfl, rfl, rfl⟩
          refine h.quiet hbegun (fun r hr => ?_) (fun hnone => ?_) (fun q' hq' turn hturn => ?_)
            fun q' hq' turn hturn => ?_
          · rw [serveLine, hledger]
            exact hr
          · rw [serveLine, hq] at hnone
            cases hnone
          · rw [serveLine, hq] at hq'
            cases hq'
            exact h.others p hp turn (hturns ▸ hturn)
          · rw [serveLine, hq] at hq'
            cases hq'
            exact ⟨p, hp, turn, hturns ▸ hturn, rfl⟩
      | _ => exact h.serves hp rfl

/-! ### Runs -/

theorem inv_initial : Inv P [] .initial where
  knows := ⟨fun _ => none, knows_initial, fun _ _ => by simp [BegunUnder]⟩
  closed := fun _ => rfl
  called := fun _ => Nat.zero_le _
  calledBegun := fun _ hpos => absurd hpos (lt_irrefl _)
  others := fun _ hp => by cases hp
  turnBegun := fun _ hp => by cases hp

/-- A new process: it opens the ledger if it can. -/
private theorem Inv.starts (h : Inv P events s) {event : Event} (hbegun : begun event = none)
    {identityOk : Bool} (hprocess : s'.process = some ⟨identityOk, false, []⟩)
    (hknows : ∀ r, Knows P s.ledger r → Knows P s'.ledger r) : Inv P (event :: events) s' := by
  refine h.quiet hbegun hknows (fun hnone => ?_) (fun p hp turn hturn => ?_)
    fun p hp turn hturn => ?_
  · rw [hprocess] at hnone
    cases hnone
  · rw [hprocess] at hp
    cases hp
    cases hturn
  · rw [hprocess] at hp
    cases hp
    cases hturn

theorem Inv.step {event : Event} (h : Inv P events s) (hstep : Step P s event s') :
    Inv P (event :: events) s' := by
  obtain ⟨action, effect⟩ := event
  unfold Step Commits at hstep
  dsimp only at hstep
  cases hprocess : s.process with
  | none =>
      cases action with
      | start identityOk clock =>
          simp only [Worker.step, hprocess] at hstep
          split at hstep
          · split at hstep
            · rename_i ledger reply hexec
              obtain ⟨rfl, rfl⟩ := Prod.mk.inj (pure_eq_ok.1 hstep)
              exact h.starts rfl rfl fun r hr => (hr.opens hexec).2
            · obtain ⟨rfl, rfl⟩ := Prod.mk.inj (pure_eq_ok.1 hstep)
              exact h.starts rfl rfl fun _ hr => hr
          · obtain ⟨rfl, rfl⟩ := Prod.mk.inj (pure_eq_ok.1 hstep)
            exact h.starts rfl rfl fun _ hr => hr
      | startDies clock death =>
          simp only [Worker.step, hprocess] at hstep
          obtain ⟨rfl, rfl⟩ := Prod.mk.inj (pure_eq_ok.1 hstep)
          exact h.gone rfl rfl rfl fun r hr => hr.diesOpening (h.closed hprocess) clock death
      | _ =>
          simp only [Worker.step, hprocess] at hstep
          cases hstep
  | some p =>
      cases action with
      | line line readings =>
          simp only [Worker.step, hprocess] at hstep
          obtain ⟨rfl, rfl⟩ := Prod.mk.inj (pure_eq_ok.1 hstep)
          exact h.line hprocess line readings
      | lineDies request now written =>
          simp only [Worker.step, hprocess] at hstep
          obtain ⟨rfl, rfl⟩ := Prod.mk.inj (pure_eq_ok.1 hstep)
          exact h.lineDies request now written
      | runnerReturns index =>
          simp only [Worker.step, hprocess, bind_eq_ok, orRaise_eq_ok] at hstep
          obtain ⟨p', hmove, hstep⟩ := hstep
          obtain ⟨rfl, rfl⟩ := Prod.mk.inj (pure_eq_ok.1 hstep)
          exact h.moves hprocess hmove (by decide) rfl rfl fun _ hr => hr
      | records index outcome resultDigest now =>
          simp only [Worker.step, hprocess, bind_eq_ok, orRaise_eq_ok] at hstep
          obtain ⟨operationId, -, p', hmove, hstep⟩ := hstep
          obtain ⟨rfl, rfl⟩ := Prod.mk.inj (pure_eq_ok.1 hstep)
          exact h.moves hprocess hmove (by decide) rfl rfl fun _ hr => knows_finishes hr
      | recordDies index outcome resultDigest now written =>
          simp only [Worker.step, hprocess, bind_eq_ok, orRaise_eq_ok] at hstep
          obtain ⟨operationId, -, hstep⟩ := hstep
          obtain ⟨rfl, rfl⟩ := Prod.mk.inj (pure_eq_ok.1 hstep)
          obtain ⟨hgone, hhandle, hknows⟩ := diesIn_finish (P := P) (s := s)
            operationId.val outcome resultDigest now written
          exact h.gone rfl hgone hhandle hknows
      | turnDone index =>
          simp only [Worker.step, hprocess, bind_eq_ok, orRaise_eq_ok] at hstep
          obtain ⟨p', hmove, hstep⟩ := hstep
          obtain ⟨rfl, rfl⟩ := Prod.mk.inj (pure_eq_ok.1 hstep)
          exact h.moves hprocess hmove (by decide) rfl rfl fun _ hr => hr
      | dies =>
          simp only [Worker.step, hprocess] at hstep
          obtain ⟨rfl, rfl⟩ := Prod.mk.inj (pure_eq_ok.1 hstep)
          exact h.ended rfl
      | _ =>
          simp only [Worker.step, hprocess] at hstep
          cases hstep

theorem inv_of_history (h : History (Step P) .initial events s) : Inv P events s :=
  h.induction (P := Inv P) inv_initial Inv.step

/-! ## The answer to a `turn.begin` -/

/-- The answer to a `turn.begin` is right: it accepts, or repeats, what began under this digest,
and a known operation with another digest is refused and nothing starts. -/
structure Faithful (events : List Event) (s s' : Machine) (operationId : OperationId)
    (digest : Sha256) (event : Event) (answer : Answer) : Prop where
  carried : answer = .state .accepted ∨ answer = .state .duplicate →
    BegunUnder (event :: events) operationId.val digest.val
  refused : ∀ d, BegunUnder events operationId.val d → d ≠ digest.val →
    answer = .error .operationConflict ∧ s' = s

/-- An operation that began under another digest is asked of a worker that is ready and does not
have its turn open. -/
def Careful (events : List Event) (s : Machine) (p : Process) (operationId : OperationId)
    (digest : Sha256) : Prop :=
  ∀ d, BegunUnder events operationId.val d → d ≠ digest.val →
    Ready s p ∧ ∀ turn ∈ p.openTurn, turn.operationId ≠ operationId

section Answer

variable {operationId : OperationId} {digest : Sha256} {readings : LineReadings}

private theorem serveLine_turnBegin :
    serveLine P s p readings (some (.turnBegin operationId digest)) =
      match (do
        requireReady s p
        serveReady P s p readings (.turnBegin operationId digest)) with
      | .ok result => result
      | .error category => (s, .error category) := rfl

/-- A worker that is not ready refuses, but not as a conflict. -/
private theorem serveLine_notReady (operationId : OperationId) (digest : Sha256)
    (readings : LineReadings) (hready : ¬Ready s p) :
    ∃ category, category ≠ .operationConflict ∧
      serveLine P s p readings (some (.turnBegin operationId digest)) =
        (s, .error category) := by
  rw [serveLine_turnBegin]
  by_cases hidentity : p.identityOk = true
  · by_cases hledger : s.ledger.handle.isSome = true
    · have hmeasured : ¬p.measured = true := fun hm => hready ⟨hidentity, hledger, hm⟩
      refine ⟨.notMeasured, by decide, ?_⟩
      simp only [requireReady, require, if_pos hidentity, if_pos hledger, if_neg hmeasured,
        ok_bind, error_bind]
    · refine ⟨.ledgerUnavailable, by decide, ?_⟩
      simp only [requireReady, require, if_pos hidentity, if_neg hledger, ok_bind, error_bind]
  · refine ⟨.identityMismatch, by decide, ?_⟩
    simp only [requireReady, require, if_neg hidentity, error_bind]

private theorem serveLine_ready (hready : Ready s p) :
    serveLine P s p readings (some (.turnBegin operationId digest)) =
      match beginTurn P s p operationId digest readings.now with
      | .ok result => (result.1, .state result.2)
      | .error category => (s, .error category) := by
  have hok : requireReady s p = .ok () := requireReady_eq_ok.2 hready
  rw [serveLine_turnBegin, hok, ok_bind, serveReady]
  cases beginTurn P s p operationId digest readings.now with
  | ok result => rfl
  | error category => rfl

/-- The turn of the operation is open: its digest is not looked at. -/
private theorem beginTurn_own {turn : Turn} {now : Monotonic} (hturn : turn ∈ p.openTurn)
    (hid : turn.operationId = operationId) :
    beginTurn P s p operationId digest now = .ok (s, .duplicate) := by
  rw [Option.mem_def] at hturn
  unfold beginTurn
  rw [hturn]
  exact if_pos hid

private theorem faithful_iff (h : Inv P events s) (hp : s.process = some p) :
    Faithful events s (serveLine P s p readings (some (.turnBegin operationId digest))).1
        operationId digest
        (.line (some (.turnBegin operationId digest)) readings,
          .answered (serveLine P s p readings (some (.turnBegin operationId digest))).2)
        (serveLine P s p readings (some (.turnBegin operationId digest))).2 ↔
      Careful events s p operationId digest := by
  obtain ⟨r, hr, hagrees⟩ := h.knows
  constructor
  · intro hfaithful d hd hne
    obtain ⟨hanswer, -⟩ := hfaithful.refused d hd hne
    by_cases hready : Ready s p
    · refine ⟨hready, fun turn hturn hid => ?_⟩
      rw [serveLine_ready hready, beginTurn_own hturn hid] at hanswer
      cases hanswer
    · obtain ⟨category, hcategory, hserve⟩ := serveLine_notReady (P := P)
        operationId digest readings hready
      rw [hserve] at hanswer
      injection hanswer with hanswer
      exact absurd hanswer hcategory
  · intro hcareful
    by_cases hready : Ready s p
    · rw [serveLine_ready hready]
      cases hbegin : beginTurn P s p operationId digest readings.now with
      | ok result =>
          obtain ⟨s₁, state⟩ := result
          refine ⟨fun _ => ?_, fun d hd hne => ?_⟩
          · rcases beginTurn_cases hr hbegin with ⟨rfl, -, ⟨turn, hturn, hid⟩ | hknown⟩ | ⟨rfl, -⟩
            · -- The turn of the operation is open, so the digest is the one it began under.
              have hmem : turn ∈ p.turns :=
                List.mem_of_mem_head? (Option.mem_filter_iff.1 hturn).1
              obtain ⟨d, hd⟩ := h.turnBegun p hp turn hmem
              rw [hid] at hd
              by_cases heq : d = digest.val
              · subst heq
                exact hd.cons _
              · exact absurd hid ((hcareful d hd heq).2 turn hturn)
            · exact ((hagrees _ _).1 hknown).cons _
            · exact (begunUnder_begun rfl).2 (.inl ⟨rfl, rfl⟩)
          · have hknown := (hagrees _ _).2 hd
            rcases beginTurn_cases hr hbegin with ⟨-, -, ⟨turn, hturn, hid⟩ | hsame⟩ | ⟨-, -, hfresh, -⟩
            · exact absurd hid ((hcareful d hd hne).2 turn hturn)
            · rw [hknown, Option.some.injEq] at hsame
              exact absurd hsame hne
            · rw [hknown] at hfresh
              cases hfresh
      | error category =>
          refine ⟨fun hanswer => ?_, fun d hd hne => ⟨?_, rfl⟩⟩
          · rcases hanswer with hanswer | hanswer <;> cases hanswer
          · have hconflict : category = .operationConflict := by
              unfold beginTurn at hbegin
              split at hbegin
              · split at hbegin
                · cases hbegin
                · injection hbegin with hbegin
                  exact hbegin.symm
              · have hrefuses : ∃ message, exec P s.ledger (.begin operationId.val turnKind.val
                    digest.val readings.now) = .error (.conflict message) :=
                  hr.conflict hready.ledger ((hagrees _ _).2 hd) hne
                obtain ⟨message, hrefused⟩ := hrefuses
                rw [ledgerCall, hrefused] at hbegin
                injection hbegin with hbegin
                exact hbegin.symm
            exact congrArg Answer.error hconflict
    · obtain ⟨category, -, hserve⟩ := serveLine_notReady (P := P)
        operationId digest readings hready
      rw [hserve]
      refine ⟨fun hanswer => ?_, fun d hd hne => absurd (hcareful d hd hne).1 hready⟩
      rcases hanswer with hanswer | hanswer <;> cases hanswer

end Answer

/-- In every run the runner is called at most once for an operation, and for one turn at a time.
A `turn.begin` is answered rightly exactly when `Careful` holds. -/
theorem turn_runs_once (h : History (Step P) .initial events s) :
    (∀ operationId, events.countP (callsRunner operationId) ≤ 1) ∧
    (∀ p, s.process = some p → p.turns.countP Turn.running ≤ 1) ∧
    ∀ p operationId digest readings answer s', s.process = some p →
      Step P s (.line (some (.turnBegin operationId digest)) readings, .answered answer) s' →
      (Faithful events s s' operationId digest
          (.line (some (.turnBegin operationId digest)) readings, .answered answer) answer ↔
        Careful events s p operationId digest) := by
  have hinv := inv_of_history h
  refine ⟨hinv.called, fun p hp => ?_, ?_⟩
  · have hothers := hinv.others p hp
    cases hturns : p.turns with
    | nil => exact Nat.zero_le 1
    | cons latest turns =>
        rw [hturns, List.tail_cons] at hothers
        have hzero : turns.countP Turn.running = 0 := by
          rw [List.countP_eq_zero]
          intro turn hturn
          rw [Turn.running, hothers turn hturn]
          decide
        rw [List.countP_cons, hzero]
        split <;> omega
  · intro p operationId digest readings answer s' hp hstep
    unfold Step Commits at hstep
    simp only [Worker.step, hp] at hstep
    obtain ⟨rfl, heffect⟩ := Prod.mk.inj (pure_eq_ok.1 hstep)
    injection heffect with hanswer
    subst hanswer
    exact faithful_iff hinv hp

/-! ## An open turn -/

def plainOperation : OperationId := ⟨"op-1".toList, by decide⟩

def plainDigest : Sha256 := ⟨List.replicate 64 'a', by decide⟩

def otherDigest : Sha256 := ⟨List.replicate 64 'b', by decide⟩

def plainLine : LineReadings := ⟨default, true, true, true⟩

/-- A worker that was measured starts a turn. -/
def oneTurn : List Action :=
  [.line (some (.turnBegin plainOperation plainDigest)) plainLine,
    .line (some .identityMeasure) plainLine, .start true fun _ => default]

theorem turn_runs_once_oneTurn :
    (runCalls (step asciiPlatform) .initial oneTurn).1.countP
      (callsRunner plainOperation.val) ≤ 1 :=
  (turn_runs_once (history_runCalls (step asciiPlatform) .initial oneTurn)).1 _

/-- While its turn is open an operation is taken for known under any digest. -/
theorem open_turn_takes_any_digest :
    ¬∀ (P : Platform) (events : List Event) (s : Machine),
      History (Step P) .initial events s →
      ∀ p operationId digest readings answer s', s.process = some p →
        Step P s (.line (some (.turnBegin operationId digest)) readings, .answered answer) s' →
        Faithful events s s' operationId digest
          (.line (some (.turnBegin operationId digest)) readings, .answered answer) answer := by
  intro h
  have hfaithful := h asciiPlatform _ _ (history_runCalls _ _ oneTurn) _ plainOperation otherDigest
    plainLine (.state .duplicate) _ rfl rfl
  have hbegun : BegunUnder (runCalls (step asciiPlatform) .initial oneTurn).1
      plainOperation.val plainDigest.val := List.mem_cons_self
  have hne : plainDigest.val ≠ otherDigest.val := by decide
  obtain ⟨hanswer, -⟩ := hfaithful.refused _ hbegun hne
  cases hanswer

end Cortex.Worker
