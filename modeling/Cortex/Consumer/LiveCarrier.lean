import Cortex.Consumer.Progress

/-!
# A settled capture and its carrier

The run of a carrier is closed by the success path of a pass, and by the rejection of the
effect.  A pass that finds the effect completed only reports the capture: where the pass
before died between `complete_workflow_effect` and `fail_unbound_run`, or where it was the
reconciliation that found the result, the run stays open under a capture that is consumed.
The same holds of a capture that is failed because the engine refused a checkpoint or a
reconciliation for good.

`Leaves` is the report that leaves a run open.  In the runs without one, a capture that is
consumed or failed has no live carrier (`Inv.settled`).
-/

namespace Cortex.Consumer

open Control Transaction Workflow

variable {Digest ρ : Type} {P : Platform Digest} {w w' : World Digest ρ} {p : Pass ρ}
  {readings : Readings ρ}

/-- Every run of the thread is terminal with its stage settled, and none is active. -/
def CarrierThread.IsSettled (thread : CarrierThread ρ) : Prop :=
  (∀ run ∈ thread.runs, run.state.isTerminal ∧
    (run.stageState = some .completed ∨ run.stageState = some .failed)) ∧
  thread.activeRunId = none

/-- The report of a replay over a run that is still open, or of a refusal. -/
def Pass.leaves (p : Pass ρ) (carrier : Option (CarrierThread ρ)) : Bool :=
  match p.phase with
  | .ending (.replayed _) =>
      carrier.any fun thread => thread.runs.rows.any fun run => !decide run.state.isTerminal
  | .ending (.refused _) => true
  | _ => false

/-- The event is a report that leaves a run open. -/
def Leaves (w : World Digest ρ) (event : Event ρ) : Bool :=
  match event.move with
  | .advance => w.pass.any fun p => p.leaves (w.carriers p.captureId)
  | _ => false

/-! ## Settled threads -/

theorem CarrierThread.Carries.isSettled {thread : CarrierThread ρ} {run : CarrierRun ρ}
    (h : thread.Carries run) (hterminal : run.state.isTerminal)
    (hstage : run.stageState = some .completed ∨ run.stageState = some .failed) :
    thread.IsSettled := by
  refine ⟨fun run' hrun' => ?_, h.active.trans (if_pos hterminal)⟩
  rw [Table.mem_def, h.rows, List.mem_singleton] at hrun'
  exact hrun' ▸ ⟨hterminal, hstage⟩

/-- A sound thread whose runs are over is settled. -/
theorem CarrierThread.Sound.isSettled {thread : CarrierThread ρ} (h : thread.Sound)
    (hended : ∀ run ∈ thread.runs, run.state.isTerminal) : thread.IsSettled := by
  cases h with
  | empty hrows hactive =>
      refine ⟨fun run hrun => ?_, hactive⟩
      rw [Table.mem_def, hrows] at hrun
      cases hrun
  | one run carries sound =>
      have hterminal : run.state.isTerminal := by
        refine hended run ?_
        rw [Table.mem_def, carries.rows]
        exact List.mem_singleton_self run
      have hlive : ∀ {P : Prop}, run.state = .queued ∨ run.state = .cancelRequested → P := by
        rintro P (hstate | hstate)
        · rw [hstate] at hterminal
          exact absurd hterminal (by decide)
        · rw [hstate] at hterminal
          exact absurd hterminal (by decide)
      cases sound with
      | opened _ hstate => exact hlive (.inl hstate)
      | asked has => exact hlive (.inl has.state)
      | recorded has => exact hlive (.inl has.state)
      | staged has => exact hlive (.inl has.state)
      | canceling has => exact hlive (.inr has.state)
      | closed has => exact carries.isSettled hterminal (.inl has.stage)
      | rejected has => exact carries.isSettled hterminal (.inr has.stage)

theorem Carried.isSettled {carrier : Option (CarrierThread ρ)} {Q : CarrierRun ρ → Prop}
    (h : Carried carrier Q)
    (hQ : ∀ run, Q run → run.state.isTerminal ∧
      (run.stageState = some .completed ∨ run.stageState = some .failed)) :
    ∀ thread, carrier = some thread → thread.IsSettled := by
  rintro thread hthread
  obtain ⟨thread', run, hthread', hcarries, hrun⟩ := h
  obtain rfl := Option.some.inj (hthread.symm.trans hthread')
  exact hcarries.isSettled (hQ run hrun).1 (hQ run hrun).2

/-! ## The inbox -/

/-- A capture whose outcome was reported as consumed or failed. -/
def IsReported (capture : Captures.Capture) : Prop :=
  capture.state = .consumed ∨ capture.state = .failed

theorem not_reported {capture : Captures.Capture} (hconsumed : capture.state ≠ .consumed)
    (hfailed : capture.state ≠ .failed) : ¬IsReported capture := by
  rintro (h | h)
  · exact hconsumed h
  · exact hfailed h

section Inbox

variable [DecidableEq Digest] {requestHash : Captures.Request → Digest}
  {captureShape : Text → Captures.CaptureKind × Text} {s s' : Captures.Store Digest}

/-- A command that completes nothing reports nothing. -/
theorem reported_of_step {e : Captures.Event}
    (h : Captures.Step requestHash captureShape s e s')
    (hcompletes : ∀ captureId owner epoch, e.completes captureId owner epoch = false) :
    ∀ c ∈ s'.tables, IsReported c → c ∈ s.tables := by
  intro c' hc' hreported
  have hstate : ∀ {state}, c'.state = state → state ≠ .consumed → state ≠ .failed → False := by
    rintro state rfl hconsumed hfailed
    exact not_reported hconsumed hfailed hreported
  rcases (Captures.step_cases h).origin hc' with ⟨c, hc, hmoved⟩ | ⟨hpending, -⟩
  · cases hmoved with
    | kept => exact hc
    | swept _ _ hstate' => exact (hstate hstate' (by decide) (by decide)).elim
    | authorized _ _ _ hstate' => exact (hstate hstate' (by decide) (by decide)).elim
    | dismissed _ _ hstate' => exact (hstate hstate' (by decide) (by decide)).elim
    | claimed _ _ _ _ hstate' => exact (hstate hstate' (by decide) (by decide)).elim
    | completed howner =>
        rw [hcompletes] at howner
        cases howner
  · exact (hstate hpending (by decide) (by decide)).elim

variable {captureId : ℕ} {owner : Text} {caller : Caller} {inboxReadings : Captures.Readings}
  {result : CommandResult Captures.Capture}

/-- A claim reports nothing, and its capture is claimed. -/
theorem claimCapture_eq_ok {seconds : ℤ}
    (h : Captures.claimCapture requestHash s inboxReadings captureId owner seconds caller =
      .ok (s', result)) :
    (∀ c ∈ s'.tables, IsReported c → c ∈ s.tables) ∧
      ∃ c ∈ s'.tables, c.id = captureId ∧ c.state = .claimed := by
  have hstep : Captures.Step requestHash (fun payload => (.text, payload)) s
      ((.claim captureId owner seconds caller, inboxReadings), Captures.CommandReply result)
      s' := by
    simp only [Captures.Step, Commits, Captures.exec, h, ok_bind]
    rfl
  refine ⟨reported_of_step hstep fun _ _ _ => Bool.and_false _, ?_⟩
  cases hreplayed : result.replayed with
  | false =>
      have hclaims : Captures.Event.claims captureId
          ((.claim captureId owner seconds caller, inboxReadings), Captures.CommandReply result) =
            true := by
        simp [Captures.Event.claims, Captures.CommandReply, hreplayed]
      obtain ⟨-, -, c, hc, -, hid, -, hclaimed, -⟩ := (Captures.step_cases hstep).claimed hclaims
      exact ⟨c, hc, hid, hclaimed⟩
  | true =>
      -- A receipt that answers leaves the tables, and the claim it was filed for is still held.
      simp only [Captures.claimCapture, bind_eq_ok] at h
      obtain ⟨_, -, -, -, ⟨s₁, result₁⟩, hcommand, h⟩ := h
      have hreplayed₁ : result₁.replayed = true := by
        split at h
        · assumption
        · cases h
          exact hreplayed
      rw [if_pos hreplayed₁] at h
      simp only [Captures.capture, bind_eq_ok, orRaise_eq_ok, require_eq_ok, pure_eq_ok,
        Prod.mk.injEq] at h
      obtain ⟨c, hget, -, ⟨hclaimed, -⟩, rfl, rfl⟩ := h
      obtain ⟨hc, hid⟩ := Table.get?_eq_some.1 hget
      rcases command_eq_ok hcommand with ⟨-, rfl⟩ | ⟨hnew, -⟩
      · exact ⟨c, hc, hid, hclaimed⟩
      · rw [hnew] at hreplayed
        cases hreplayed

/-- A completion leaves the table alone, or moves its own capture to the state it reports. -/
theorem completeCapture_eq_ok {epoch : ℤ} {o : Captures.Outcome}
    (h : Captures.completeCapture requestHash s inboxReadings captureId owner epoch o caller =
      .ok (s', result)) :
    s' = s ∨ ∃ target, Captures.captureOutcome o = .ok target ∧ ∀ c' ∈ s'.tables,
      c' ∈ s.tables ∨ c'.id = captureId ∧ c'.state = target.1 := by
  simp only [Captures.completeCapture, bind_eq_ok] at h
  obtain ⟨_, -, -, -, target, htarget, _, -, hcommand⟩ := h
  rcases command_eq_ok hcommand with ⟨-, rfl⟩ | ⟨-, -, hbody⟩
  · exact .inl rfl
  · obtain ⟨row, -, hid, -, hrows⟩ := Captures.completeClaimed_eq_ok hbody
    refine .inr ⟨target, htarget, fun c' hc' => ?_⟩
    rw [Table.mem_def, hrows, List.mem_map] at hc'
    obtain ⟨c, hc, rfl⟩ := hc'
    split
    · exact .inr ⟨‹_›, rfl⟩
    · exact .inl hc

/-- An uncertain outcome is neither consumed nor failed. -/
theorem captureOutcome_uncertain {o : Captures.Outcome}
    {target : Captures.CaptureState × Option (List Text) × Option String}
    (ho : o.outcome = "uncertain") (h : Captures.captureOutcome o = .ok target) :
    target.1 = .uncertain := by
  rw [Captures.captureOutcome, if_neg (by rw [ho]; decide)] at h
  simp only [bind_eq_ok] at h
  obtain ⟨-, -, h⟩ := h
  rw [if_neg (by rw [ho]; decide), if_pos ho] at h
  split at h
  · cases h
    rfl
  · simp only [bind_eq_ok, pure_eq_ok] at h
    obtain ⟨-, -, rfl⟩ := h
    rfl

end Inbox

/-! ## The invariant -/

/-- What holds in every run without a report that leaves a run open. -/
structure Inv (w : World Digest ρ) : Prop where
  sound : SoundCarriers w
  /-- A pass works on a capture that was not reported. -/
  working : ∀ p, w.pass = some p → p.phase.isClaiming = false →
    ∀ c ∈ w.inbox.tables, c.id = p.captureId → ¬IsReported c
  holds : ∀ p, w.pass = some p → p.phase.Holds (w.carriers p.captureId)
  settled : ∀ c ∈ w.inbox.tables, IsReported c →
    ∀ thread, w.carriers c.id = some thread → thread.IsSettled

theorem inv_initial : Inv (World.initial : World Digest ρ) where
  sound := by
    intro captureId thread hthread
    cases hthread
  working := by
    intro p hp
    cases hp
  holds := by
    intro p hp
    cases hp
  settled := by
    intro c hc
    exact absurd hc (Table.not_mem_empty c)

/-- The pass is over. -/
theorem Inv.over (h : Inv w) : Inv { w with pass := none } where
  sound := h.sound
  working := by
    intro p hp
    cases hp
  holds := by
    intro p hp
    cases hp
  settled := h.settled

/-- The inbox changes, but nothing is reported. -/
theorem Inv.inbox {inbox : Captures.Store Digest} (h : Inv w)
    (hreported : ∀ c ∈ inbox.tables, IsReported c → c ∈ w.inbox.tables) :
    Inv { w with inbox } where
  sound := h.sound
  working := fun p hp hworking c hc hid hclosed =>
    h.working p hp hworking c (hreported c hc hclosed) hid hclosed
  holds := h.holds
  settled := fun c hc hclosed => h.settled c (hreported c hc hclosed) hclosed

/-- A step of a pass that has not reported yet. -/
theorem Inv.works (h : Inv w) (hp : w.pass = some p) (hworking : p.phase.isClaiming = false)
    (hworks : Works w p w') : Inv w' := by
  have hreported := h.working p hp hworking
  have hput : ∀ {thread : CarrierThread ρ}, thread.Sound →
      SoundCarriers (w.putCarrier p thread) := by
    intro thread hthread captureId thread' hcarrier
    by_cases hid : captureId = p.captureId
    · rw [hid, World.carriers_putCarrier_self] at hcarrier
      exact Option.some.inj hcarrier ▸ hthread
    · rw [World.carriers_putCarrier_of_ne _ _ _ hid] at hcarrier
      exact h.sound _ _ hcarrier
  have hsettled : ∀ {thread : CarrierThread ρ}, ∀ c ∈ w.inbox.tables, IsReported c →
      ∀ thread', (w.putCarrier p thread).carriers c.id = some thread' → thread'.IsSettled := by
    intro thread c hc hclosed thread' hcarrier
    have hid : c.id ≠ p.captureId := fun hid => hreported c hc hid hclosed
    rw [World.carriers_putCarrier_of_ne _ _ _ hid] at hcarrier
    exact h.settled c hc hclosed thread' hcarrier
  cases hworks with
  | workspace => exact ⟨h.sound, h.working, h.holds, h.settled⟩
  | went phase hphase hholds =>
      refine ⟨h.sound, ?_, ?_, h.settled⟩
      · rintro p' hp' -
        obtain rfl := Option.some.inj hp'
        exact hreported
      · intro p' hp'
        obtain rfl := Option.some.inj hp'
        exact hholds
  | put thread hsound hholds =>
      refine ⟨hput hsound, h.working, fun p' hp' => ?_, hsettled⟩
      obtain rfl := Option.some.inj (hp.symm.trans hp')
      rw [World.carriers_putCarrier_self]
      exact hholds
  | wrote thread phase hsound hphase hholds =>
      refine ⟨hput hsound, ?_, ?_, hsettled⟩
      · rintro p' hp' -
        obtain rfl := Option.some.inj hp'
        exact hreported
      · intro p' hp'
        obtain rfl := Option.some.inj hp'
        exact (World.carriers_putCarrier_self w p thread).symm ▸ hholds

/-! ## One step -/

section Steps

variable [DecidableEq Digest]

theorem Inv.begin (P : Platform Digest) (h : Inv w) (hbegin : w.begin readings = .ok w') :
    Inv w' := by
  simp only [World.begin, bind_eq_ok, pure_eq_ok] at hbegin
  obtain ⟨-, -, ⟨inbox, pending⟩, hlist, rfl⟩ := hbegin
  have hstep : Captures.Step P.requestHash P.captureShape w.inbox
      ((.listPending 1, readings.inbox), ⟨none, false⟩) inbox := by
    simp only [Captures.Step, Commits, Captures.exec, hlist, ok_bind]
    rfl
  have hinbox := h.inbox (reported_of_step hstep fun _ _ _ => Bool.and_false _)
  refine ⟨hinbox.sound, ?_, ?_, hinbox.settled⟩
  · intro p hp hworking
    obtain ⟨capture, -, rfl⟩ := Option.map_eq_some_iff.1 hp
    cases hworking
  · intro p hp
    obtain ⟨capture, -, rfl⟩ := Option.map_eq_some_iff.1 hp
    trivial

theorem Inv.claims (h : Inv w) (hclaim : w.claimCapture P p readings = .ok w') : Inv w' := by
  simp only [World.claimCapture, bind_eq_ok, pure_eq_ok] at hclaim
  obtain ⟨⟨inbox, claim⟩, hclaim, rfl⟩ := hclaim
  obtain ⟨hreported, c, hc, hid, hclaimed⟩ := claimCapture_eq_ok hclaim
  have hinbox := h.inbox hreported
  refine ⟨hinbox.sound, ?_, ?_, hinbox.settled⟩
  · rintro p' hp' - c' hc' hid' hclosed
    obtain rfl := Option.some.inj hp'
    obtain rfl : c' = c := Table.eq_of_key hc' hc (hid'.trans hid.symm)
    exact not_reported (by rw [hclaimed]; decide) (by rw [hclaimed]; decide) hclosed
  · intro p' hp'
    obtain rfl := Option.some.inj hp'
    trivial

/-- The report of a pass that leaves no run open. -/
theorem Inv.reports {ending : Ending} (h : Inv w) (hp : w.pass = some p)
    (hphase : p.phase = .ending ending)
    (hleaves : p.leaves (w.carriers p.captureId) = false)
    (hreport : w.report P p readings ending = .ok w') : Inv w' := by
  simp only [World.report, bind_eq_ok, pure_eq_ok] at hreport
  obtain ⟨⟨inbox, _⟩, hcomplete, rfl⟩ := hreport
  have hholds := h.holds p hp
  rw [hphase] at hholds
  have hsettles : ∀ target, Captures.captureOutcome ending.outcome = .ok target →
      target.1 = .consumed ∨ target.1 = .failed →
      ∀ thread, w.carriers p.captureId = some thread → thread.IsSettled := by
    intro target htarget hclosed
    have huncertain : ending.outcome.outcome = "uncertain" → False := by
      intro houtcome
      rw [captureOutcome_uncertain houtcome htarget] at hclosed
      rcases hclosed with hclosed | hclosed
      · cases hclosed
      · cases hclosed
    cases ending with
    | consumed sourceIds =>
        refine Carried.isSettled hholds fun run has => ⟨?_, .inl has.stage⟩
        rw [has.state]
        decide
    | replayed sourceIds =>
        intro thread hthread
        refine (h.sound _ _ hthread).isSettled fun run hrun => ?_
        simp only [Pass.leaves, hphase, hthread, Option.any_some, List.any_eq_false,
          Bool.not_eq_true', decide_eq_false_iff_not, not_not] at hleaves
        exact hleaves run hrun
    | failed category =>
        refine Carried.isSettled hholds fun run has => ⟨?_, .inr has.stage⟩
        rw [has.state]
        decide
    | refused category =>
        rw [Pass.leaves, hphase] at hleaves
        cases hleaves
    | uncertain => exact (huncertain rfl).elim
    | setAside category blockedBy => exact (huncertain rfl).elim
  rcases completeCapture_eq_ok hcomplete with rfl | ⟨target, htarget, hrows⟩
  · exact h.over
  · have hsettled : ∀ c ∈ inbox.tables, IsReported c →
        ∀ thread, w.carriers c.id = some thread → thread.IsSettled := by
      intro c hc hclosed
      rcases hrows c hc with hold | ⟨hid, hstate⟩
      · exact h.settled c hold hclosed
      · rw [hid]
        refine hsettles target htarget ?_
        rw [← hstate]
        exact hclosed
    refine ⟨h.sound, fun p hp => ?_, fun p hp => ?_, hsettled⟩
    · cases hp
    · cases hp

theorem Inv.advance (h : Inv w) (hp : w.pass = some p)
    (hleaves : p.leaves (w.carriers p.captureId) = false)
    (hadvance : w.advance P p readings = .ok w') : Inv w' := by
  have hholds := h.holds p hp
  unfold World.advance at hadvance
  cases hphase : p.phase with
  | claiming =>
      rw [hphase] at hadvance
      exact h.claims hadvance
  | consuming =>
      rw [hphase] at hadvance
      have hfree : ∀ carrier, p.phase.Holds carrier := by
        intro carrier
        rw [hphase]
        trivial
      exact h.works hp (by rw [hphase]; rfl) (.consume hfree h.sound hadvance)
  | dispatching runId claim =>
      rw [hphase] at hadvance
      exact h.works hp (by rw [hphase]; rfl) (.dispatch h.sound hadvance)
  | asking runId claim =>
      rw [hphase] at hadvance
      exact h.works hp (by rw [hphase]; rfl) (.reconcile h.sound hadvance)
  | reconciled runId =>
      rw [hphase] at hadvance
      exact h.works hp (by rw [hphase]; rfl) (.goOn h.sound hadvance)
  | settling runId sourceIds =>
      rw [hphase] at hadvance hholds
      exact h.works hp (by rw [hphase]; rfl) (.settle h.sound hholds hadvance)
  | closing runId sourceIds =>
      rw [hphase] at hadvance hholds
      exact h.works hp (by rw [hphase]; rfl) (.closeRun h.sound hholds hadvance)
  | canceling runId attemptId revision sourceIds =>
      rw [hphase] at hadvance hholds
      exact h.works hp (by rw [hphase]; rfl) (.settleRun h.sound hholds hadvance)
  | ending ending =>
      rw [hphase] at hadvance
      exact h.reports hp hphase hleaves hadvance

theorem Inv.operate {call : Captures.Call} (h : Inv w) (htheirs : isOperators call = true) :
    Inv (w.operate P readings call) := by
  unfold World.operate
  split
  · rename_i inbox reply hexec
    have hstep : Captures.Step P.requestHash P.captureShape w.inbox
        ((call, readings.inbox), reply) inbox := hexec
    refine h.inbox (reported_of_step hstep fun captureId owner epoch => ?_)
    cases call with
    | complete => cases htheirs
    | _ => exact Bool.and_false _
  · exact h

theorem Inv.step {event : Event ρ} (h : Inv w) (hstep : Step P w event w')
    (hleaves : Leaves w event = false) : Inv w' := by
  obtain ⟨move, readings⟩ := event
  subst hstep
  cases move with
  | operator call htheirs => exact h.operate htheirs
  | begin =>
      change Inv (w.start readings)
      unfold World.start
      split
      · cases hbegin : w.begin readings with
        | ok w' => exact h.begin P hbegin
        | error error => exact h
      · exact h
  | advance =>
      change Inv (w.proceed P readings)
      unfold World.proceed
      split
      · exact h
      · rename_i p hp
        cases hadvance : w.advance P p readings with
        | ok w' =>
            refine h.advance hp ?_ hadvance
            simpa only [Leaves, hp, Option.any_some] using hleaves
        | error error => exact h.over
  | crash => exact h.over

theorem inv_of_history {events : List (Event ρ)}
    (h : History (restrict (Step P) fun w event => Leaves w event = false) World.initial events w) :
    Inv w :=
  h.invariant inv_initial fun hinv hstep => hinv.step hstep.1 hstep.2

/-- In every run without a report that leaves a run open, every run of the carrier of a capture
that is consumed or failed is terminal with its stage settled, and its thread has no active run. -/
theorem settled_captures_leave_no_live_carrier {events : List (Event ρ)}
    (h : History (restrict (Step P) fun w event => Leaves w event = false) World.initial events w) :
    ∀ c ∈ w.inbox.tables, c.state = .consumed ∨ c.state = .failed →
      ∀ thread, w.carriers c.id = some thread → thread.IsSettled :=
  (inv_of_history h).settled

/-- None of the events is a report that leaves a run open. -/
def leavesNone (P : Platform Digest) : List (Event ρ) → Bool
  | [] => true
  | event :: earlier => !Leaves (World.after P earlier) event && leavesNone P earlier

theorem history_leavesNone {events : List (Event ρ)} (h : leavesNone P events = true) :
    History (restrict (Step P) fun w event => Leaves w event = false) World.initial events
      (World.after P events) := by
  induction events with
  | nil => exact .nil
  | cons event earlier ih =>
      simp only [leavesNone, Bool.and_eq_true, Bool.not_eq_true'] at h
      exact (ih h.2).cons ⟨rfl, h.1⟩

end Steps

/-! ## Two runs -/

/-- Requests stand for their own digests, and a key says what it is for. -/
def somePlatform : Platform Captures.Request where
  requestHash := id
  captureShape payload := (.text, payload)
  idempotencyKey
    | .claim _ claimEpoch => List.replicate (16 + claimEpoch) 'a'
    | .consumed _ claimEpoch => List.replicate (16 + claimEpoch) 'b'
    | .failed _ claimEpoch => List.replicate (16 + claimEpoch) 'c'
    | .uncertain _ claimEpoch => List.replicate (16 + claimEpoch) 'd'
    | .aside _ claimEpoch => List.replicate (16 + claimEpoch) 'e'
  inputHash _ := ['h']
  leases := .default

/-- The engine finishes an import as it is told. -/
def someReadings (importSource : Answer (Imported ℕ)) : Readings ℕ where
  inbox := Captures.noon 7
  carrier := { clock := (Captures.noon 7).clock, resultIsValid := true, references := .ok () }
  dispatchIsEnabled := true
  runId := 1
  attemptId := 2
  foreignThread := none
  foreignRun := none
  checkpoint := .returned ()
  importSource
  reconcileEffect := .returned (.committed 0)
  sourcesOfEffect := [['s']]

/-- A capture that is created and approved, and a pass over it with some steps. -/
def firstPass (importSource : Answer (Imported ℕ)) (steps : ℕ) : List (Event ℕ) :=
  List.replicate steps ⟨.advance, someReadings importSource⟩ ++
  [ ⟨.begin, someReadings importSource⟩
  , ⟨.operator (.approve 7 0 (Captures.someCaller 'a')) rfl, someReadings importSource⟩
  , ⟨.operator (.create ['p'] [] (Captures.someCaller 'a')) rfl, someReadings importSource⟩ ]

/-- The import succeeds, and the pass reports the capture as consumed. -/
def importedRun : List (Event ℕ) := firstPass (.returned ⟨0, [['s']]⟩) 12

theorem settled_captures_leave_no_live_carrier_importedRun :
    (World.after somePlatform importedRun).inbox.tables.rows.map Captures.Capture.state =
        [.consumed] ∧
      ∀ c ∈ (World.after somePlatform importedRun).inbox.tables,
        c.state = .consumed ∨ c.state = .failed →
        ∀ thread, (World.after somePlatform importedRun).carriers c.id = some thread →
          thread.IsSettled :=
  ⟨by rfl, settled_captures_leave_no_live_carrier (history_leavesNone (by rfl))⟩

/-- The outcome of the import is unknown; the capture is re-opened, and the engine answers that
the import was committed. -/
def reconciledRun : List (Event ℕ) :=
  List.replicate 5 ⟨.advance, someReadings .unknown⟩ ++
  [ ⟨.begin, someReadings .unknown⟩
  , ⟨.operator (.reopen 7 3 true (Captures.someCaller 'b')) rfl, someReadings .unknown⟩ ] ++
  firstPass .unknown 9

/-- The capture is consumed, while the run of its carrier is still queued and active. -/
theorem reconciled_capture_leaves_its_carrier :
    ∃ (events : List (Event ℕ)) (w : World Captures.Request ℕ),
      History (Step somePlatform) World.initial events w ∧ w.pass.isNone ∧
      ∃ c ∈ w.inbox.tables, c.state = .consumed ∧
        ∃ thread, w.carriers c.id = some thread ∧ ¬thread.IsSettled ∧
          thread.activeRunId = some 1 := by
  refine ⟨reconciledRun, _, history_after somePlatform reconciledRun, by rfl, ?_⟩
  have hlive : ((World.after somePlatform reconciledRun).inbox.tables.rows.any fun c =>
      c.state = .consumed ∧ ((World.after somePlatform reconciledRun).carriers c.id).any
        fun thread => thread.activeRunId = some 1) = true := by rfl
  obtain ⟨c, hc, hlive⟩ := List.any_eq_true.1 hlive
  obtain ⟨hconsumed, hcarrier⟩ := of_decide_eq_true hlive
  obtain ⟨thread, hthread, hactive⟩ := (Option.any_eq_true _ _).1 hcarrier
  rw [decide_eq_true_eq] at hactive
  refine ⟨c, hc, hconsumed, thread, hthread, fun hsettled => ?_, hactive⟩
  rw [hsettled.2] at hactive
  cases hactive

end Cortex.Consumer
