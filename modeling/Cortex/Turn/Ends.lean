import Cortex.Library.History
import Cortex.Turn.Body

/-!
# Which turns end and say so last

Once the runner returned, the thread of the turn goes through the rest of `_body`
whatever the timer and the loop do, and every step of it can be made.  It ends
with the turn done and with `operation.finish` as the last frame exactly when the
runner behaved (`Behaves`): `_body` takes the digest outside of any handler, and
the last frame is only written if JSON can write the result.
-/

namespace Cortex.Turn

open Py
open Control (Text)
open OperationLedger (OperationId)

variable {P : Platform} {operationId : OperationId} {sessionRef : Str} {events : List Action}
  {s s' : State}

/-! ## What a turn wrote -/

def framesOf (outputs : List Output) : List Frame :=
  outputs.filterMap fun output =>
    match output with
    | .frame written => some written
    | .recorded _ _ => none

/-- A frame that does not end the turn. -/
def Output.isPlain : Output → Prop
  | .frame written => isFinish written.kind = false
  | .recorded _ _ => False

/-- The turn is done; it recorded its outcome once, and after that wrote the one frame that ends
it, as its last; and it does not keep a later turn from beginning. -/
structure SaysSoLast (s : State) : Prop where
  done : s.done = true
  last : ∃ before between outcome resultDigest frame,
    s.outputs = before ++ .recorded outcome resultDigest :: (between ++ [.frame frame]) ∧
      isFinish frame.kind = true ∧ ∀ output ∈ before ++ between, output.isPlain
  later : ∀ p : Worker.Process, p.turns.head? = some s.asTurn → p.openTurn = none

/-! ## How the runner behaves -/

def Action.isCancel : Action → Bool
  | .cancel => true
  | _ => false

def Action.isJudges : Action → Bool
  | .judges => true
  | _ => false

/-- The turn was canceled before `_body` looked at the result. -/
def canceledAtJudge (events : List Action) : Bool :=
  (events.dropWhile fun action => !action.isJudges).any Action.isCancel

/-- The runner wrote the frame that ends the turn. -/
def Fakes (P : Platform) (events : List Action) : Prop :=
  ∃ kind payload, .emit kind payload ∈ events ∧ isFinish kind = true ∧
    encodes P kind payload = true

/-- JSON writes the result inside of the last frame. -/
def resultWrites (P : Platform) (result : Fields) : Bool :=
  JsonOptions.writes ⟨true, true⟩ P.limits.digits (P.limits.depth - 3) (.dict result)

/-- The digest takes up the result, and the last frame too. -/
structure Sayable (P : Platform) (sessionRef : Str) (result : Fields) : Prop
    extends Tellable sessionRef result where
  framed : resultWrites P result = true

/-- The runner only signals what can be digested, leaves the last frame to `_body`, and returns,
if it does, a result that can be told. -/
structure Behaves (P : Platform) (sessionRef : Str) (events : List Action) : Prop where
  digestible : ∀ kind payload, .emit kind payload ∈ events → Digestible P ⟨kind, payload⟩
  unfinished : ¬Fakes P events
  result : ∀ result, .returns result ∈ events →
    Sayable P sessionRef (reportedResult (canceledAtJudge events) result)

/-! ## The result -/

private theorem sayable_caught (sessionRef : Str) (canceled : Bool) :
    Sayable P sessionRef (caughtResult sessionRef canceled) := by
  obtain ⟨depth, hdepth⟩ : ∃ depth, P.limits.depth - 3 = depth + 1 :=
    ⟨P.limits.depth - 4, by have := P.deep; omega⟩
  refine ⟨⟨?_, ?_, ?_, ?_⟩, ?_⟩
  · simp [caughtResult, HasTruth, Value.truth]
  · simp [caughtResult, HasTruth, Value.truth]
  · intro _ hother
    simp [caughtResult, textOf] at hother
  · intro _ _
    simp [caughtResult, Clean, textOf]
  · simp [resultWrites, caughtResult, hdepth, -List.all_eq_true]

private theorem encodes_finish (outcome : Outcome) (result : Fields) (resultDigest : Text)
    (ledgerError : Option String) :
    encodes P eventFinish (finishPayload outcome result resultDigest ledgerError) =
      resultWrites P result := by
  obtain ⟨depth, hdepth, hdepth'⟩ : ∃ depth, P.limits.depth - 2 = depth + 1 ∧
      P.limits.depth - 3 = depth :=
    ⟨P.limits.depth - 3, by have := P.deep; omega, rfl⟩
  have hkind : isNonemptyText eventFinish = true := by decide
  rw [encodes, hkind, Bool.true_and, payloadWrites, resultWrites, hdepth, hdepth', finishPayload,
    JsonOptions.writes_fieldsOf]
  cases ledgerError <;> simp [-List.all_eq_true]

/-- The result that the turn reports. -/
inductive Reports (sessionRef : Str) (events : List Action) : Fields → Prop
  | returned {result : Fields} :
      (∀ other, .returns other ∈ events ↔ other = result) →
      Reports sessionRef events (reportedResult (canceledAtJudge events) result)
  | raised (canceled : Bool) :
      (∀ other, .returns other ∉ events) →
      Reports sessionRef events (caughtResult sessionRef canceled)

private theorem behaves_iff {result : Fields} {signals : List Signal}
    (hsignals : ∀ signal, signal ∈ signals ↔ .emit signal.kind signal.fields ∈ events)
    (h : Reports sessionRef events result) :
    Behaves P sessionRef events ↔
      (∀ signal ∈ signals, Digestible P signal) ∧ ¬Fakes P events ∧
        Sayable P sessionRef result := by
  have hdigestible : (∀ kind payload, .emit kind payload ∈ events →
      Digestible P ⟨kind, payload⟩) ↔ ∀ signal ∈ signals, Digestible P signal := by
    constructor
    · intro hall signal hsignal
      exact hall _ _ ((hsignals signal).1 hsignal)
    · intro hall kind payload hemit
      exact hall ⟨kind, payload⟩ ((hsignals _).2 hemit)
  rw [← hdigestible]
  cases h with
  | returned hreturned =>
      constructor
      · intro hb
        exact ⟨hb.digestible, hb.unfinished, hb.result _ ((hreturned _).2 rfl)⟩
      · rintro ⟨hdigests, hfakes, hsayable⟩
        refine ⟨hdigests, hfakes, fun other hother => ?_⟩
        obtain rfl := (hreturned other).1 hother
        exact hsayable
  | raised canceled hraised =>
      constructor
      · intro hb
        exact ⟨hb.digestible, hb.unfinished, sayable_caught _ _⟩
      · rintro ⟨hdigests, hfakes, -⟩
        exact ⟨hdigests, hfakes, fun other hother => absurd hother (hraised other)⟩

/-! ## Calls of the emitter -/

theorem emit_cases (kind : Value) (payload : Fields) :
    ((s.emitter.isSealed = true ∨ encodes P kind payload = false) ∧ s.emit P kind payload = s) ∨
    (s.emitter.isSealed = false ∧ encodes P kind payload = true ∧
      s.emit P kind payload =
        { s with
          emitter := ⟨s.emitter.sequence + 1, isFinish kind⟩
          outputs := s.outputs ++ [.frame ⟨s.emitter.sequence, kind, payload⟩] }) := by
  unfold State.emit Emitter.emit
  by_cases hsealed : s.emitter.isSealed = true
  · rw [if_pos hsealed]
    refine .inl ⟨.inl hsealed, ?_⟩
    simp only [List.append_nil]
  · rw [if_neg hsealed]
    by_cases hencodes : encodes P kind payload = true
    · rw [if_pos hencodes]
      exact .inr ⟨eq_false_of_ne_true hsealed, hencodes, rfl⟩
    · rw [if_neg hencodes]
      exact .inl ⟨.inr (eq_false_of_ne_true hencodes), rfl⟩

/-- The frames are numbered from zero on, and the emitter is sealed by the frame that ends the
turn. -/
structure Numbered (s : State) : Prop where
  sequences : (framesOf s.outputs).map Frame.sequence = List.range s.emitter.sequence
  isSealed : s.emitter.isSealed = true ↔ ∃ frame ∈ framesOf s.outputs, isFinish frame.kind = true

theorem framesOf_append (outputs later : List Output) :
    framesOf (outputs ++ later) = framesOf outputs ++ framesOf later :=
  List.filterMap_append

theorem Numbered.emit (h : Numbered s) (kind : Value) (payload : Fields) :
    Numbered (s.emit P kind payload) := by
  rcases emit_cases (P := P) (s := s) kind payload with ⟨-, hsame⟩ | ⟨hopen, -, hwritten⟩
  · rw [hsame]
    exact h
  · rw [hwritten]
    refine ⟨?_, ?_⟩
    · rw [framesOf_append, List.map_append, h.sequences, List.range_succ]
      rfl
    · have hnone := h.isSealed
      rw [hopen] at hnone
      simp only [Bool.false_eq_true, false_iff, not_exists, not_and] at hnone
      rw [framesOf_append]
      constructor
      · intro hfinish
        exact ⟨_, List.mem_append_right _ (List.mem_singleton_self _), hfinish⟩
      · rintro ⟨frame, hframe, hfinish⟩
        rcases List.mem_append.1 hframe with hframe | hframe
        · exact absurd hfinish (hnone frame hframe)
        · rw [List.mem_singleton.1 hframe] at hfinish
          exact hfinish

/-! ## One step -/

theorem resolve_eq (decisionId choice : Str) :
    ∃ choices, s.resolve decisionId choice = { s with choices := choices } := by
  unfold State.resolve
  split
  · exact ⟨_, rfl⟩
  · exact ⟨s.choices, rfl⟩

/-- What a step of `await_decision` can do. -/
theorem park_eq (decisionId : Str) :
    ∃ gates choices phase, s.park decisionId =
        { s with gates := gates, choices := choices, phase := phase } ∧
      (phase = s.phase ∨ phase = .waiting decisionId) := by
  unfold State.park
  split
  · exact ⟨s.gates, _, s.phase, rfl, .inl rfl⟩
  · exact ⟨_, s.choices, _, rfl, .inr rfl⟩

/-- A step emits a frame, or records the outcome, or writes nothing. -/
private theorem step_outputs {action : Action} (hstep : Step P s action s') :
    (s'.emitter = s.emitter ∧ s'.outputs = s.outputs) ∨
    (∃ kind payload, s'.emitter = (s.emit P kind payload).emitter ∧
      s'.outputs = (s.emit P kind payload).outputs) ∨
    ∃ outcome digest, s'.emitter = s.emitter ∧
      s'.outputs = s.outputs ++ [.recorded outcome digest] := by
  unfold Step step at hstep
  split at hstep
  case h_2 decisionId choice =>
    obtain ⟨choices, hchoices⟩ := resolve_eq (s := s) decisionId choice
    obtain rfl := Option.some.inj hstep
    rw [hchoices]
    exact .inl ⟨rfl, rfl⟩
  case h_4 =>
    split at hstep
    · obtain rfl := Option.some.inj hstep
      exact .inr (.inl ⟨_, _, rfl, rfl⟩)
    · cases hstep
  case h_6 =>
    obtain rfl := Option.some.inj hstep
    exact .inr (.inl ⟨_, _, rfl, rfl⟩)
  case h_7 decisionId _ =>
    obtain ⟨gates, choices, phase, hpark, -⟩ := park_eq (s := s) decisionId
    obtain rfl := Option.some.inj hstep
    rw [hpark]
    exact .inl ⟨rfl, rfl⟩
  case h_15 =>
    obtain rfl := Option.some.inj hstep
    exact .inr (.inr ⟨_, _, rfl, rfl⟩)
  case h_16 =>
    obtain rfl := Option.some.inj hstep
    exact .inr (.inl ⟨_, _, rfl, rfl⟩)
  all_goals
    first
    | (obtain rfl := Option.some.inj hstep; exact .inl ⟨rfl, rfl⟩)
    | (split at hstep <;> cases hstep <;> exact .inl ⟨rfl, rfl⟩)
    | cases hstep

private theorem Numbered.step (h : Numbered s) {action : Action} (hstep : Step P s action s') :
    Numbered s' := by
  rcases step_outputs hstep with ⟨hemitter, houtputs⟩ | ⟨kind, payload, hemitter, houtputs⟩ |
    ⟨outcome, digest, hemitter, houtputs⟩
  · refine ⟨?_, ?_⟩
    · rw [hemitter, houtputs]
      exact h.sequences
    · rw [hemitter, houtputs]
      exact h.isSealed
  · have hemit := h.emit (P := P) kind payload
    refine ⟨?_, ?_⟩
    · rw [hemitter, houtputs]
      exact hemit.sequences
    · rw [hemitter, houtputs]
      exact hemit.isSealed
  · have hframes : framesOf s'.outputs = framesOf s.outputs := by
      rw [houtputs, framesOf_append]
      exact List.append_nil _
    refine ⟨?_, ?_⟩
    · rw [hemitter, hframes]
      exact h.sequences
    · rw [hemitter, hframes]
      exact h.isSealed

/-! ## What the events so far say -/

/-- A step that neither the runner's signals nor its result speak of. -/
def Action.isSilent : Action → Bool
  | .emit _ _ | .returns _ | .judges => false
  | _ => true

section Silent

variable {action : Action} (hsilent : action.isSilent = true)

include hsilent

private theorem emit_mem_cons (kind : Value) (payload : Fields) :
    .emit kind payload ∈ action :: events ↔ .emit kind payload ∈ events := by
  rw [List.mem_cons]
  refine or_iff_right ?_
  rintro rfl
  cases hsilent

private theorem returns_mem_cons (result : Fields) :
    .returns result ∈ action :: events ↔ .returns result ∈ events := by
  rw [List.mem_cons]
  refine or_iff_right ?_
  rintro rfl
  cases hsilent

private theorem canceledAtJudge_cons :
    canceledAtJudge (action :: events) = canceledAtJudge events := by
  have hjudges : (!action.isJudges) = true := by
    cases action <;> first | rfl | cases hsilent
  unfold canceledAtJudge
  rw [List.dropWhile_cons, if_pos hjudges]

private theorem fakes_cons : Fakes P (action :: events) ↔ Fakes P events := by
  simp only [Fakes, emit_mem_cons hsilent]

private theorem reports_cons {result : Fields} (h : Reports sessionRef events result) :
    Reports sessionRef (action :: events) result := by
  cases h with
  | returned hreturned =>
      rw [← canceledAtJudge_cons hsilent]
      refine .returned fun other => ?_
      rw [returns_mem_cons hsilent]
      exact hreturned other
  | raised canceled hraised =>
      refine .raised canceled fun other => ?_
      rw [returns_mem_cons hsilent]
      exact hraised other

private theorem behaves_cons :
    Behaves P sessionRef (action :: events) ↔ Behaves P sessionRef events := by
  constructor
  · rintro ⟨hdigestible, hunfinished, hresult⟩
    simp only [emit_mem_cons hsilent, fakes_cons hsilent, returns_mem_cons hsilent,
      canceledAtJudge_cons hsilent] at hdigestible hunfinished hresult
    exact ⟨hdigestible, hunfinished, hresult⟩
  · rintro ⟨hdigestible, hunfinished, hresult⟩
    refine ⟨?_, ?_, ?_⟩ <;>
      simpa only [emit_mem_cons hsilent, fakes_cons hsilent, returns_mem_cons hsilent,
        canceledAtJudge_cons hsilent]

end Silent

/-! ## The invariant -/

def OnlyFrames (outputs : List Output) : Prop := ∀ output ∈ outputs, ∃ frame, output = .frame frame

/-- The turn has written frames only, and the emitter is sealed if the runner wrote the last. -/
structure Framed (P : Platform) (events : List Action) (s : State) : Prop where
  frames : OnlyFrames s.outputs
  faked : s.emitter.isSealed = true ↔ Fakes P events

/-- What is known where the thread of the turn is. -/
def Known (P : Platform) (events : List Action) (s : State) : Phase → Prop
  | .running | .waiting _ => (∀ result, .returns result ∉ events) ∧ Framed P events s
  | .emitting signal =>
      (∀ result, .returns result ∉ events) ∧ OnlyFrames s.outputs ∧
        (Fakes P events ↔ s.emitter.isSealed = true ∨
          isFinish signal.kind = true ∧ encodes P signal.kind signal.fields = true)
  | .returned result => (∀ other, .returns other ∈ events ↔ other = result) ∧ Framed P events s
  | .stopping none => ¬Behaves P s.sessionRef events
  | .stopping (some (_, result)) | .digesting _ result =>
      Reports s.sessionRef events result ∧ Framed P events s
  | .recording _ result digest =>
      Reports s.sessionRef events result ∧ Framed P events s ∧
        turnDigest P s.signals s.sessionRef result = some digest
  | .announcing payload =>
      ∃ outcome result digest ledgerError,
        payload = finishPayload outcome result digest ledgerError ∧
        Reports s.sessionRef events result ∧
        turnDigest P s.signals s.sessionRef result = some digest ∧
        (s.emitter.isSealed = true ↔ Fakes P events) ∧
        ∃ before between, s.outputs = before ++ .recorded outcome digest :: between ∧
          OnlyFrames before ∧ ∀ output ∈ between, output.isPlain
  | .ended => SaysSoLast s ↔ Behaves P s.sessionRef events

structure Inv (P : Platform) (sessionRef : Str) (events : List Action) (s : State) : Prop where
  numbered : Numbered s
  signals : ∀ signal, signal ∈ s.signals ↔ .emit signal.kind signal.fields ∈ events
  canceled : s.cancel = events.any Action.isCancel
  session : s.sessionRef = sessionRef
  unfinished : s.phase ≠ .ended → s.done = false
  known : Known P events s s.phase

/-! ### The timer and the loop -/

def Action.isOutside : Action → Bool
  | .cancel | .resolve _ _ | .wakes | .beats => true
  | _ => false

/-- What the timer and the loop leave as it was. -/
structure Quiet (s s' : State) : Prop where
  phase : s'.phase = s.phase
  done : s'.done = s.done
  signals : s'.signals = s.signals
  session : s'.sessionRef = s.sessionRef
  operation : s'.operationId = s.operationId
  isSealed : s'.emitter.isSealed = s.emitter.isSealed
  outputs : s'.outputs = s.outputs ∨ s.emitter.isSealed = false ∧
    ∃ frame, isFinish frame.kind = false ∧ s'.outputs = s.outputs ++ [.frame frame]

private theorem outside_step {action : Action} (houtside : action.isOutside = true)
    (hstep : Step P s action s') :
    Quiet s s' ∧ s'.cancel = (action.isCancel || s.cancel) := by
  unfold Step step at hstep
  cases action with
  | cancel =>
      obtain rfl := Option.some.inj hstep
      exact ⟨⟨rfl, rfl, rfl, rfl, rfl, rfl, .inl rfl⟩, rfl⟩
  | resolve decisionId choice =>
      obtain ⟨choices, hchoices⟩ := resolve_eq (s := s) decisionId choice
      obtain rfl := Option.some.inj hstep
      rw [hchoices]
      exact ⟨⟨rfl, rfl, rfl, rfl, rfl, rfl, .inl rfl⟩, rfl⟩
  | wakes =>
      simp only at hstep
      split at hstep
      · cases hstep
      · obtain rfl := Option.some.inj hstep
        exact ⟨⟨rfl, rfl, rfl, rfl, rfl, rfl, .inl rfl⟩, rfl⟩
  | beats =>
      simp only at hstep
      split at hstep
      · obtain rfl := Option.some.inj hstep
        rcases emit_cases (P := P) (s := s) eventHeartbeat [] with
          ⟨-, hsame⟩ | ⟨hopen, -, hwritten⟩
        · rw [hsame]
          exact ⟨⟨rfl, rfl, rfl, rfl, rfl, rfl, .inl rfl⟩, rfl⟩
        · rw [hwritten]
          have hplain : isFinish eventHeartbeat = false := by decide
          refine ⟨⟨rfl, rfl, rfl, rfl, rfl, ?_, .inr ⟨hopen, _, hplain, rfl⟩⟩, rfl⟩
          exact hplain.trans hopen.symm
      · cases hstep
  | _ => cases houtside

private theorem OnlyFrames.append_frame {outputs : List Output} (h : OnlyFrames outputs)
    (frame : Frame) : OnlyFrames (outputs ++ [.frame frame]) := by
  intro output houtput
  rcases List.mem_append.1 houtput with houtput | houtput
  · exact h output houtput
  · exact ⟨frame, List.mem_singleton.1 houtput⟩

private theorem Quiet.frames (h : Quiet s s') (hframes : OnlyFrames s.outputs) :
    OnlyFrames s'.outputs := by
  rcases h.outputs with hsame | ⟨-, frame, -, hwritten⟩
  · rw [hsame]
    exact hframes
  · rw [hwritten]
    exact hframes.append_frame frame

private theorem framed_quiet {action : Action} (hsilent : action.isSilent = true)
    (hquiet : Quiet s s') (h : Framed P events s) : Framed P (action :: events) s' := by
  refine ⟨hquiet.frames h.frames, ?_⟩
  rw [hquiet.isSealed, fakes_cons hsilent]
  exact h.faked

private theorem SaysSoLast.isSealed (h : SaysSoLast s) (hnumbered : Numbered s) :
    s.emitter.isSealed = true := by
  obtain ⟨before, between, outcome, digest, frame, houtputs, hfinish, -⟩ := h.last
  refine hnumbered.isSealed.2 ⟨frame, ?_, hfinish⟩
  have hmem : Output.frame frame ∈ s.outputs := by
    rw [houtputs]
    simp
  exact List.mem_filterMap.2 ⟨_, hmem, rfl⟩

/-- A frame of the timer does not make a turn say so last. -/
private theorem saysSoLast_quiet (hnumbered : Numbered s') (hnumbered' : Numbered s)
    (h : Quiet s s') : SaysSoLast s' ↔ SaysSoLast s := by
  have hturn : s'.asTurn = s.asTurn := by
    unfold State.asTurn
    rw [h.operation, h.done, h.phase]
  rcases h.outputs with hsame | ⟨hopen, -⟩
  · constructor
    · rintro ⟨hdone, hlast, hlater⟩
      rw [h.done] at hdone
      rw [hsame] at hlast
      rw [hturn] at hlater
      exact ⟨hdone, hlast, hlater⟩
    · rintro ⟨hdone, hlast, hlater⟩
      rw [← h.done] at hdone
      rw [← hsame] at hlast
      rw [← hturn] at hlater
      exact ⟨hdone, hlast, hlater⟩
  · constructor
    · intro hsaid
      have hsealed := hsaid.isSealed hnumbered
      rw [h.isSealed, hopen] at hsealed
      cases hsealed
    · intro hsaid
      have hsealed := hsaid.isSealed hnumbered'
      rw [hopen] at hsealed
      cases hsealed

private theorem Inv.quiet (h : Inv P sessionRef events s) {action : Action}
    (houtside : action.isOutside = true) (hstep : Step P s action s') :
    Inv P sessionRef (action :: events) s' := by
  have hsilent : action.isSilent = true := by
    cases action <;> first | rfl | cases houtside
  obtain ⟨hquiet, hcancel⟩ := outside_step houtside hstep
  have hnumbered := h.numbered.step hstep
  refine ⟨hnumbered, ?_, ?_, hquiet.session.trans h.session, ?_, ?_⟩
  · intro signal
    rw [hquiet.signals, emit_mem_cons hsilent]
    exact h.signals signal
  · rw [hcancel, h.canceled]
    rfl
  · intro hphase
    rw [hquiet.phase] at hphase
    rw [hquiet.done]
    exact h.unfinished hphase
  · have hknown := h.known
    rw [hquiet.phase]
    cases hphase : s.phase with
    | running =>
        rw [hphase] at hknown
        refine ⟨fun result => ?_, framed_quiet hsilent hquiet hknown.2⟩
        rw [returns_mem_cons hsilent]
        exact hknown.1 result
    | waiting decisionId =>
        rw [hphase] at hknown
        refine ⟨fun result => ?_, framed_quiet hsilent hquiet hknown.2⟩
        rw [returns_mem_cons hsilent]
        exact hknown.1 result
    | emitting signal =>
        rw [hphase] at hknown
        obtain ⟨hunreturned, hframes, hfaked⟩ := hknown
        refine ⟨fun result => ?_, hquiet.frames hframes, ?_⟩
        · rw [returns_mem_cons hsilent]
          exact hunreturned result
        · rw [fakes_cons hsilent, hquiet.isSealed]
          exact hfaked
    | returned result =>
        rw [hphase] at hknown
        refine ⟨fun other => ?_, framed_quiet hsilent hquiet hknown.2⟩
        rw [returns_mem_cons hsilent]
        exact hknown.1 other
    | stopping ending =>
        rw [hphase] at hknown
        cases ending with
        | none =>
            rw [Known, hquiet.session, behaves_cons hsilent]
            exact hknown
        | some ending =>
            obtain ⟨hreports, hframed⟩ := hknown
            rw [Known, hquiet.session]
            exact ⟨reports_cons hsilent hreports, framed_quiet hsilent hquiet hframed⟩
    | digesting outcome result =>
        rw [hphase] at hknown
        obtain ⟨hreports, hframed⟩ := hknown
        rw [Known, hquiet.session]
        exact ⟨reports_cons hsilent hreports, framed_quiet hsilent hquiet hframed⟩
    | recording outcome result digest =>
        rw [hphase] at hknown
        obtain ⟨hreports, hframed, hdigest⟩ := hknown
        rw [Known, hquiet.session, hquiet.signals]
        exact ⟨reports_cons hsilent hreports, framed_quiet hsilent hquiet hframed, hdigest⟩
    | announcing payload =>
        rw [hphase] at hknown
        obtain ⟨outcome, result, digest, ledgerError, rfl, hreports, hdigest, hfaked, before,
          between, houtputs, hframes, hplain⟩ := hknown
        rw [Known, hquiet.session, hquiet.signals, hquiet.isSealed, fakes_cons hsilent]
        refine ⟨outcome, result, digest, ledgerError, rfl, reports_cons hsilent hreports, hdigest,
          hfaked, ?_⟩
        rcases hquiet.outputs with hsame | ⟨-, frame, hframe, hwritten⟩
        · exact ⟨before, between, hsame.trans houtputs, hframes, hplain⟩
        · refine ⟨before, between ++ [.frame frame], ?_, hframes, ?_⟩
          · rw [hwritten, houtputs, List.append_assoc, List.cons_append]
          · intro output houtput
            rcases List.mem_append.1 houtput with houtput | houtput
            · exact hplain output houtput
            · rw [List.mem_singleton.1 houtput]
              exact hframe
    | ended =>
        rw [hphase] at hknown
        rw [Known, hquiet.session, behaves_cons hsilent,
          saysSoLast_quiet hnumbered h.numbered hquiet]
        exact hknown

/-! ### The runner -/

private theorem signals_cons (h : Inv P sessionRef events s) {action : Action}
    (hsilent : action.isSilent = true) :
    ∀ signal, signal ∈ s.signals ↔ .emit signal.kind signal.fields ∈ action :: events := by
  intro signal
  rw [emit_mem_cons hsilent]
  exact h.signals signal

private theorem Inv.emit (h : Inv P sessionRef events s) {kind : Value} {payload : Fields}
    (hstep : Step P s (.emit kind payload) s') :
    Inv P sessionRef (.emit kind payload :: events) s' := by
  have hnumbered := h.numbered.step hstep
  have hknown := h.known
  obtain ⟨hphase, rfl⟩ := does_of_step hstep
  rw [hphase] at hknown
  obtain ⟨hunreturned, hframed⟩ := hknown
  have hdone := h.unfinished (by simp [hphase])
  refine ⟨hnumbered, ?_, h.canceled, h.session, fun _ => hdone, ?_⟩
  · intro signal
    rw [State.remember, List.mem_append, List.mem_singleton, List.mem_cons, h.signals]
    constructor
    · rintro (hemit | rfl)
      · exact .inr hemit
      · exact .inl rfl
    · rintro (hemit | hemit)
      · obtain ⟨signalKind, signalFields⟩ := signal
        injection hemit with hkind hfields
        subst hkind hfields
        exact .inr rfl
      · exact .inl hemit
  · refine ⟨fun result hresult => ?_, hframed.frames, ?_⟩
    · rcases List.mem_cons.1 hresult with hresult | hresult
      · cases hresult
      · exact hunreturned result hresult
    · rw [show (s.remember kind payload).emitter.isSealed = true ↔ Fakes P events from
        hframed.faked]
      constructor
      · rintro ⟨otherKind, otherPayload, hemit, hfinish, hencodes⟩
        rcases List.mem_cons.1 hemit with hemit | hemit
        · injection hemit with hkind hpayload
          subst hkind hpayload
          exact .inr ⟨hfinish, hencodes⟩
        · exact .inl ⟨_, _, hemit, hfinish, hencodes⟩
      · rintro (⟨otherKind, otherPayload, hemit, hfinish, hencodes⟩ | ⟨hfinish, hencodes⟩)
        · exact ⟨_, _, .tail _ hemit, hfinish, hencodes⟩
        · exact ⟨_, _, .head _, hfinish, hencodes⟩

private theorem Inv.writes (h : Inv P sessionRef events s) (hstep : Step P s .writes s') :
    Inv P sessionRef (.writes :: events) s' := by
  have hsilent : Action.writes.isSilent = true := rfl
  have hnumbered := h.numbered.step hstep
  have hknown := h.known
  obtain ⟨signal, hphase, rfl⟩ := does_of_step hstep
  rw [hphase] at hknown
  obtain ⟨hunreturned, hframes, hfaked⟩ := hknown
  have hdone := h.unfinished (by simp [hphase])
  rcases emit_cases (P := P) (s := s) signal.kind signal.fields with
    ⟨hrefused, hsame⟩ | ⟨hopen, hencodes, hwritten⟩
  · rw [hsame] at hnumbered ⊢
    refine ⟨hnumbered, signals_cons h hsilent, h.canceled, h.session, fun _ => hdone, ?_⟩
    refine ⟨fun result => ?_, hframes, ?_⟩
    · rw [returns_mem_cons hsilent]
      exact hunreturned result
    · rw [fakes_cons hsilent, hfaked]
      refine (or_iff_left_of_imp fun hfake => ?_).symm
      rcases hrefused with hsealed | hraises
      · exact hsealed
      · rw [hfake.2] at hraises
        cases hraises
  · rw [hwritten] at hnumbered ⊢
    refine ⟨hnumbered, signals_cons h hsilent, h.canceled, h.session, fun _ => hdone, ?_⟩
    refine ⟨fun result => ?_, hframes.append_frame _, ?_⟩
    · rw [returns_mem_cons hsilent]
      exact hunreturned result
    · rw [fakes_cons hsilent, hfaked, hopen]
      simp [hencodes]

private theorem Inv.parks (h : Inv P sessionRef events s) {decisionId : Str}
    (hstep : Step P s (.parks decisionId) s') :
    Inv P sessionRef (.parks decisionId :: events) s' := by
  have hsilent : (Action.parks decisionId).isSilent = true := rfl
  have hnumbered := h.numbered.step hstep
  have hknown := h.known
  obtain ⟨hphase, hparked⟩ := does_of_step hstep
  rw [hphase] at hknown
  have hdone := h.unfinished (by simp [hphase])
  have hunreturned : ∀ result, .returns result ∉ .parks decisionId :: events := by
    intro result
    rw [returns_mem_cons hsilent]
    exact hknown.1 result
  obtain ⟨gates, choices, phase, hpark, hwhere⟩ := park_eq (s := s) decisionId
  rw [hpark] at hparked
  subst hparked
  refine ⟨hnumbered, signals_cons h hsilent, h.canceled, h.session, fun _ => hdone, ?_⟩
  have hframed : Framed P (.parks decisionId :: events)
      { s with gates := gates, choices := choices, phase := phase } :=
    ⟨hknown.2.frames, by rw [fakes_cons hsilent]; exact hknown.2.faked⟩
  rcases hwhere with rfl | rfl
  · change Known P _ _ s.phase
    rw [hphase]
    exact ⟨hunreturned, hframed.frames, hframed.faked⟩
  · exact ⟨hunreturned, hframed⟩

private theorem Inv.released (h : Inv P sessionRef events s) {answered : Bool}
    (hstep : Step P s (.released answered) s') :
    Inv P sessionRef (.released answered :: events) s' := by
  have hsilent : (Action.released answered).isSilent = true := rfl
  have hnumbered := h.numbered.step hstep
  have hknown := h.known
  obtain ⟨decisionId, hphase, rfl⟩ := does_of_step hstep
  rw [hphase] at hknown
  have hdone := h.unfinished (by simp [hphase])
  refine ⟨hnumbered, signals_cons h hsilent, h.canceled, h.session, fun _ => hdone, ?_⟩
  refine ⟨fun result => ?_, hknown.2.frames, ?_⟩
  · rw [returns_mem_cons hsilent]
    exact hknown.1 result
  · rw [fakes_cons hsilent]
    exact hknown.2.faked

private theorem Inv.returns (h : Inv P sessionRef events s) {result : Fields}
    (hstep : Step P s (.returns result) s') :
    Inv P sessionRef (.returns result :: events) s' := by
  have hnumbered := h.numbered.step hstep
  have hknown := h.known
  have hemits : ∀ kind payload, .emit kind payload ∈ .returns result :: events ↔
      .emit kind payload ∈ events := by simp
  obtain ⟨hphase, rfl⟩ := does_of_step hstep
  rw [hphase] at hknown
  have hdone := h.unfinished (by simp [hphase])
  refine ⟨hnumbered, ?_, h.canceled, h.session, fun _ => hdone, ?_⟩
  · intro signal
    rw [hemits]
    exact h.signals signal
  · refine ⟨fun other => ?_, hknown.2.frames, ?_⟩
    · rw [List.mem_cons, Action.returns.injEq]
      exact or_iff_left (hknown.1 other)
    · simp only [Fakes, hemits]
      exact hknown.2.faked

private theorem Inv.raises (h : Inv P sessionRef events s) {canceled : Bool}
    (hstep : Step P s (.raises canceled) s') :
    Inv P sessionRef (.raises canceled :: events) s' := by
  have hsilent : (Action.raises canceled).isSilent = true := rfl
  have hnumbered := h.numbered.step hstep
  have hknown := h.known
  obtain ⟨hphase, rfl⟩ := does_of_step hstep
  rw [hphase] at hknown
  have hdone := h.unfinished (by simp [hphase])
  refine ⟨hnumbered, signals_cons h hsilent, h.canceled, h.session, fun _ => hdone, ?_⟩
  refine ⟨.raised canceled fun result => ?_, hknown.2.frames, ?_⟩
  · rw [returns_mem_cons hsilent]
    exact hknown.1 result
  · rw [fakes_cons hsilent]
    exact hknown.2.faked

/-! ### The rest of `_body` -/

private theorem Inv.judges (h : Inv P sessionRef events s) (hstep : Step P s .judges s') :
    Inv P sessionRef (.judges :: events) s' := by
  have hnumbered := h.numbered.step hstep
  have hknown := h.known
  have hemits : ∀ kind payload, .emit kind payload ∈ .judges :: events ↔
      .emit kind payload ∈ events := by simp
  have hcanceled : canceledAtJudge (.judges :: events) = s.cancel := by
    rw [h.canceled]
    rfl
  obtain ⟨result, hphase, rfl⟩ := does_of_step hstep
  rw [hphase] at hknown
  obtain ⟨hreturned, hframed⟩ := hknown
  have hdone := h.unfinished (by simp [hphase])
  refine ⟨hnumbered, ?_, h.canceled, h.session, fun _ => hdone, ?_⟩
  · intro signal
    rw [hemits]
    exact h.signals signal
  · have hreturned' : ∀ other, .returns other ∈ .judges :: events ↔ other = result := by
      intro other
      rw [← hreturned other]
      simp
    change Known P _ _ (.stopping (judge s.cancel result))
    cases hfailed : flag (reportedResult s.cancel result) "failed" with
    | none =>
        have hjudge : judge s.cancel result = none := by simp [judge, hfailed]
        rw [hjudge]
        intro hbehaves
        have htruth := (hbehaves.result result ((hreturned' _).2 rfl)).failed
        rw [hcanceled] at htruth
        obtain ⟨failed, hflag⟩ := (flag_isSome "failed").2 htruth
        rw [hflag] at hfailed
        cases hfailed
    | some failed =>
        have hjudge : judge s.cancel result = some (if failed then .failed else .committed,
            reportedResult s.cancel result) := by simp [judge, hfailed]
        rw [hjudge]
        refine ⟨?_, hframed.frames, ?_⟩
        · rw [← hcanceled]
          exact .returned hreturned'
        · simp only [Fakes, hemits]
          exact hframed.faked

private theorem Inv.stops (h : Inv P sessionRef events s) (hstep : Step P s .stops s') :
    Inv P sessionRef (.stops :: events) s' := by
  have hsilent : Action.stops.isSilent = true := rfl
  have hnumbered := h.numbered.step hstep
  have hknown := h.known
  obtain ⟨outcome, result, hphase, rfl⟩ | ⟨hphase, rfl⟩ := does_of_step hstep
  · rw [hphase] at hknown
    have hdone := h.unfinished (by simp [hphase])
    obtain ⟨hreports, hframed⟩ := hknown
    refine ⟨hnumbered, signals_cons h hsilent, h.canceled, h.session, fun _ => hdone, ?_⟩
    refine ⟨reports_cons hsilent hreports, hframed.frames, ?_⟩
    rw [fakes_cons hsilent]
    exact hframed.faked
  · rw [hphase] at hknown
    have hdone := h.unfinished (by simp [hphase])
    refine ⟨hnumbered, signals_cons h hsilent, h.canceled, h.session, fun _ => hdone, ?_⟩
    change SaysSoLast _ ↔ _
    rw [behaves_cons hsilent]
    refine iff_of_false (fun hsaid => ?_) hknown
    exact absurd hsaid.done (by simp [hdone])

private theorem Inv.digests (h : Inv P sessionRef events s) (hstep : Step P s .digests s') :
    Inv P sessionRef (.digests :: events) s' := by
  have hsilent : Action.digests.isSilent = true := rfl
  have hnumbered := h.numbered.step hstep
  have hknown := h.known
  obtain ⟨outcome, result, hphase, hdigested⟩ := does_of_step hstep
  rw [hphase] at hknown
  obtain ⟨hreports, hframed⟩ := hknown
  have hdone := h.unfinished (by simp [hphase])
  rcases hdigested with ⟨digest, hdigest, rfl⟩ | ⟨hdigest, rfl⟩
  · refine ⟨hnumbered, signals_cons h hsilent, h.canceled, h.session, fun _ => hdone, ?_⟩
    refine ⟨reports_cons hsilent hreports, ⟨hframed.frames, ?_⟩, hdigest⟩
    rw [fakes_cons hsilent]
    exact hframed.faked
  · refine ⟨hnumbered, signals_cons h hsilent, h.canceled, h.session, fun _ => hdone, ?_⟩
    change SaysSoLast _ ↔ _
    rw [behaves_cons hsilent]
    refine iff_of_false (fun hsaid => ?_) (fun hbehaves => ?_)
    · exact absurd hsaid.done (by simp [hdone])
    · -- Such signals and such a result have a digest.
      obtain ⟨hdigestible, -, hsayable⟩ := (behaves_iff h.signals hreports).1 hbehaves
      have hsome := turnDigest_isSome.2 ⟨hdigestible, hsayable.toTellable⟩
      rw [hdigest] at hsome
      cases hsome

private theorem Inv.records (h : Inv P sessionRef events s) {ledgerError : Option String}
    (hstep : Step P s (.records ledgerError) s') :
    Inv P sessionRef (.records ledgerError :: events) s' := by
  have hsilent : (Action.records ledgerError).isSilent = true := rfl
  have hnumbered := h.numbered.step hstep
  have hknown := h.known
  obtain ⟨outcome, result, digest, hphase, rfl⟩ := does_of_step hstep
  rw [hphase] at hknown
  obtain ⟨hreports, hframed, hdigest⟩ := hknown
  have hdone := h.unfinished (by simp [hphase])
  refine ⟨hnumbered, signals_cons h hsilent, h.canceled, h.session, fun _ => hdone, ?_⟩
  refine ⟨outcome, result, digest, ledgerError, rfl, reports_cons hsilent hreports, hdigest,
    ?_, s.outputs, [], rfl, hframed.frames, fun output houtput => by cases houtput⟩
  rw [fakes_cons hsilent]
  exact hframed.faked

/-- A frame that ends the turn, but is written before the outcome is recorded. -/
private theorem not_saysSoLast_of_early {before between : List Output} {outcome : Outcome}
    {digest : Text} {frame : Frame}
    (houtputs : s.outputs = before ++ .recorded outcome digest :: between)
    (hframe : .frame frame ∈ before) (hfinish : isFinish frame.kind = true) : ¬SaysSoLast s := by
  intro hsaid
  obtain ⟨before', between', outcome', digest', frame', houtputs', -, hplain⟩ := hsaid.last
  have hearly : Output.frame frame ∈ s.outputs.dropLast := by
    rw [houtputs, List.dropLast_append_of_ne_nil (by simp)]
    exact List.mem_append_left _ hframe
  rw [houtputs', ← List.cons_append, ← List.append_assoc, List.dropLast_concat,
    List.mem_append, List.mem_cons] at hearly
  have hnot : ¬(Output.frame frame).isPlain := by simp [Output.isPlain, hfinish]
  rcases hearly with hearly | hearly | hearly
  · exact hnot (hplain _ (List.mem_append_left _ hearly))
  · cases hearly
  · exact hnot (hplain _ (List.mem_append_right _ hearly))

private theorem openTurn_of_done (hdone : s.done = true) (p : Worker.Process)
    (hp : p.turns.head? = some s.asTurn) : p.openTurn = none := by
  have hphase : s.asTurn.phase = .done := by
    unfold State.asTurn
    rw [if_pos hdone]
  simp [Worker.Process.openTurn, hp, Option.filter, hphase]

private theorem Inv.finishes (h : Inv P sessionRef events s) (hstep : Step P s .finishes s') :
    Inv P sessionRef (.finishes :: events) s' := by
  have hsilent : Action.finishes.isSilent = true := rfl
  have hnumbered := h.numbered.step hstep
  have hknown := h.known
  obtain ⟨payload, hphase, hfinished⟩ := does_of_step hstep
  rw [hphase] at hknown
  obtain ⟨outcome, result, digest, ledgerError, rfl, hreports, hdigest, hfaked, before,
    between, houtputs, hframes, hplain⟩ := hknown
  have hbehaves := behaves_iff (P := P) h.signals hreports
  have hsealed := h.numbered.isSealed
  rcases emit_cases (P := P) (s := s) eventFinish
      (finishPayload outcome result digest ledgerError) with
    ⟨hrefused, hsame⟩ | ⟨hopen, hencodes, hwritten⟩
  · rw [hsame] at hfinished
    subst hfinished
    refine ⟨hnumbered, signals_cons h hsilent, h.canceled, h.session, fun hne => ?_, ?_⟩
    · exact absurd rfl hne
    · change SaysSoLast _ ↔ _
      rw [behaves_cons hsilent]
      by_cases hopen : s.emitter.isSealed = true
      · -- The runner wrote the last frame itself, before the outcome was recorded.
        refine iff_of_false ?_ fun hb => (hbehaves.1 hb).2.1 (hfaked.1 hopen)
        obtain ⟨frame, hframe, hfinish⟩ := hsealed.1 hopen
        obtain ⟨output, houtput, hwritten⟩ := List.mem_filterMap.1 hframe
        cases output with
        | recorded _ _ => cases hwritten
        | frame other =>
            obtain rfl := Option.some.inj hwritten
            rw [houtputs, List.mem_append, List.mem_cons] at houtput
            rcases houtput with houtput | houtput | houtput
            · exact not_saysSoLast_of_early houtputs houtput hfinish
            · cases houtput
            · have hnot := hplain _ houtput
              rw [Output.isPlain, hfinish] at hnot
              cases hnot
      · refine iff_of_false (fun hsaid => hopen (hsaid.isSealed hnumbered)) fun hb => ?_
        have hframed := (hbehaves.1 hb).2.2.framed
        rcases hrefused with hclosed | hraises
        · exact hopen hclosed
        · rw [encodes_finish, hframed] at hraises
          cases hraises
  · rw [hwritten] at hfinished
    subst hfinished
    refine ⟨hnumbered, signals_cons h hsilent, h.canceled, h.session, fun hne => ?_, ?_⟩
    · exact absurd rfl hne
    · change SaysSoLast _ ↔ _
      rw [behaves_cons hsilent]
      have hunsealed : ¬s.emitter.isSealed = true := by simp [hopen]
      have hlast : isFinish eventFinish = true := by decide
      refine iff_of_true ⟨rfl, ?_, openTurn_of_done rfl⟩ (hbehaves.2 ?_)
      · refine ⟨before, between, outcome, digest, ⟨s.emitter.sequence, eventFinish,
          finishPayload outcome result digest ledgerError⟩, ?_, hlast, ?_⟩
        · change s.outputs ++ [_] = _
          rw [houtputs, List.append_assoc, List.cons_append]
        · intro output houtput
          rcases List.mem_append.1 houtput with houtput | houtput
          · obtain ⟨frame, rfl⟩ := hframes output houtput
            -- An open emitter has not written a frame that ends the turn.
            refine eq_false_of_ne_true fun hfinish => hunsealed (hsealed.2 ⟨frame, ?_, hfinish⟩)
            refine List.mem_filterMap.2 ⟨.frame frame, ?_, rfl⟩
            rw [houtputs]
            exact List.mem_append_left _ houtput
          · exact hplain output houtput
      · obtain ⟨hdigestible, htellable⟩ := turnDigest_isSome.1 (by rw [hdigest]; rfl)
        rw [encodes_finish] at hencodes
        exact ⟨hdigestible, fun hfakes => hunsealed (hfaked.2 hfakes),
          ⟨htellable, hencodes⟩⟩

private theorem inv_start : Inv P sessionRef [] (.start operationId sessionRef) := by
  refine ⟨⟨rfl, ?_⟩, ?_, rfl, rfl, fun _ => rfl, ?_⟩
  · simp [State.start, framesOf]
  · simp [State.start]
  · refine ⟨?_, ?_, ?_⟩
    · simp
    · simp [OnlyFrames, State.start]
    · simp [State.start, Fakes]

private theorem Inv.step (h : Inv P sessionRef events s) {action : Action}
    (hstep : Step P s action s') : Inv P sessionRef (action :: events) s' := by
  cases action with
  | cancel => exact h.quiet rfl hstep
  | resolve _ _ => exact h.quiet rfl hstep
  | wakes => exact h.quiet rfl hstep
  | beats => exact h.quiet rfl hstep
  | emit _ _ => exact h.emit hstep
  | writes => exact h.writes hstep
  | parks _ => exact h.parks hstep
  | released _ => exact h.released hstep
  | returns _ => exact h.returns hstep
  | raises _ => exact h.raises hstep
  | judges => exact h.judges hstep
  | stops => exact h.stops hstep
  | digests => exact h.digests hstep
  | records _ => exact h.records hstep
  | finishes => exact h.finishes hstep

theorem inv_of_history (h : History (Step P) (.start operationId sessionRef) events s) :
    Inv P sessionRef events s :=
  h.induction inv_start fun hinv hstep => hinv.step hstep

/-! ## The end of the turn -/

/-- How many steps the thread of the turn has left once the runner is over. -/
def Phase.left : Phase → ℕ
  | running | emitting _ | waiting _ => 6
  | returned _ => 5
  | stopping _ => 4
  | digesting _ _ => 3
  | recording _ _ _ => 2
  | announcing _ => 1
  | ended => 0

/-- The thread of the turn never waits for another one. -/
theorem exists_step_lt (hover : s.phase.left < 6) (hphase : s.phase ≠ .ended) :
    ∃ action s', Step P s action s' ∧ s'.phase.left < s.phase.left := by
  cases h : s.phase with
  | running => simp [h, Phase.left] at hover
  | emitting signal => simp [h, Phase.left] at hover
  | waiting decisionId => simp [h, Phase.left] at hover
  | returned result =>
      exact ⟨.judges, _, by simp only [Step, step, h]; rfl, by simp [Phase.left]⟩
  | stopping ending =>
      cases ending with
      | none => exact ⟨.stops, _, by simp only [Step, step, h]; rfl, by simp [Phase.left]⟩
      | some ending => exact ⟨.stops, _, by simp only [Step, step, h]; rfl, by simp [Phase.left]⟩
  | digesting outcome result =>
      cases hdigest : turnDigest P s.signals s.sessionRef result with
      | none => exact ⟨.digests, _, by simp only [Step, step, h, hdigest]; rfl, by simp [Phase.left]⟩
      | some digest =>
          exact ⟨.digests, _, by simp only [Step, step, h, hdigest]; rfl, by simp [Phase.left]⟩
  | recording outcome result digest =>
      exact ⟨.records none, _, by simp only [Step, step, h]; rfl, by simp [Phase.left]⟩
  | announcing payload =>
      exact ⟨.finishes, _, by simp only [Step, step, h]; rfl, by simp [Phase.left]⟩
  | ended => exact absurd h hphase

/-- Nor does any other step take it back. -/
theorem step_left_le {action : Action} (hstep : Step P s action s') :
    s'.phase.left ≤ s.phase.left := by
  by_cases houtside : action.isOutside = true
  · rw [(outside_step houtside hstep).1.phase]
  · unfold Step step at hstep
    split at hstep
    case h_7 decisionId hphase =>
      obtain ⟨gates, choices, phase, hpark, hwhere⟩ := park_eq (s := s) decisionId
      obtain rfl := Option.some.inj hstep
      rw [hpark]
      rcases hwhere with rfl | rfl
      · exact le_rfl
      · rw [hphase]
        exact le_rfl
    all_goals
      first
      | exact absurd rfl houtside
      | (rename_i hphase
         obtain rfl := Option.some.inj hstep
         simp [hphase, Phase.left, State.remember])
      | (rename_i hphase
         split at hstep <;> cases hstep <;> simp [hphase, Phase.left, State.unpark])
      | cases hstep

/-- The frames of a turn are numbered without a gap.  Once the runner is over, the thread of the
turn goes on to its end, and there the turn is done and says so last exactly when the runner
behaved. -/
theorem says_so_last_iff (h : History (Step P) (.start operationId sessionRef) events s) :
    (framesOf s.outputs).map Frame.sequence = List.range (framesOf s.outputs).length ∧
    (s.phase.left < 6 → s.phase ≠ .ended →
      ∃ action s', Step P s action s' ∧ s'.phase.left < s.phase.left) ∧
    (∀ action s', Step P s action s' → s'.phase.left ≤ s.phase.left) ∧
    (s.phase = .ended → (SaysSoLast s ↔ Behaves P sessionRef events)) := by
  have hinv := inv_of_history h
  refine ⟨?_, exists_step_lt, fun _ _ => step_left_le, fun hended => ?_⟩
  · have hsequences := hinv.numbered.sequences
    have hlength := congrArg List.length hsequences
    rw [List.length_map, List.length_range] at hlength
    rw [hsequences, hlength]
  · have hknown := hinv.known
    rw [hended, Known, hinv.session] at hknown
    exact hknown

/-! ## Two turns -/

/-- A turn is run by these actions, the latest first. -/
def runTurn (P : Platform) (start : State) : List Action → Option State
  | [] => some start
  | action :: earlier => do step P (← runTurn P start earlier) action

theorem history_runTurn {start : State} {actions : List Action}
    (h : runTurn P start actions = some s) : History (Step P) start actions s := by
  induction actions generalizing s with
  | nil =>
      obtain rfl := Option.some.inj h
      exact .nil
  | cons action earlier ih =>
      simp only [runTurn, Option.bind_eq_bind, Option.bind_eq_some_iff] at h
      obtain ⟨m, hearlier, hstep⟩ := h
      exact (ih hearlier).cons hstep

/-- The limits of a process by default, and a digest of the right length. -/
def plainPlatform : Platform where
  limits := ⟨4300, 1000⟩
  wide := by decide
  deep := by decide
  sha256 := fun _ => List.replicate 64 'a'

def plainOperation : OperationId := ⟨"turn-1".toList, by decide⟩

/-- The result of a runner that answered. -/
def answer (finalResponse : Str) : Fields :=
  fieldsOf [("session_ref", .str (lit "s-1")), ("final_response", .str finalResponse),
    ("canceled", .bool false), ("failed", .bool false)]

def answering (finalResponse : Str) : List Action :=
  [.digests, .stops, .judges, .returns (answer finalResponse)]

/-- A turn that signals a tool and answers. -/
def plainTurn : List Action :=
  [.finishes, .records none] ++ answering (lit "done") ++
    [.writes, .emit toolStarted (fieldsOf [("tool_name", .str (lit "search"))])]

def plainEnd : State :=
  (runTurn plainPlatform (.start plainOperation (lit "s-1")) plainTurn).getD
    (.start plainOperation [])

private theorem runTurn_plainTurn :
    runTurn plainPlatform (.start plainOperation (lit "s-1")) plainTurn = some plainEnd := by
  have hsome : (runTurn plainPlatform (.start plainOperation (lit "s-1")) plainTurn).isSome =
      true := by decide +kernel
  obtain ⟨last, hlast⟩ := Option.isSome_iff_exists.1 hsome
  rw [plainEnd, hlast, Option.getD_some]

private theorem ended_of_left (h : s.phase.left = 0) : s.phase = .ended := by
  cases hphase : s.phase <;> simp_all [Phase.left]

theorem says_so_last_iff_plainTurn :
    SaysSoLast plainEnd ↔ Behaves plainPlatform (lit "s-1") plainTurn :=
  (says_so_last_iff (history_runTurn runTurn_plainTurn)).2.2.2
    (ended_of_left (by decide +kernel))

/-- The answer of a model that ends in half of a surrogate pair. -/
def surrogate : Str := [⟨0xD83D, by decide⟩]

/-- A turn that answers with half of a surrogate pair never is done. -/
theorem surrogate_never_done :
    ¬∀ (P : Platform) (operationId : OperationId) (sessionRef : Str) (events : List Action)
      (s : State), History (Step P) (.start operationId sessionRef) events s →
      s.phase = .ended → SaysSoLast s := by
  intro h
  have hsome : (runTurn plainPlatform (.start plainOperation (lit "s-1"))
      (answering surrogate)).isSome = true := by decide +kernel
  obtain ⟨last, hlast⟩ := Option.isSome_iff_exists.1 hsome
  have hends : (runTurn plainPlatform (.start plainOperation (lit "s-1"))
      (answering surrogate)).map (fun s => (s.phase.left, s.done)) = some (0, false) := by
    decide +kernel
  rw [hlast, Option.map_some, Option.some.injEq, Prod.mk.injEq] at hends
  have hsaid := h _ _ _ _ last (history_runTurn hlast) (ended_of_left hends.1)
  rw [hsaid.done] at hends
  exact absurd hends.2 (by decide)

end Cortex.Turn
