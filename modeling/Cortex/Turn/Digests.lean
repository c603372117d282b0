import Cortex.Control.Errors
import Cortex.Library.PyValue
import Cortex.Library.Transaction

/-!
# The digest of a turn

What a runner signals and returns becomes a stream of durable events, each
reduced to the fields that both sides can see.  The digest of the turn is taken
over the canonical JSON of that stream.  `Digestible` and `Sayable` say of a
signal and of a result when there is such a JSON.
-/

namespace Cortex.Turn

open Py
open Control (Text)
open Transaction

/-- The limits of the process, and SHA-256 over the canonical JSON of a document. -/
structure Platform where
  limits : JsonLimits
  wide : 0 < limits.digits
  /-- The documents of this module nest less. -/
  deep : 8 ≤ limits.depth
  sha256 : Value → Text

/-- A callback of the runner: its kind and its fields. -/
structure Signal where
  kind : Value
  fields : Fields

inductive EventType
  | runStarted | toolStarted | toolCompleted | decisionRequired | sessionRebound
  | messageCompleted | runCompleted | runFailed | runCanceled
  deriving DecidableEq

def EventType.text : EventType → String
  | runStarted => "runtime.run.started"
  | toolStarted => "runtime.tool.started"
  | toolCompleted => "runtime.tool.completed"
  | decisionRequired => "runtime.decision.required"
  | sessionRebound => "runtime.session_rebound"
  | messageCompleted => "runtime.message.completed"
  | runCompleted => "runtime.run.completed"
  | runFailed => "runtime.run.failed"
  | runCanceled => "runtime.run.canceled"

def toolStarted : Value := .str (lit "tool.started")

def toolCompleted : Value := .str (lit "tool.completed")

def decisionRequired : Value := .str (lit "decision.required")

def decisionOptions : List Value := [.str (lit "approve_once"), .str (lit "deny")]

def defaultDecisionPrompt : Str := lit "Runtime approval required"

/-! ## Reading fields -/

/-- `_text`. -/
def textOf : Option Value → Str
  | some (.str text) => text
  | _ => []

/-- `_optional_text`. -/
def optionalText : Option Value → Option Str
  | some (.str text) => if text = [] then none else some text
  | _ => none

/-- `_optional_int`, as the value it puts into the document. -/
def optionalInt : Option Value → Value
  | some (.int value) => .int value
  | _ => .none

/-- `bool(fields.get(name, False))`. -/
def flag (fields : Fields) (name : String) : Option Bool :=
  match fields.get? (lit name) with
  | some value => value.truth
  | none => some false

/-- `_text(value or default)`. -/
def textOr (value : Option Value) (default : Option Str) : Option Str :=
  match value with
  | none => default
  | some value => do
      if ← value.truth then pure (textOf (some value)) else default

def optionIdentity : Value → Str
  | .dict fields => textOf (Fields.get? fields (lit "id"))
  | option => textOf (some option)

/-- `_options`. -/
def optionIdentities : Option Value → List Str
  | some (.seq _ options) => options.map optionIdentity
  | _ => []

/-! ## The stream -/

/-- An event of the stream, with its payload. -/
abbrev DurableEvent := EventType × Fields

/-- `project_event`; nothing where it raises. -/
def projectEvent (type : EventType) (fields : Fields) : Option (List (String × Value)) :=
  let text := fun name => Value.str (textOf (fields.get? (lit name)))
  match type with
  | .runStarted => some []
  | .toolStarted => some [("tool_call_id", text "tool_call_id"), ("tool_name", text "tool_name")]
  | .toolCompleted => do
      let isError ← flag fields "is_error"
      pure [("tool_call_id", text "tool_call_id"), ("tool_name", text "tool_name"),
        ("is_error", .bool isError),
        ("duration_ms", optionalInt (fields.get? (lit "duration_ms")))]
  | .decisionRequired => do
      let kind ← textOr (fields.get? (lit "kind"))
        (textOr (fields.get? (lit "decision_kind")) (some (lit "approval")))
      let prompt ← textOr (fields.get? (lit "prompt")) (some defaultDecisionPrompt)
      let options := optionIdentities (fields.get? (lit "options"))
      pure [("kind", .str kind), ("prompt", .str prompt),
        ("options", .seq false (options.map Value.str))]
  | .sessionRebound =>
      let parent := optionalText (fields.get? (lit "parent_runtime_session_ref"))
      some [("runtime_session_ref", text "runtime_session_ref"),
        ("parent_runtime_session_ref", (parent.map Value.str).getD .none)]
  | .messageCompleted => some [("content", text "content")]
  | .runCompleted => terminal "runtime_completed"
  | .runFailed => terminal "runtime_failed"
  | .runCanceled => terminal "runtime_canceled"
where
  terminal (defaultCategory : String) : Option (List (String × Value)) := do
    let category ← textOr (fields.get? (lit "category")) (some (lit defaultCategory))
    let retryable ← flag fields "retryable"
    pure [("category", .str (category.take 100)), ("retryable", .bool retryable)]

attribute [grind =] projectEvent

/-- `_DURABLE_SIGNALS`. -/
def durableSignal : Value → Option EventType
  | .str text =>
      if text = lit "tool.started" then some .toolStarted
      else if text = lit "tool.completed" then some .toolCompleted
      else if text = lit "decision.required" then some .decisionRequired
      else none
  | _ => none

/-- `signal_event_type`; looking up a kind that cannot be hashed raises. -/
def signalEventType (kind : Value) : Option (Option EventType) :=
  if kind.hashable then some (durableSignal kind) else none

/-- The payload of a decision: the adapter's options, and defaults for what it asks. -/
def decisionPayload (fields : Fields) : List (String × Value) :=
  [("decision_id", (fields.get? (lit "decision_id")).getD .none),
    ("kind", (fields.get? (lit "decision_kind")).getD (.str (lit "approval"))),
    ("prompt", (fields.get? (lit "prompt")).getD (.str defaultDecisionPrompt)),
    ("command", (fields.get? (lit "command")).getD .none),
    ("description", (fields.get? (lit "description")).getD .none),
    ("options", .seq false decisionOptions),
    ("revision", .int 0)]

/-- `signal_event_payload`. -/
def signalEventPayload (signal : Signal) : Fields :=
  match signal.kind with
  | .str text =>
      if text = lit "decision.required" then fieldsOf (decisionPayload signal.fields)
      else signal.fields
  | _ => signal.fields

/-- The durable events of the signals. -/
def signalEvents : List Signal → Option (List DurableEvent)
  | [] => some []
  | signal :: signals => do
      let type ← signalEventType signal.kind
      let events ← signalEvents signals
      match type with
      | some type => pure ((type, signalEventPayload signal) :: events)
      | none => pure events

/-- The event of a session that is not the one the turn was begun with. -/
def reboundEvents (sessionRef finalRef : Str) : List DurableEvent :=
  if finalRef = sessionRef then []
  else [(.sessionRebound, fieldsOf [("runtime_session_ref", .str finalRef),
    ("parent_runtime_session_ref", .str sessionRef)])]

def messageEvents (canceled failed : Bool) : Option Str → List DurableEvent
  | some content =>
      if canceled || failed then []
      else [(.messageCompleted, fieldsOf [("content", .str content)])]
  | none => []

def lastEvent (canceled failed : Bool) : DurableEvent :=
  if canceled then (.runCanceled, [])
  else if failed then
    (.runFailed, fieldsOf [("category", .str (lit "runtime_execution_failed")),
      ("retryable", .bool true)])
  else (.runCompleted, [])

/-- The end of the stream, from the result. -/
def resultEvents (sessionRef : Str) (result : Fields) : Option (List DurableEvent) := do
  let resultRef := textOf (result.get? (lit "session_ref"))
  let finalRef := if resultRef = [] then sessionRef else resultRef
  let canceled ← flag result "canceled"
  let failed ← flag result "failed"
  let finalResponse := optionalText (result.get? (lit "final_response"))
  pure (reboundEvents sessionRef finalRef ++ messageEvents canceled failed finalResponse ++
    [lastEvent canceled failed])

/-- `turn_durable_stream`. -/
def turnDurableStream (signals : List Signal) (sessionRef : Str) (result : Fields) :
    Option (List DurableEvent) := do
  let events ← signalEvents signals
  let rest ← resultEvents sessionRef result
  pure ((.runStarted, []) :: (events ++ rest))

section Digest

variable (P : Platform)

/-- `canonical_json` can encode the document. -/
def canonicalWrites (document : Value) : Bool :=
  JsonOptions.writes ⟨false, false⟩ P.limits.digits P.limits.depth document

/-- `digest_document`. -/
def digestDocument (document : Value) : Option Text :=
  if canonicalWrites P document then some (P.sha256 document) else none

def projectedEvent (event : DurableEvent) : Option Value := do
  let fields ← projectEvent event.1 event.2
  pure (.dict (fieldsOf [("type", .str (lit event.1.text)), ("fields", .dict (fieldsOf fields))]))

/-- `result_digest`; nothing where it raises. -/
def resultDigest (events : List DurableEvent) : Option Text := do
  let projected ← events.mapM projectedEvent
  digestDocument P (.dict (fieldsOf [("projection_version", .int 1),
    ("events", .seq false projected)]))

/-- The digest that `_body` takes. -/
def turnDigest (signals : List Signal) (sessionRef : Str) (result : Fields) : Option Text := do
  let stream ← turnDurableStream signals sessionRef result
  resultDigest P stream

end Digest

/-! ## What can be digested -/

/-- The text that the digest reads from the value. -/
def Clean (value : Option Value) : Prop := (textOf value).IsUtf8

def HasTruth (value : Option Value) : Prop := ∀ v ∈ value, v.truth.isSome = true

section Conditions

variable (P : Platform)

/-- An integer that the digest reads from the value is not too long. -/
def Short (value : Option Value) : Prop :=
  ∀ n, value = some (.int n) → n.natAbs < 10 ^ P.limits.digits

/-- The digest can take up the signal. -/
structure Digestible (signal : Signal) : Prop where
  hashable : signal.kind.hashable = true
  named : signal.kind = toolStarted ∨ signal.kind = toolCompleted →
    Clean (signal.fields.get? (lit "tool_call_id")) ∧
      Clean (signal.fields.get? (lit "tool_name"))
  completed : signal.kind = toolCompleted →
    HasTruth (signal.fields.get? (lit "is_error")) ∧
      Short P (signal.fields.get? (lit "duration_ms"))
  asked : signal.kind = decisionRequired → ∀ name ∈ ["decision_kind", "prompt"],
    HasTruth (signal.fields.get? (lit name)) ∧ Clean (signal.fields.get? (lit name))

/-- The digest can take up the result. -/
structure Tellable (sessionRef : Str) (result : Fields) : Prop where
  canceled : HasTruth (result.get? (lit "canceled"))
  failed : HasTruth (result.get? (lit "failed"))
  rebound : textOf (result.get? (lit "session_ref")) ≠ [] →
    textOf (result.get? (lit "session_ref")) ≠ sessionRef →
      Clean (result.get? (lit "session_ref")) ∧ sessionRef.IsUtf8
  answered : flag result "canceled" = some false → flag result "failed" = some false →
    Clean (result.get? (lit "final_response"))

end Conditions

section Writing

variable {P : Platform} {depth : ℕ} {fields : Fields} {signals : List Signal} {sessionRef : Str}
  {result : Fields}

/-- The fields of the event can be written, with so much nesting left. -/
def Writes (P : Platform) (depth : ℕ) (event : DurableEvent) : Prop :=
  ∃ fields, projectEvent event.1 event.2 = some fields ∧
    (fields.all fun field =>
      JsonOptions.writes ⟨false, false⟩ P.limits.digits (depth + 1) field.2) = true

private theorem mapM_writes (events : List DurableEvent) :
    (∃ projected, events.mapM projectedEvent = some projected ∧
        ∀ value ∈ projected,
          JsonOptions.writes ⟨false, false⟩ P.limits.digits (depth + 3) value = true) ↔
      ∀ event ∈ events, Writes P depth event := by
  induction events with
  | nil => simp
  | cons event events ih =>
      rw [List.forall_mem_cons, ← ih, List.mapM_cons]
      simp only [Writes, projectedEvent]
      cases projectEvent event.1 event.2 with
      | none => simp
      | some fields =>
          cases events.mapM projectedEvent with
          | none => simp
          | some projected =>
              simp [isUtf8_lit]

theorem resultDigest_isSome (hdepth : P.limits.depth = depth + 5) (events : List DurableEvent) :
    (resultDigest P events).isSome = true ↔ ∀ event ∈ events, Writes P depth event := by
  rw [← mapM_writes, resultDigest]
  cases events.mapM projectedEvent with
  | none => simp
  | some projected =>
      have hversion : 1 < 10 ^ P.limits.digits := Nat.one_lt_pow P.wide.ne' (by decide)
      simp [digestDocument, canonicalWrites, hdepth, hversion]

/-! ### One event -/

private theorem clean_lit (text : String) : Clean (some (.str (lit text))) := isUtf8_lit text

/-- The default text is written, and so is every text that can be asked for. -/
private theorem textOr_writes (value : Option Value) (default : String) :
    (∃ text, textOr value (some (lit default)) = some text ∧ text.IsUtf8) ↔
      HasTruth value ∧ Clean value := by
  cases value with
  | none => simp [textOr, HasTruth, Clean, textOf, isUtf8_lit]
  | some value =>
      cases htruth : value.truth with
      | none => simp [textOr, HasTruth, htruth]
      | some truth =>
          cases truth with
          | true => simp [textOr, HasTruth, htruth, Clean]
          | false =>
              have hempty : textOf (some value) = [] := by
                cases value <;> simp_all [Value.truth, textOf]
              simp [textOr, HasTruth, htruth, Clean, hempty, isUtf8_lit]

private theorem optionalInt_writes (depth : ℕ) (value : Option Value) :
    JsonOptions.writes ⟨false, false⟩ P.limits.digits (depth + 1) (optionalInt value) = true ↔
      Short P value := by
  rcases value with - | value
  · simp [optionalInt, Short]
  · cases value <;> simp [optionalInt, Short]

theorem flag_isSome (name : String) :
    (∃ truth, flag fields name = some truth) ↔ HasTruth (fields.get? (lit name)) := by
  unfold flag HasTruth
  cases fields.get? (lit name) with
  | none => simp
  | some value => simp [Option.isSome_iff_exists]

theorem writes_toolStarted :
    Writes P depth (.toolStarted, fields) ↔
      Clean (fields.get? (lit "tool_call_id")) ∧ Clean (fields.get? (lit "tool_name")) := by
  simp [Writes, projectEvent, Clean, -List.all_eq_true]

theorem writes_toolCompleted :
    Writes P depth (.toolCompleted, fields) ↔
      (Clean (fields.get? (lit "tool_call_id")) ∧ Clean (fields.get? (lit "tool_name"))) ∧
        HasTruth (fields.get? (lit "is_error")) ∧
        Short P (fields.get? (lit "duration_ms")) := by
  rw [← flag_isSome, ← optionalInt_writes depth]
  cases hflag : flag fields "is_error" with
  | none => simp [Writes, projectEvent, hflag]
  | some isError => simp [Writes, projectEvent, hflag, Clean, and_assoc, -List.all_eq_true]

private theorem getD_writes (value : Option Value) (default : String) :
    (∃ text, textOr (some (value.getD (.str (lit default)))) (some (lit default)) = some text ∧
        text.IsUtf8) ↔ HasTruth value ∧ Clean value := by
  rw [textOr_writes]
  cases value with
  | none =>
      refine ⟨fun _ => ⟨by simp [HasTruth], by simp [Clean, textOf]⟩, fun _ => ⟨?_, ?_⟩⟩
      · simp [HasTruth, Value.truth]
      · exact clean_lit default
  | some value => rfl

theorem writes_decisionRequired {signal : Signal} (hkind : signal.kind = decisionRequired) :
    Writes P depth (.decisionRequired, signalEventPayload signal) ↔
      ∀ name ∈ ["decision_kind", "prompt"],
        HasTruth (signal.fields.get? (lit name)) ∧ Clean (signal.fields.get? (lit name)) := by
  have hkinds := getD_writes (signal.fields.get? (lit "decision_kind")) "approval"
  have hprompts := getD_writes (signal.fields.get? (lit "prompt")) "Runtime approval required"
  rw [List.forall_mem_cons, List.forall_mem_singleton, ← hkinds, ← hprompts]
  have hpayload : signalEventPayload signal = fieldsOf (decisionPayload signal.fields) := by
    simp only [signalEventPayload, hkind, decisionRequired, if_true]
  have hkindOf : Fields.get? (signalEventPayload signal) (lit "kind") =
      some ((signal.fields.get? (lit "decision_kind")).getD (.str (lit "approval"))) := by
    rw [hpayload, decisionPayload, Fields.get?_fieldsOf_cons, if_neg (by decide), Fields.get?_fieldsOf_cons, if_pos rfl]
  have hpromptOf : Fields.get? (signalEventPayload signal) (lit "prompt") =
      some ((signal.fields.get? (lit "prompt")).getD (.str defaultDecisionPrompt)) := by
    rw [hpayload, decisionPayload, Fields.get?_fieldsOf_cons, if_neg (by decide), Fields.get?_fieldsOf_cons, if_neg (by decide),
      Fields.get?_fieldsOf_cons, if_pos rfl]
  have holdKind : Fields.get? (signalEventPayload signal) (lit "decision_kind") = none := by
    rw [hpayload, decisionPayload]
    simp only [Fields.get?_fieldsOf_cons]
    repeat rw [if_neg (by decide)]
    rfl
  have hoptions : Fields.get? (signalEventPayload signal) (lit "options") =
      some (.seq false decisionOptions) := by
    rw [hpayload, decisionPayload]
    simp only [Fields.get?_fieldsOf_cons]
    repeat rw [if_neg (by decide)]
    exact if_pos trivial
  have hidentities : (optionIdentities (some (.seq false decisionOptions))).map Value.str =
      decisionOptions := rfl
  simp only [Writes, projectEvent, hkindOf, hpromptOf, holdKind, hoptions, hidentities]
  have hdefault : textOr none (some (lit "approval")) = some (lit "approval") := rfl
  rw [hdefault, defaultDecisionPrompt]
  cases textOr (some ((signal.fields.get? (lit "decision_kind")).getD (.str (lit "approval"))))
      (some (lit "approval")) with
  | none => simp
  | some kind =>
      cases textOr (some ((signal.fields.get? (lit "prompt")).getD
          (.str (lit "Runtime approval required")))) (some (lit "Runtime approval required")) with
      | none => simp
      | some prompt => simp [decisionOptions, isUtf8_lit, -List.all_eq_true]

private theorem reboundEvents_writes (finalRef : Str) :
    (∀ event ∈ reboundEvents sessionRef finalRef, Writes P depth event) ↔
      (finalRef ≠ sessionRef → finalRef.IsUtf8 ∧ sessionRef.IsUtf8) := by
  have hne : lit "runtime_session_ref" ≠ lit "parent_runtime_session_ref" := by decide
  unfold reboundEvents
  by_cases hsame : finalRef = sessionRef
  · simp [hsame]
  · rw [if_neg hsame, List.forall_mem_singleton]
    by_cases hparent : sessionRef = []
    · simp [Writes, projectEvent, Fields.get?_fieldsOf_cons, hne, textOf, optionalText, hparent,
        -List.all_eq_true]
      exact .inl fun hempty => hsame (hempty.trans hparent.symm)
    · simp [Writes, projectEvent, Fields.get?_fieldsOf_cons, hne, textOf, optionalText, hparent, hsame,
        -List.all_eq_true]

private theorem messageEvents_writes (canceled failed : Bool) (answer : Option Str) :
    (∀ event ∈ messageEvents canceled failed answer, Writes P depth event) ↔
      (canceled = false → failed = false → ∀ content, answer = some content →
        content.IsUtf8) := by
  cases answer with
  | none => simp [messageEvents]
  | some content =>
      cases canceled <;> cases failed <;>
        simp [messageEvents, Writes, projectEvent, Fields.get?_fieldsOf_cons, textOf,
          -List.all_eq_true]

private theorem writes_runStarted : Writes P depth (.runStarted, []) := by
  simp [Writes, projectEvent]

private theorem terminal_writes (default : String)
    (hcategory : HasTruth (fields.get? (lit "category")) ∧ Clean (fields.get? (lit "category")))
    (hretryable : HasTruth (fields.get? (lit "retryable"))) :
    ∃ projected, projectEvent.terminal fields default = some projected ∧
      (projected.all fun field =>
        JsonOptions.writes ⟨false, false⟩ P.limits.digits (depth + 1) field.2) = true := by
  obtain ⟨category, hcategory, hutf8⟩ := (textOr_writes _ default).2 hcategory
  obtain ⟨retryable, hretryable⟩ := (flag_isSome "retryable").2 hretryable
  have htake : Str.IsUtf8 (category.take 100) := fun c hc => hutf8 c (List.mem_of_mem_take hc)
  refine ⟨_, by simp only [projectEvent.terminal, hcategory, hretryable]; rfl, ?_⟩
  simp [htake, -List.all_eq_true]

/-- The texts of the last event are those of the source. -/
private theorem writes_lastEvent (canceled failed : Bool) :
    Writes P depth (lastEvent canceled failed) := by
  have hnone : HasTruth none ∧ Clean none := by simp [HasTruth, Clean, textOf]
  cases canceled with
  | true => exact terminal_writes "runtime_canceled" hnone hnone.1
  | false =>
      cases failed with
      | false => exact terminal_writes "runtime_completed" hnone hnone.1
      | true =>
          rw [lastEvent, if_neg (by decide), if_pos rfl]
          refine terminal_writes "runtime_failed" ?_ ?_
          · rw [Fields.get?_fieldsOf_cons, if_pos rfl]
            exact ⟨by simp [HasTruth, Value.truth], clean_lit _⟩
          · rw [Fields.get?_fieldsOf_cons, if_neg (by decide), Fields.get?_fieldsOf_cons, if_pos rfl]
            simp [HasTruth, Value.truth]

private theorem clean_iff_optionalText {value : Option Value} :
    Clean value ↔ ∀ content, optionalText value = some content → content.IsUtf8 := by
  unfold Clean textOf optionalText
  split
  · rename_i text
    by_cases htext : text = []
    · simp [htext]
    · simp [htext]
  · simp

private theorem resultEvents_writes (depth : ℕ) :
    (∃ events, resultEvents sessionRef result = some events ∧
        ∀ event ∈ events, Writes P depth event) ↔ Tellable sessionRef result := by
  constructor
  · rintro ⟨events, hevents, hwrites⟩
    simp only [resultEvents, Option.bind_eq_bind, Option.bind_eq_some_iff, Option.pure_def,
      Option.some.injEq] at hevents
    obtain ⟨canceled, hcanceled, failed, hfailed, rfl⟩ := hevents
    rw [List.forall_mem_append, List.forall_mem_append, reboundEvents_writes,
      messageEvents_writes] at hwrites
    obtain ⟨⟨hrebound, hmessage⟩, -⟩ := hwrites
    refine ⟨(flag_isSome _).1 ⟨_, hcanceled⟩, (flag_isSome _).1 ⟨_, hfailed⟩, ?_, ?_⟩
    · intro hne hother
      rw [if_neg hne] at hrebound
      exact hrebound hother
    · intro hnot hnotFailed
      rw [hcanceled, Option.some.injEq] at hnot
      rw [hfailed, Option.some.injEq] at hnotFailed
      exact clean_iff_optionalText.2 (hmessage hnot hnotFailed)
  · intro h
    obtain ⟨canceled, hcanceled⟩ := (flag_isSome "canceled").2 h.canceled
    obtain ⟨failed, hfailed⟩ := (flag_isSome "failed").2 h.failed
    refine ⟨_, by simp only [resultEvents, hcanceled, hfailed]; rfl, ?_⟩
    rw [List.forall_mem_append, List.forall_mem_append, reboundEvents_writes,
      messageEvents_writes, List.forall_mem_singleton]
    refine ⟨⟨?_, ?_⟩, writes_lastEvent _ _⟩
    · intro hother
      by_cases hempty : textOf (result.get? (lit "session_ref")) = []
      · rw [if_pos hempty] at hother
        exact absurd rfl hother
      · rw [if_neg hempty] at hother ⊢
        exact h.rebound hempty hother
    · rintro rfl rfl
      exact clean_iff_optionalText.1 (h.answered hcanceled hfailed)

/-! ### All signals -/

private theorem durableSignal_eq_none {kind : Value} (hstarted : kind ≠ toolStarted)
    (hcompleted : kind ≠ toolCompleted) (hasked : kind ≠ decisionRequired) :
    durableSignal kind = none := by
  cases kind with
  | str text =>
      have htext : ∀ {other : String}, Value.str text ≠ .str (lit other) → text ≠ lit other :=
        fun hne h => hne (congrArg Value.str h)
      rw [durableSignal, if_neg (htext hstarted), if_neg (htext hcompleted),
        if_neg (htext hasked)]
  | _ => rfl

private theorem signalEventPayload_eq {signal : Signal} (h : signal.kind ≠ decisionRequired) :
    signalEventPayload signal = signal.fields := by
  unfold signalEventPayload
  split
  · rename_i text hkind
    rw [hkind] at h
    exact if_neg fun htext => h (congrArg Value.str htext)
  · rfl

private theorem digestible_iff (depth : ℕ) (signal : Signal) :
    Digestible P signal ↔
      ∃ type, signalEventType signal.kind = some type ∧
        ∀ t ∈ type, Writes P depth (t, signalEventPayload signal) := by
  have hstartedCompleted : toolStarted ≠ toolCompleted := by
    simp only [toolStarted, toolCompleted, ne_eq, Value.str.injEq]
    decide
  have hstartedAsked : toolStarted ≠ decisionRequired := by
    simp only [toolStarted, decisionRequired, ne_eq, Value.str.injEq]
    decide
  have hcompletedAsked : toolCompleted ≠ decisionRequired := by
    simp only [toolCompleted, decisionRequired, ne_eq, Value.str.injEq]
    decide
  unfold signalEventType
  by_cases hhashable : signal.kind.hashable = true
  · simp only [if_pos hhashable, Option.some.injEq, exists_eq_left']
    by_cases hstarted : signal.kind = toolStarted
    · have htype : durableSignal signal.kind = some .toolStarted := by
        rw [hstarted]
        decide
      simp only [htype, Option.mem_def, Option.some.injEq, forall_eq']
      rw [signalEventPayload_eq (by rw [hstarted]; exact hstartedAsked), writes_toolStarted]
      refine ⟨fun h => h.named (.inl hstarted), fun h => ⟨hhashable, fun _ => h, ?_, ?_⟩⟩
      · intro hkind
        exact absurd (hstarted.symm.trans hkind) hstartedCompleted
      · intro hkind
        exact absurd (hstarted.symm.trans hkind) hstartedAsked
    · by_cases hcompleted : signal.kind = toolCompleted
      · have htype : durableSignal signal.kind = some .toolCompleted := by
          rw [hcompleted]
          decide
        simp only [htype, Option.mem_def, Option.some.injEq, forall_eq']
        rw [signalEventPayload_eq (by rw [hcompleted]; exact hcompletedAsked),
          writes_toolCompleted]
        refine ⟨fun h => ⟨h.named (.inr hcompleted), h.completed hcompleted⟩,
          fun h => ⟨hhashable, fun _ => h.1, fun _ => h.2, ?_⟩⟩
        intro hkind
        exact absurd (hcompleted.symm.trans hkind) hcompletedAsked
      · by_cases hasked : signal.kind = decisionRequired
        · have htype : durableSignal signal.kind = some .decisionRequired := by
            rw [hasked]
            decide
          simp only [htype, Option.mem_def, Option.some.injEq, forall_eq']
          rw [writes_decisionRequired hasked]
          refine ⟨fun h => h.asked hasked, fun h => ⟨hhashable, ?_, ?_, fun _ => h⟩⟩
          · rintro (hkind | hkind)
            · exact absurd hkind hstarted
            · exact absurd hkind hcompleted
          · intro hkind
            exact absurd hkind hcompleted
        · rw [durableSignal_eq_none hstarted hcompleted hasked]
          refine ⟨fun _ t ht => (by cases ht), fun _ => ⟨hhashable, ?_, ?_, ?_⟩⟩
          · rintro (hkind | hkind)
            · exact absurd hkind hstarted
            · exact absurd hkind hcompleted
          · intro hkind
            exact absurd hkind hcompleted
          · intro hkind
            exact absurd hkind hasked
  · constructor
    · intro h
      exact absurd h.hashable hhashable
    · rintro ⟨type, htype, -⟩
      rw [if_neg hhashable] at htype
      cases htype

private theorem signalEvents_writes (depth : ℕ) (signals : List Signal) :
    (∃ events, signalEvents signals = some events ∧ ∀ event ∈ events, Writes P depth event) ↔
      ∀ signal ∈ signals, Digestible P signal := by
  induction signals with
  | nil => simp [signalEvents]
  | cons signal signals ih =>
      rw [List.forall_mem_cons, ← ih, digestible_iff depth, signalEvents]
      cases signalEventType signal.kind with
      | none => simp
      | some type =>
          cases signalEvents signals with
          | none => simp
          | some events => cases type <;> simp [-Prod.forall]

/-- The digest of a turn can be taken exactly of such signals and such a result. -/
theorem turnDigest_isSome :
    (turnDigest P signals sessionRef result).isSome = true ↔
      (∀ signal ∈ signals, Digestible P signal) ∧ Tellable sessionRef result := by
  obtain ⟨depth, hdepth⟩ : ∃ depth, P.limits.depth = depth + 5 :=
    ⟨P.limits.depth - 5, by have := P.deep; omega⟩
  rw [← signalEvents_writes depth signals, ← resultEvents_writes (P := P) depth]
  unfold turnDigest turnDurableStream
  cases signalEvents signals with
  | none => simp
  | some events =>
      cases resultEvents sessionRef result with
      | none => simp
      | some rest =>
          have hdigest := resultDigest_isSome hdepth ((.runStarted, []) :: (events ++ rest))
          rw [List.forall_mem_cons, List.forall_mem_append] at hdigest
          simpa [writes_runStarted] using hdigest

end Writing

end Cortex.Turn
