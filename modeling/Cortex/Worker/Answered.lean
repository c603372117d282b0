import Cortex.Worker.Line
import Cortex.Worker.OneRun

/-!
# Which lines are answered

`Escapes` names the lines that raise out of the loop: JSON that nests too deep for
the peek, an integer of too many digits, a value that cannot be hashed or encoded
where a check looks it up, a measurement that fails in another way than a mismatch,
and a `telegram.send` whose operation id only the transport admits and that is
refused before the transport takes it.  Every other line is answered once, under its
own request id; the transport runs one call at a time, and each of its calls is
answered once.
-/

namespace Cortex.Worker

open Py Transaction
open Control (Text)
open OperationLedger (Bytes Checked checked isOperationId asciiPlatform)

variable {P : OperationLedger.Platform} {R : Reader} {line : Bytes} {s : Machine} {p : Process}
  {busy : Bool} {readings : LoopReadings} {params : Fields} {method : Method}

/-! ## What raises -/

section Raises

variable {α β ε : Type}

private theorem bind_eq_error {x : Except ε α} {f : α → Except ε β} {error : ε} :
    (x >>= f) = .error error ↔ x = .error error ∨ ∃ a, x = .ok a ∧ f a = .error error := by
  cases x with
  | error other => simp [bind, Except.bind]
  | ok a => simp [bind, Except.bind]

private theorem require_eq_error {q : Prop} [Decidable q] {raised error : ε} :
    require q raised = .error error ↔ ¬q ∧ raised = error := by
  unfold require
  split <;> simp_all

private theorem orRaise_eq_error {value : Option α} {raised error : ε} :
    orRaise value raised = .error error ↔ value = none ∧ raised = error := by
  cases value <;> simp [orRaise]

private theorem throw_eq_error {raised error : ε} :
    (throw raised : Except ε α) = .error error ↔ raised = error := by
  change Except.error raised = _ ↔ _
  rw [Except.error.injEq]

end Raises

/-- The fields name an operation of the ledger. -/
def NamesOperation (params : Fields) : Prop :=
  ∃ text, strOf (params.get? (lit "operation_id")) = some text ∧ isOperationId (toText text) = true

private theorem checkedField_eq_ok {check : Text → Bool} {name : String} {value : Checked check} :
    checkedField check params name = .ok value ↔
      ∃ text, strOf (params.get? (lit name)) = some text ∧
        checked check (toText text) = some value := by
  simp only [checkedField, bind_eq_ok, orRaise_eq_ok]

private theorem checkedField_ne_other {check : Text → Bool} {name : String} :
    checkedField check params name ≠ .error .other := by
  intro h
  simp only [checkedField, bind_eq_error, orRaise_eq_error] at h
  rcases h with ⟨-, h⟩ | ⟨_, -, -, h⟩ <;> cases h

private theorem operationId_eq_ok :
    (∃ operationId, checkedField isOperationId params "operation_id" = .ok operationId) ↔
      NamesOperation params := by
  simp only [checkedField_eq_ok, NamesOperation, checked]
  constructor
  · rintro ⟨operationId, text, htext, hchecked⟩
    split at hchecked
    · exact ⟨text, htext, ‹_›⟩
    · cases hchecked
  · rintro ⟨text, htext, hvalid⟩
    exact ⟨⟨_, hvalid⟩, text, htext, dif_pos hvalid⟩

private theorem isOneOf_eq_other {value : Option Value} {names : List String} :
    isOneOf value names = .error .other ↔ ∃ v, value = some v ∧ v.hashable = false := by
  rcases value with - | value
  · simp [isOneOf, throw_eq_error]
  · cases hhashable : value.hashable with
    | true => cases value <;> simp_all [isOneOf, require_eq_error, throw_eq_error]
    | false =>
        cases value with
        | str text => cases hhashable
        | _ => simp [isOneOf, hhashable, throw_eq_error]

private theorem utf8Length_eq_other {text : Str} :
    utf8Length text = .error .other ↔ ¬text.IsUtf8 := by
  rw [utf8Length, bind_eq_error, require_eq_error]
  constructor
  · rintro (⟨hraises, -⟩ | ⟨_, -, h⟩)
    · exact hraises
    · cases h
  · intro hraises
    exact .inl ⟨hraises, rfl⟩

/-! ## Values that a check cannot look at -/

/-- A button whose callback data cannot be encoded, its other fields being right. -/
structure ButtonUnreadable (button : Value) : Prop where
  intro ::
  fields : ∃ fields label callbackData, dictOf button = some fields ∧
    hasFields fields buttonFields = true ∧ strOf (fields.get? (lit "label")) = some label ∧
    (1 ≤ label.length ∧ label.length ≤ 64) ∧
    strOf (fields.get? (lit "callback_data")) = some callbackData ∧ ¬callbackData.IsUtf8

/-- Such a button after buttons that are right. -/
def ButtonsUnreadable (buttons : List Value) : Prop :=
  ∃ earlier button later, buttons = earlier ++ button :: later ∧
    (∀ other ∈ earlier, validateButton other = .ok ()) ∧ ButtonUnreadable button

/-- The check of a parameter raises something else than a violation. -/
def Unreadable (params : Fields) : Method → Prop
  | .operationFinish => NamesOperation params ∧
      ∃ outcome, params.get? (lit "outcome") = some outcome ∧ outcome.hashable = false
  | .telegramSend => validateDestination params = .ok () ∧
      ((∃ text, strOf (params.get? (lit "text")) = some text ∧ ¬text.IsUtf8) ∨
        validateText params = .ok () ∧
          ((∃ mode, params.get? (lit "parse_mode") = some mode ∧ mode.hashable = false) ∨
            isOneOf (params.get? (lit "parse_mode")) ["MarkdownV2"] = .ok () ∧
              ∃ frozen buttons, params.get? (lit "buttons") = some (.seq frozen buttons) ∧
                buttons.length ≤ 6 ∧ ButtonsUnreadable buttons))
  | _ => False

private theorem validateButton_eq_other {button : Value} :
    validateButton button = .error .other ↔ ButtonUnreadable button := by
  simp only [validateButton, bind_eq_error, orRaise_eq_error, require_eq_error, orRaise_eq_ok,
    require_eq_ok, utf8Length_eq_other]
  constructor
  · rintro (⟨-, h⟩ | ⟨fields, hfields, ⟨-, h⟩ | ⟨-, hhas, ⟨-, h⟩ | ⟨label, hlabel, ⟨-, h⟩ |
      ⟨-, hlength, ⟨-, h⟩ | ⟨data, hdata, hraises | ⟨_, -, -, h⟩⟩⟩⟩⟩⟩)
    · cases h
    · cases h
    · cases h
    · cases h
    · cases h
    · exact ⟨fields, label, data, hfields, hhas, hlabel, hlength, hdata, hraises⟩
    · cases h
  · rintro ⟨fields, label, data, hfields, hhas, hlabel, hlength, hdata, hraises⟩
    exact .inr ⟨fields, hfields, .inr ⟨(), hhas, .inr ⟨label, hlabel, .inr ⟨(), hlength,
      .inr ⟨data, hdata, .inl hraises⟩⟩⟩⟩⟩

private theorem validateButtons_eq_other (buttons : List Value) :
    validateButtons buttons = .error .other ↔ ButtonsUnreadable buttons := by
  induction buttons with
  | nil =>
      refine iff_of_false (fun h => by cases h) ?_
      rintro ⟨earlier, button, later, h, -⟩
      simp at h
  | cons first buttons ih =>
      rw [validateButtons, bind_eq_error, validateButton_eq_other, ih]
      constructor
      · rintro (hfirst | ⟨_, hfirst, earlier, button, later, rfl, hearlier, hbutton⟩)
        · exact ⟨[], first, buttons, rfl, fun other hother => (by cases hother), hfirst⟩
        · refine ⟨first :: earlier, button, later, rfl, fun other hother => ?_, hbutton⟩
          rcases List.mem_cons.1 hother with rfl | hother
          · exact hfirst
          · exact hearlier other hother
      · rintro ⟨earlier, button, later, hbuttons, hearlier, hbutton⟩
        cases earlier with
        | nil =>
            obtain ⟨rfl, rfl⟩ := List.cons.inj hbuttons
            exact .inl hbutton
        | cons other earlier =>
            obtain ⟨rfl, rfl⟩ := List.cons.inj hbuttons
            exact .inr ⟨(), hearlier _ (.head _), earlier, button, later, rfl,
              fun other hother => hearlier other (.tail _ hother), hbutton⟩

private theorem validateText_eq_other :
    validateText params = .error .other ↔
      ∃ text, strOf (params.get? (lit "text")) = some text ∧ ¬text.IsUtf8 := by
  simp only [validateText, bind_eq_error, orRaise_eq_error, require_eq_error, orRaise_eq_ok,
    utf8Length_eq_other]
  constructor
  · rintro (⟨-, h⟩ | ⟨text, htext, hraises | ⟨_, -, -, h⟩⟩)
    · cases h
    · exact ⟨text, htext, hraises⟩
    · cases h
  · rintro ⟨text, htext, hraises⟩
    exact .inr ⟨text, htext, .inl hraises⟩

private theorem requireOptionalInt_ne_other {value : Option Value} {least : ℤ} :
    requireOptionalInt value least ≠ .error .other := by
  intro h
  unfold requireOptionalInt at h
  split at h
  · cases h
  · simp only [bind_eq_error, orRaise_eq_error, require_eq_error] at h
    rcases h with ⟨-, h⟩ | ⟨_, -, -, h⟩ <;> cases h

private theorem validateDestination_ne_other : validateDestination params ≠ .error .other := by
  intro h
  simp only [validateDestination, bind_eq_error, require_eq_error, checkedField_ne_other,
    requireOptionalInt_ne_other, false_or, and_false, exists_false, or_false] at h
  rcases h with ⟨-, h⟩ | ⟨_, -, _, -, -, h⟩ <;> cases h

private theorem validateTelegramSend_eq_other :
    validateTelegramSend params = .error .other ↔ Unreadable params .telegramSend := by
  rw [validateTelegramSend, bind_eq_error, or_iff_right validateDestination_ne_other, Unreadable]
  simp only [bind_eq_error, validateText_eq_other, isOneOf_eq_other]
  constructor
  · rintro ⟨_, hdestination, htext | ⟨_, htext, hmode | ⟨_, hmode, h⟩⟩⟩
    · exact ⟨hdestination, .inl htext⟩
    · exact ⟨hdestination, .inr ⟨htext, .inl hmode⟩⟩
    · refine ⟨hdestination, .inr ⟨htext, .inr ⟨hmode, ?_⟩⟩⟩
      split at h
      · rename_i frozen buttons hbuttons
        simp only [bind_eq_error, require_eq_error, require_eq_ok, validateButtons_eq_other] at h
        rcases h with ⟨-, h⟩ | ⟨_, hlength, hraises⟩
        · cases h
        · exact ⟨frozen, buttons, hbuttons, hlength, hraises⟩
      · cases h
  · rintro ⟨hdestination, htext | ⟨htext, hmode | ⟨hmode, frozen, buttons, hbuttons, hlength,
      hraises⟩⟩⟩
    · exact ⟨(), hdestination, .inl htext⟩
    · exact ⟨(), hdestination, .inr ⟨(), htext, .inl hmode⟩⟩
    · refine ⟨(), hdestination, .inr ⟨(), htext, .inr ⟨(), hmode, ?_⟩⟩⟩
      rw [hbuttons]
      simp only [bind_eq_error, require_eq_ok, validateButtons_eq_other]
      exact .inr ⟨(), hlength, hraises⟩

private theorem requireText_ne_other {name : String} : requireText params name ≠ .error .other := by
  intro h
  simp only [requireText, bind_eq_error, orRaise_eq_error, require_eq_error] at h
  rcases h with ⟨-, h⟩ | ⟨_, -, ⟨-, h⟩ | ⟨_, -, h⟩⟩ <;> cases h

private theorem validateDecision_ne_other : validateDecision params ≠ .error .other := by
  intro h
  simp only [validateDecision, bind_eq_error, orRaise_eq_error, require_eq_error,
    requireText_ne_other, false_or] at h
  rcases h with ⟨-, h⟩ | ⟨_, -, ⟨-, h⟩ | ⟨_, -, _, -, h⟩⟩
  · cases h
  · cases h
  · exact h

private theorem validateTelegramPoll_ne_other : validateTelegramPoll params ≠ .error .other := by
  intro h
  simp only [validateTelegramPoll, bind_eq_error, orRaise_eq_error, require_eq_error,
    requireOptionalInt_ne_other, false_or] at h
  rcases h with ⟨_, -, ⟨-, h⟩ | ⟨_, -, -, h⟩⟩ <;> cases h

private theorem operationFinish_eq_other :
    validateMethod params .operationFinish = .error .other ↔
      Unreadable params .operationFinish := by
  simp only [validateMethod, Unreadable, bind_eq_error, checkedField_ne_other, orRaise_eq_error,
    isOneOf_eq_other, false_or, ← operationId_eq_ok]
  constructor
  · rintro ⟨operationId, hoperation, houtcome | ⟨_, -, ⟨-, h⟩ | ⟨_, -, _, -, h⟩⟩⟩
    · exact ⟨⟨operationId, hoperation⟩, houtcome⟩
    · cases h
    · cases h
  · rintro ⟨⟨operationId, hoperation⟩, houtcome⟩
    exact ⟨operationId, hoperation, .inl houtcome⟩

private theorem validateMethod_eq_other :
    validateMethod params method = .error .other ↔ Unreadable params method := by
  cases method with
  | operationFinish => exact operationFinish_eq_other
  | telegramSend =>
      rw [validateMethod, bind_eq_error, validateTelegramSend_eq_other]
      refine or_iff_left ?_
      rintro ⟨_, -, h⟩
      cases h
  | turnEvent => exact iff_of_false (fun h => by cases h) id
  | operationBegin =>
      refine iff_of_false (fun h => ?_) id
      simp only [validateMethod, bind_eq_error, checkedField_ne_other, false_or] at h
      obtain ⟨_, -, _, -, _, -, h⟩ := h
      cases h
  | operationStatus =>
      refine iff_of_false (fun h => ?_) id
      simp only [validateMethod, bind_eq_error, checkedField_ne_other, false_or] at h
      obtain ⟨_, -, h⟩ := h
      cases h
  | turnBegin =>
      refine iff_of_false (fun h => ?_) id
      simp only [validateMethod, bind_eq_error, checkedField_ne_other, orRaise_eq_error,
        false_or] at h
      rcases h with ⟨_, -, _, -, ⟨-, h⟩ | ⟨_, -, h⟩⟩ <;> cases h
  | turnResolve =>
      refine iff_of_false (fun h => ?_) id
      simp only [validateMethod, bind_eq_error, checkedField_ne_other,
        validateDecision_ne_other, false_or] at h
      obtain ⟨_, -, _, -, h⟩ := h
      cases h
  | turnCancel =>
      refine iff_of_false (fun h => ?_) id
      simp only [validateMethod, bind_eq_error, checkedField_ne_other, false_or] at h
      obtain ⟨_, -, h⟩ := h
      cases h
  | telegramPoll =>
      refine iff_of_false (fun h => ?_) id
      simp only [validateMethod, bind_eq_error, validateTelegramPoll_ne_other, false_or] at h
      obtain ⟨_, -, h⟩ := h
      cases h
  | _ => exact iff_of_false (fun h => by cases h) id

/-! ## Requests -/

/-- The line is a request of this worker: its object, its token and its method are right, and it
has the parameters of the method. -/
def Authentic (R : Reader) (line : Bytes) (requestId : Str) (method : Method)
    (params : Fields) : Prop :=
  ∃ raw : Fields, R.loads line true = .ok (.dict raw) ∧ hasFields raw requestFields = true ∧
    strOf (raw.get? (lit "protocol")) = some protocolV2 ∧
    strOf (raw.get? (lit "request_id")) = some requestId ∧ requestId ≠ [] ∧
    strOf (raw.get? (lit "token")) = some R.token ∧
    strOf (raw.get? (lit "method")) = some (lit method.text) ∧ method ≠ .turnEvent ∧
    raw.get? (lit "params") = some (.dict params) ∧ hasFields params method.fields = true

private theorem dictOf_eq_some {value : Value} {fields : Fields} :
    dictOf value = some fields ↔ value = .dict fields := by
  cases value <;> simp [dictOf]

private theorem methodOf_eq_some {text : Str} :
    Reader.methodOf text = some method ↔ text = lit method.text := by
  constructor
  · intro h
    exact of_decide_eq_true
      (List.find?_some (p := fun method : Method => decide (text = lit method.text)) h)
  · rintro rfl
    unfold Reader.methodOf
    cases method <;> simp [methods, Method.text]

private theorem loadRequest_eq_ok {raw : Fields} :
    R.loadRequest line = .ok raw ↔ R.loads line true = .ok (.dict raw) := by
  unfold Reader.loadRequest
  split <;> simp_all [dictOf_eq_some]

private theorem loadRequest_eq_other :
    R.loadRequest line = .error .other ↔ R.loads line true = .error .tooManyDigits := by
  unfold Reader.loadRequest
  split <;> simp_all [orRaise_eq_error]

theorem parseRequest_eq_ok {request : Parsed} :
    R.parseRequest line = .ok request ↔
      Authentic R line request.requestId request.method request.params ∧
        validateMethod request.params request.method = .ok request.request := by
  simp only [Reader.parseRequest, bind_eq_ok, require_eq_ok, orRaise_eq_ok, pure_eq_ok,
    loadRequest_eq_ok, Option.bind_eq_some_iff, methodOf_eq_some, dictOf_eq_some]
  constructor
  · rintro ⟨raw, hraw, _, hfields, _, hprotocol, requestId, hid, _, hne, _, htoken, method,
      ⟨text, htext, rfl⟩, _, hinbound, params, ⟨value, hparams, rfl⟩, _, hhas, valid, hvalid, rfl⟩
    exact ⟨⟨raw, hraw, hfields, hprotocol, hid, hne, htoken, htext, hinbound, hparams, hhas⟩,
      hvalid⟩
  · rintro ⟨⟨raw, hraw, hfields, hprotocol, hid, hne, htoken, htext, hinbound, hparams, hhas⟩,
      hvalid⟩
    exact ⟨raw, hraw, (), hfields, (), hprotocol, _, hid, (), hne, (), htoken, _, ⟨_, htext, rfl⟩,
      (), hinbound, _, ⟨_, hparams, rfl⟩, (), hhas, _, hvalid, rfl⟩

theorem parseRequest_eq_other :
    R.parseRequest line = .error .other ↔ R.loads line true = .error .tooManyDigits ∨
      ∃ requestId method params, Authentic R line requestId method params ∧
        Unreadable params method := by
  simp only [Reader.parseRequest, bind_eq_error, require_eq_error, orRaise_eq_error, require_eq_ok,
    orRaise_eq_ok, loadRequest_eq_ok, loadRequest_eq_other, Option.bind_eq_some_iff,
    methodOf_eq_some, dictOf_eq_some, validateMethod_eq_other, reduceCtorEq, and_false, false_or]
  constructor
  · rintro (h | ⟨raw, hraw, _, hfields, _, hprotocol, requestId, hid, _, hne, _, htoken, method,
      ⟨text, htext, rfl⟩, _, hinbound, params, ⟨value, hparams, rfl⟩, _, hhas,
      hunreadable | ⟨_, -, h⟩⟩)
    · exact .inl h
    · exact .inr ⟨requestId, method, params, ⟨raw, hraw, hfields, hprotocol, hid, hne, htoken,
        htext, hinbound, hparams, hhas⟩, hunreadable⟩
    · cases h
  · rintro (h | ⟨requestId, method, params, ⟨raw, hraw, hfields, hprotocol, hid, hne, htoken,
      htext, hinbound, hparams, hhas⟩, hunreadable⟩)
    · exact .inl h
    · exact .inr ⟨raw, hraw, (), hfields, (), hprotocol, _, hid, (), hne, (), htoken, _,
        ⟨_, htext, rfl⟩, (), hinbound, _, ⟨_, hparams, rfl⟩, (), hhas, .inl hunreadable⟩

/-! ## The operation of a reply -/

/-- `WorkerResponse` takes the operation id. -/
def repliable (params : Fields) : Bool :=
  (strOf (params.get? (lit "operation_id"))).all fun id => isOperationId (toText id)

private theorem repliable_of_names (h : NamesOperation params) : repliable params = true := by
  obtain ⟨text, htext, hvalid⟩ := h
  rw [repliable, htext]
  exact hvalid

private theorem get?_eq_none {names : List String} {name : String}
    (h : hasFields params names = true) (hname : name ∉ names) :
    params.get? (lit name) = none := by
  rw [Option.eq_none_iff_forall_ne_some]
  intro value hvalue
  obtain ⟨item, hitem, rfl⟩ := Option.map_eq_some_iff.1 hvalue
  have hkey := List.find?_some hitem
  have hmem := List.mem_of_find?_eq_some hitem
  rw [hasFields, Bool.and_eq_true, List.all_eq_true, List.all_eq_true] at h
  have hknown := h.2 item hmem
  split at hkey
  · rename_i key hitemKey
    rw [hitemKey] at hknown
    obtain ⟨other, hother, hsame⟩ := List.any_eq_true.1 hknown
    have hlit : lit name = lit other :=
      (of_decide_eq_true hkey).symm.trans (of_decide_eq_true hsame)
    rw [lit_inj.1 hlit] at hname
    exact hname hother
  · cases hkey

/-- A method whose fields do not name an operation. -/
private theorem repliable_of_nameless (h : hasFields params method.fields = true)
    (hname : "operation_id" ∉ method.fields) : repliable params = true := by
  rw [repliable, get?_eq_none h hname]
  rfl

private theorem repliable_of_valid {request : Request} (hhas : hasFields params method.fields = true)
    (hvalid : validateMethod params method = .ok request) (hsend : method ≠ .telegramSend) :
    repliable params = true := by
  cases method with
  | operationBegin | operationFinish | operationStatus | turnBegin | turnResolve | turnCancel =>
      rw [validateMethod, bind_eq_ok] at hvalid
      obtain ⟨operationId, hoperation, -⟩ := hvalid
      exact repliable_of_names (operationId_eq_ok.1 ⟨operationId, hoperation⟩)
  | turnEvent => cases hvalid
  | telegramSend => exact absurd rfl hsend
  | _ => exact repliable_of_nameless hhas (by decide)

/-- A valid `telegram.send` whose operation is not one of the ledger. -/
private theorem not_repliable_of_send (hsend : validateTelegramSend params = .ok ())
    (hnames : ¬NamesOperation params) : repliable params = false := by
  simp only [validateTelegramSend, validateDestination, bind_eq_ok, checkedField_eq_ok] at hsend
  obtain ⟨_, ⟨_, -, _, ⟨text, htext, -⟩, -⟩, -⟩ := hsend
  rw [Bool.eq_false_iff]
  intro hrepliable
  rw [repliable, htext] at hrepliable
  exact hnames ⟨text, htext, hrepliable⟩

/-! ## Serving -/

private theorem serveReady_answer {request : Request} {lineReadings : LineReadings} {s' : Machine}
    {answer : Answer} (h : serveReady P s p lineReadings request = .ok (s', answer)) :
    answer ≠ .stopping ∧ (answer = .submitted → request = .telegramCall ∧
      lineReadings.transportFree = true) := by
  cases request with
  | operationBegin operationId kind digest =>
      simp only [serveReady, bind_eq_ok] at h
      obtain ⟨⟨ledger, reply⟩, -, h⟩ := h
      cases reply <;> cases h <;> exact ⟨by simp, fun hanswer => by cases hanswer⟩
  | operationFinish operationId outcome digest =>
      simp only [serveReady, bind_eq_ok] at h
      obtain ⟨⟨ledger, reply⟩, -, h⟩ := h
      cases h
      exact ⟨by simp, fun hanswer => by cases hanswer⟩
  | operationStatus operationId =>
      simp only [serveReady, bind_eq_ok] at h
      obtain ⟨⟨ledger, reply⟩, -, h⟩ := h
      cases reply <;> cases h
      exact ⟨by simp, fun hanswer => by cases hanswer⟩
  | turnBegin operationId digest =>
      simp only [serveReady, bind_eq_ok] at h
      obtain ⟨⟨_, state⟩, -, h⟩ := h
      cases h
      exact ⟨by simp, fun hanswer => by cases hanswer⟩
  | turnResolve operationId =>
      simp only [serveReady, bind_eq_ok] at h
      obtain ⟨_, -, h⟩ := h
      cases h
      exact ⟨by simp, fun hanswer => by cases hanswer⟩
  | turnCancel operationId =>
      simp only [serveReady, bind_eq_ok] at h
      obtain ⟨_, -, h⟩ := h
      cases h
      exact ⟨by simp, fun hanswer => by cases hanswer⟩
  | telegramCall =>
      simp only [serveReady, bind_eq_ok, require_eq_ok] at h
      obtain ⟨_, hfree, h⟩ := h
      cases h
      exact ⟨by simp, fun _ => ⟨rfl, hfree⟩⟩
  | _ =>
      cases h
      exact ⟨by simp, fun hanswer => by cases hanswer⟩

private theorem served_answer {request : Request} {lineReadings : LineReadings} :
    (match (do requireReady s p; serveReady P s p lineReadings request) with
      | .ok result => result
      | .error category => (s, .error category) : Machine × Answer).2 ≠ .stopping ∧
    ((match (do requireReady s p; serveReady P s p lineReadings request) with
      | .ok result => result
      | .error category => (s, .error category) : Machine × Answer).2 = .submitted →
      request = .telegramCall ∧ Ready s p ∧ lineReadings.transportFree = true) := by
  split
  · rename_i result hserve
    obtain ⟨s', answer⟩ := result
    rw [bind_eq_ok] at hserve
    obtain ⟨_, hready, hserve⟩ := hserve
    obtain ⟨hstop, hsubmit⟩ := serveReady_answer hserve
    exact ⟨hstop, fun hanswer => ⟨(hsubmit hanswer).1, requireReady_eq_ok.1 hready,
      (hsubmit hanswer).2⟩⟩
  · exact ⟨by simp, fun hanswer => by cases hanswer⟩

/-- Only `shutdown` stops the loop, and only the transport takes over a reply. -/
private theorem serveLine_answer (request : Request) (lineReadings : LineReadings) :
    ((serveLine P s p lineReadings (some request)).2 = .stopping → request = .shutdown) ∧
    ((serveLine P s p lineReadings (some request)).2 = .submitted → request = .telegramCall ∧
      Ready s p ∧ lineReadings.transportFree = true) := by
  cases request with
  | shutdown => exact ⟨fun _ => rfl, fun h => (by cases h)⟩
  | healthCheck => exact ⟨fun h => (by cases h), fun h => (by cases h)⟩
  | identityMeasure =>
      rw [serveLine, measureIdentity]
      split
      · exact ⟨fun h => (by cases h), fun h => (by cases h)⟩
      · exact ⟨fun h => (by cases h), fun h => (by cases h)⟩
  | _ => exact ⟨fun h => absurd h served_answer.1, served_answer.2⟩

private theorem serveLine_submits {lineReadings : LineReadings} (hready : Ready s p)
    (hfree : lineReadings.transportFree = true) :
    (serveLine P s p lineReadings (some .telegramCall)).2 = .submitted := by
  have hserve : (do requireReady s p; serveReady P s p lineReadings .telegramCall) =
      .ok (s, .submitted) := by
    rw [(requireReady_eq_ok (u := ())).2 hready, ok_bind, serveReady, require, if_pos hfree]
    rfl
  change (match (do requireReady s p; serveReady P s p lineReadings .telegramCall) with
    | .ok result => result
    | .error category => (s, .error category) : Machine × Answer).2 = _
  rw [hserve]

private theorem peekRequestId_eq_none :
    R.peekRequestId line = none ↔ R.loads line false = .error .tooDeep := by
  unfold Reader.peekRequestId
  split
  · rename_i h
    exact iff_of_true rfl h
  · rename_i error herror h
    refine iff_of_false (fun hnone => by cases hnone) fun hdeep => ?_
    rw [h] at hdeep
    exact herror (Except.error.inj hdeep)
  · rename_i raw h
    refine iff_of_false (fun hnone => ?_) fun hdeep => ?_
    · split at hnone
      · split at hnone <;> cases hnone
      · cases hnone
    · rw [h] at hdeep
      cases hdeep

private theorem respond_raised {requestId : Str} {operationId : Option Str} {answer : Answer} :
    respond requestId operationId answer = .raised ↔
      operationId.all (fun id => isOperationId (toText id)) = false := by
  unfold respond
  split
  · rename_i hall
    rw [hall]
    cases answer <;> simp
  · rename_i hall
    exact iff_of_true rfl (Bool.eq_false_iff.2 hall)

/-- A request raises although its parameters are read: a measurement fails in another way than a
mismatch, or the reply to a refused `telegram.send` cannot be built. -/
def RaisesServed (s : Machine) (p : Process) (busy : Bool) (readings : LoopReadings)
    (params : Fields) : Method → Prop
  | .identityMeasure => p.identityOk = true ∧ readings.measures = none
  | .telegramSend => validateTelegramSend params = .ok () ∧ ¬NamesOperation params ∧
      ¬(Ready s p ∧ busy = false)
  | _ => False

private theorem sends_of_valid {request : Request}
    (hvalid : validateMethod params .telegramSend = .ok request) :
    validateTelegramSend params = .ok () ∧ request = .telegramCall := by
  simp only [validateMethod, bind_eq_ok, pure_eq_ok] at hvalid
  obtain ⟨_, hsend, rfl⟩ := hvalid
  exact ⟨hsend, rfl⟩

/-- The reply of a request that was served. -/
def Parsed.reply (request : Parsed) : Answer → Iteration
  | .submitted => .submitted request.requestId
  | answer => respond request.requestId (strOf (request.params.get? (lit "operation_id")))
      (request.answer answer)

private theorem serveParsed_eq {request : Parsed}
    (h : ¬(request.method = .identityMeasure ∧ p.identityOk = true ∧ readings.measures = none)) :
    (serveParsed P s p busy readings request).2 =
      request.reply (serveLine P s p ⟨readings.now, readings.measures.getD false, !busy,
        readings.delivered⟩ (some request.request)).2 := by
  unfold serveParsed
  split
  · rename_i hnone hmeasure
    rw [decide_eq_true_eq] at hmeasure
    exact absurd ⟨hmeasure.1, hmeasure.2, hnone⟩ h
  · dsimp only
    split
    · rename_i hanswer
      rw [hanswer]
      rfl
    · rename_i hanswer
      unfold Parsed.reply
      split
      · exact absurd ‹_› hanswer
      · rfl

private theorem reply_raised {request : Parsed} {answer : Answer} :
    request.reply answer = .raised ↔ answer ≠ .submitted ∧ repliable request.params = false := by
  unfold Parsed.reply
  split
  · exact iff_of_false (fun h => by cases h) fun h => h.1 rfl
  · rename_i hanswer
    rw [respond_raised, repliable]
    exact (and_iff_right hanswer).symm

private theorem serveParsed_raised {request : Parsed}
    (hhas : hasFields request.params request.method.fields = true)
    (hvalid : validateMethod request.params request.method = .ok request.request) :
    (serveParsed P s p busy readings request).2 = .raised ↔
      RaisesServed s p busy readings request.params request.method := by
  obtain ⟨requestId, method, params, request⟩ := request
  by_cases hmeasure : method = .identityMeasure ∧ p.identityOk = true ∧ readings.measures = none
  · obtain ⟨rfl, hidentity, hnone⟩ := hmeasure
    refine iff_of_true ?_ ⟨hidentity, hnone⟩
    simp only [serveParsed, hnone, hidentity, decide_true, and_self]
  · rw [serveParsed_eq hmeasure, reply_raised]
    by_cases hsend : method = .telegramSend
    · subst hsend
      obtain ⟨hsend, rfl⟩ := sends_of_valid hvalid
      constructor
      · rintro ⟨hanswer, hrepliable⟩
        refine ⟨hsend, fun hnames => ?_, fun ⟨hready, hfree⟩ => hanswer ?_⟩
        · rw [repliable_of_names hnames] at hrepliable
          cases hrepliable
        · exact serveLine_submits hready (by rw [hfree]; rfl)
      · rintro ⟨-, hnames, hbusy⟩
        refine ⟨fun hanswer => hbusy ?_, not_repliable_of_send hsend hnames⟩
        obtain ⟨-, hready, hfree⟩ := (serveLine_answer _ _).2 hanswer
        exact ⟨hready, by simpa using hfree⟩
    · refine iff_of_false (fun ⟨_, hrepliable⟩ => ?_) fun hraises => ?_
      · rw [repliable_of_valid hhas hvalid hsend] at hrepliable
        cases hrepliable
      · cases method with
        | identityMeasure => exact hmeasure ⟨rfl, hraises⟩
        | telegramSend => exact hsend rfl
        | _ => exact hraises

/-! ## Lines -/

/-- The line raises out of the loop. -/
def Escapes (R : Reader) (s : Machine) (p : Process) (busy : Bool) (readings : LoopReadings)
    (line : Bytes) : Prop :=
  R.loads line false = .error .tooDeep ∨ R.loads line true = .error .tooManyDigits ∨
    ∃ requestId method params, Authentic R line requestId method params ∧
      (Unreadable params method ∨ RaisesServed s p busy readings params method)

private theorem authentic_unique {requestId requestId' : Str} {method' : Method}
    {params' : Fields} (h : Authentic R line requestId method params)
    (h' : Authentic R line requestId' method' params') :
    requestId = requestId' ∧ method = method' ∧ params = params' := by
  obtain ⟨raw, hraw, -, -, hid, -, -, hmethod, -, hparams, -⟩ := h
  obtain ⟨raw', hraw', -, -, hid', -, -, hmethod', -, hparams', -⟩ := h'
  rw [hraw] at hraw'
  obtain rfl : raw = raw' := by simpa using hraw'
  rw [hid, Option.some.injEq] at hid'
  rw [hmethod, Option.some.injEq, ← methodOf_eq_some, methodOf_eq_some.2 rfl,
    Option.some.injEq] at hmethod'
  rw [hparams, Option.some.injEq, Value.dict.injEq] at hparams'
  exact ⟨hid', hmethod', hparams'⟩

/-- A request that raises when it is served is a valid one. -/
private theorem valid_of_raisesServed (h : RaisesServed s p busy readings params method) :
    ∃ request, validateMethod params method = .ok request := by
  cases method with
  | identityMeasure => exact ⟨_, rfl⟩
  | telegramSend =>
      refine ⟨.telegramCall, ?_⟩
      rw [validateMethod, h.1]
      rfl
  | _ => exact h.elim

theorem iterate_raised :
    (iterate P R s p busy readings line).2 = .raised ↔ Escapes R s p busy readings line := by
  unfold iterate
  split
  · rename_i hpeek
    exact iff_of_true rfl (.inl (peekRequestId_eq_none.1 hpeek))
  · rename_i peeked hpeek
    have hshallow : R.loads line false ≠ .error .tooDeep := by
      intro hdeep
      rw [peekRequestId_eq_none.2 hdeep] at hpeek
      cases hpeek
    split
    · rename_i hparse
      refine iff_of_true rfl (.inr ?_)
      rcases parseRequest_eq_other.1 hparse with hdigits | ⟨requestId, method, params, h, hread⟩
      · exact .inl hdigits
      · exact .inr ⟨requestId, method, params, h, .inl hread⟩
    · rename_i error hother hparse
      refine iff_of_false (fun h => ?_) ?_
      · rw [respond_raised] at h
        cases h
      · rintro (hdeep | hdigits | ⟨requestId, method, params, h, hread | hraises⟩)
        · exact hshallow hdeep
        · rw [parseRequest_eq_other.2 (.inl hdigits)] at hparse
          exact hother (Except.error.inj hparse).symm
        · rw [parseRequest_eq_other.2 (.inr ⟨_, _, _, h, hread⟩)] at hparse
          exact hother (Except.error.inj hparse).symm
        · obtain ⟨request, hvalid⟩ := valid_of_raisesServed hraises
          have hok : R.parseRequest line = .ok ⟨requestId, method, params, request⟩ :=
            parseRequest_eq_ok.2 ⟨h, hvalid⟩
          rw [hok] at hparse
          cases hparse
    · rename_i request hparse
      obtain ⟨hauthentic, hvalid⟩ := parseRequest_eq_ok.1 hparse
      have hhas := hauthentic.choose_spec.2.2.2.2.2.2.2.2.2
      rw [serveParsed_raised hhas hvalid]
      constructor
      · intro hraises
        exact .inr (.inr ⟨_, _, _, hauthentic, .inr hraises⟩)
      · rintro (hdeep | hdigits | ⟨requestId, method, params, h, hread | hraises⟩)
        · exact absurd hdeep hshallow
        · rw [parseRequest_eq_other.2 (.inl hdigits)] at hparse
          cases hparse
        · rw [parseRequest_eq_other.2 (.inr ⟨_, _, _, h, hread⟩)] at hparse
          cases hparse
        · obtain ⟨-, hmethod, hparams⟩ := authentic_unique hauthentic h
          rw [hmethod, hparams]
          exact hraises

/-! ## Replies -/

/-- The request id that a reply goes to. -/
def Iteration.requestId : Iteration → Option Str
  | .wrote requestId _ _ | .submitted requestId | .stopped requestId => some requestId
  | .raised => none

private theorem respond_requestId {requestId : Str} {operationId : Option Str} {answer : Answer}
    (h : respond requestId operationId answer ≠ .raised) :
    (respond requestId operationId answer).requestId = some requestId := by
  unfold respond at h ⊢
  split
  · split <;> rfl
  · rw [if_neg ‹_›] at h
    exact absurd rfl h

private theorem respond_stopped {requestId other : Str} {operationId : Option Str} {answer : Answer}
    (h : respond requestId operationId answer = .stopped other) : answer = .stopping := by
  unfold respond at h
  split at h
  · split at h
    · rfl
    · cases h
  · cases h

private theorem reply_requestId {request : Parsed} {answer : Answer}
    (h : request.reply answer ≠ .raised) :
    (request.reply answer).requestId = some request.requestId := by
  unfold Parsed.reply at h ⊢
  split at h
  · rfl
  · exact respond_requestId h

private theorem reply_stopped {request : Parsed} {answer : Answer} {requestId : Str}
    (h : request.reply answer = .stopped requestId) :
    answer = .stopping ∧ requestId = request.requestId := by
  unfold Parsed.reply at h
  split at h
  · cases h
  · have hanswer := respond_stopped h
    refine ⟨?_, ?_⟩
    · unfold Parsed.answer at hanswer
      split at hanswer
      · split at hanswer <;> cases hanswer
      · exact hanswer
    · have hid := respond_requestId (by rw [h]; simp)
      rw [h] at hid
      exact Option.some.inj hid

private theorem serveParsed_reply {request : Parsed}
    (h : (serveParsed P s p busy readings request).2 ≠ .raised) :
    (serveParsed P s p busy readings request).2.requestId = some request.requestId ∧
      ∀ requestId, (serveParsed P s p busy readings request).2 = .stopped requestId →
        requestId = request.requestId ∧ request.request = .shutdown := by
  have hmeasure : ¬(request.method = .identityMeasure ∧ p.identityOk = true ∧
      readings.measures = none) := by
    rintro ⟨hmethod, hidentity, hnone⟩
    refine h ?_
    simp only [serveParsed, hnone, hmethod, hidentity, decide_true, and_self]
  rw [serveParsed_eq hmeasure] at h ⊢
  refine ⟨reply_requestId h, fun requestId hstopped => ?_⟩
  obtain ⟨hanswer, hid⟩ := reply_stopped hstopped
  exact ⟨hid, (serveLine_answer _ _).1 hanswer⟩

private theorem validateMethod_shutdown
    (hvalid : validateMethod params method = .ok .shutdown) : method = .shutdown := by
  cases method with
  | shutdown => rfl
  | identityMeasure | healthCheck | telegramCapabilities | turnEvent => cases hvalid
  | operationBegin =>
      simp only [validateMethod, bind_eq_ok] at hvalid
      obtain ⟨_, -, _, -, _, -, h⟩ := hvalid
      cases h
  | operationFinish =>
      simp only [validateMethod, bind_eq_ok] at hvalid
      obtain ⟨_, -, _, -, _, -, _, -, h⟩ := hvalid
      cases h
  | operationStatus | turnCancel | telegramSend | telegramPoll =>
      simp only [validateMethod, bind_eq_ok] at hvalid
      obtain ⟨_, -, h⟩ := hvalid
      cases h
  | turnBegin =>
      simp only [validateMethod, bind_eq_ok] at hvalid
      obtain ⟨_, -, _, -, _, -, h⟩ := hvalid
      cases h
  | turnResolve =>
      simp only [validateMethod, bind_eq_ok] at hvalid
      obtain ⟨_, -, _, -, h⟩ := hvalid
      cases h

/-- The line has one reply, or is handed to the transport, under its own request id, and the loop
goes on unless it is a `shutdown`. -/
structure Answers (R : Reader) (line : Bytes) (iteration : Iteration) : Prop where
  survives : iteration ≠ .raised
  shutdown : ∀ requestId, iteration = .stopped requestId →
    ∃ params, Authentic R line requestId .shutdown params
  addressed : ∀ (fields : Fields) requestId, R.loads line false = .ok (.dict fields) →
    strOf (fields.get? (lit "request_id")) = some requestId → requestId ≠ [] →
      iteration.requestId = some requestId

private theorem loads_of_closed {value : Value} (h : R.loads line true = .ok value) :
    R.loads line false = .ok value := by
  unfold Reader.loads at h ⊢
  split at h
  · exact PyJson.loads_opened h
  · cases h

private theorem peekRequestId_eq {fields : Fields} {requestId : Str}
    (hline : R.loads line false = .ok (.dict fields))
    (hid : strOf (fields.get? (lit "request_id")) = some requestId) (hne : requestId ≠ []) :
    R.peekRequestId line = some requestId := by
  simp only [Reader.peekRequestId, hline, dictOf, Option.bind_some, hid, if_neg hne]

private theorem iterate_answers :
    Answers R line (iterate P R s p busy readings line).2 ↔ ¬Escapes R s p busy readings line := by
  rw [← iterate_raised (P := P)]
  refine ⟨Answers.survives, fun h => ⟨h, fun requestId hstopped => ?_,
    fun fields requestId hline hid hne => ?_⟩⟩
  · unfold iterate at hstopped
    split at hstopped
    · cases hstopped
    · rename_i peeked _
      split at hstopped
      · cases hstopped
      · have hanswer := respond_stopped 
          (show respond peeked none (.error .protocolViolation) = .stopped requestId from hstopped)
        cases hanswer
      · rename_i request hparse
        obtain ⟨hauthentic, hvalid⟩ := parseRequest_eq_ok.1 hparse
        obtain ⟨hid, hshutdown⟩ := (serveParsed_reply (by rw [hstopped]; simp)).2 _ hstopped
        rw [hshutdown] at hvalid
        rw [hid, ← validateMethod_shutdown hvalid]
        exact ⟨_, hauthentic⟩
  · have hpeek := peekRequestId_eq hline hid hne
    unfold iterate at h ⊢
    rw [hpeek] at h ⊢
    dsimp only at h ⊢
    split
    · rename_i hparse
      rw [hparse] at h
      exact absurd rfl h
    · change (respond requestId none (.error .protocolViolation)).requestId = _
      refine respond_requestId fun hraised => ?_
      rw [respond_raised] at hraised
      cases hraised
    · rename_i request hparse
      rw [hparse] at h
      obtain ⟨⟨raw, hraw, -, -, hrawId, -⟩, -⟩ := parseRequest_eq_ok.1 hparse
      rw [loads_of_closed hraw] at hline
      obtain rfl : raw = fields := by simpa using hline
      rw [hrawId] at hid
      rw [← hid]
      exact (serveParsed_reply h).1

/-! ## The loop -/

/-- The loop after start-up. -/
def Loop.start (machine : Machine) : Loop := ⟨machine, false, [], [], false⟩

/-- The loop ends after this iteration. -/
def Iteration.ends : Iteration → Bool
  | .stopped _ | .raised => true
  | _ => false

/-- The request id of the line that an iteration answers or hands to the transport. -/
def LoopEvent.asked : LoopEvent → Option Str
  | .line _ _ iteration => iteration.requestId
  | _ => none

/-- The request id of the reply that is written. -/
def LoopEvent.replied : LoopEvent → Option Str
  | .line _ _ (.wrote requestId _ _) | .line _ _ (.stopped requestId) | .replies requestId =>
      some requestId
  | _ => none

/-- A line of this event does not escape. -/
def Spares (R : Reader) (l : Loop) (event : LoopEvent) : Prop :=
  ∀ line readings iteration p, event = .line line readings iteration →
    l.machine.process = some p → ¬Escapes R l.machine p l.busy readings line

/-- What holds in every state of every run: one transport call at a time, and one reply for each
line that the loop did not raise at. -/
structure LoopInv (events : List LoopEvent) (l : Loop) : Prop where
  single : l.calls.length ≤ 1
  busy : l.busy = true ↔ l.calls ≠ []
  accounted : (events.filterMap LoopEvent.asked).Perm
    (events.filterMap LoopEvent.replied ++ (l.calls ++ l.replies))
  ended : l.ended = true ↔ ∃ line readings iteration,
    LoopEvent.line line readings iteration ∈ events ∧ iteration.ends = true

private theorem busy_of_submitted {requestId : Str}
    (h : (iterate P R s p busy readings line).2 = .submitted requestId) : busy = false := by
  unfold iterate at h
  split at h
  · cases h
  · rename_i peeked _
    split at h
    · cases h
    · have hrefused : (respond peeked none (.error .protocolViolation)) = .submitted requestId := h
      unfold respond at hrefused
      split at hrefused <;> cases hrefused
    · rename_i request _
      have hmeasure : ¬(request.method = .identityMeasure ∧ p.identityOk = true ∧
          readings.measures = none) := by
        rintro ⟨hmethod, hidentity, hnone⟩
        simp only [serveParsed, hnone, hmethod, hidentity, decide_true, and_self] at h
        cases h
      rw [serveParsed_eq hmeasure] at h
      unfold Parsed.reply at h
      split at h
      · rename_i hanswer
        obtain ⟨-, -, hfree⟩ := (serveLine_answer _ _).2 hanswer
        simpa using hfree
      · unfold respond at h
        split at h
        · split at h <;> cases h
        · cases h

private theorem ends_cons {events : List LoopEvent} {event : LoopEvent} {ended : Bool}
    (h : ended = true ↔ ∃ line readings iteration,
      LoopEvent.line line readings iteration ∈ events ∧ iteration.ends = true)
    (hevent : ∀ line readings iteration, event = .line line readings iteration →
      iteration.ends = false) :
    ended = true ↔ ∃ line readings iteration,
      LoopEvent.line line readings iteration ∈ event :: events ∧ iteration.ends = true := by
  rw [h]
  constructor
  · rintro ⟨line, readings, iteration, hmem, hends⟩
    exact ⟨line, readings, iteration, .tail _ hmem, hends⟩
  · rintro ⟨line, readings, iteration, hmem, hends⟩
    rcases List.mem_cons.1 hmem with heq | hmem
    · rw [hevent _ _ _ heq.symm] at hends
      cases hends
    · exact ⟨line, readings, iteration, hmem, hends⟩

variable {events : List LoopEvent} {l l' : Loop} {event : LoopEvent} {machine : Machine}

private theorem LoopInv.iterates (h : LoopInv events l) {iteration : Iteration}
    (hbusy : ∀ requestId, iteration = .submitted requestId → l.busy = false) :
    LoopInv (.line line readings iteration :: events) (l.after machine iteration) := by
  cases iteration with
  | wrote requestId operationId answer =>
      refine ⟨h.single, h.busy, h.accounted.cons requestId, ends_cons h.ended ?_⟩
      rintro _ _ _ ⟨⟩
      rfl
  | submitted requestId =>
      have hcalls : l.calls = [] := by
        by_contra hne
        have hb := h.busy.2 hne
        rw [hbusy requestId rfl] at hb
        cases hb
      refine ⟨?_, iff_of_true rfl (List.cons_ne_nil _ _), ?_, ends_cons h.ended ?_⟩
      · change (requestId :: l.calls).length ≤ 1
        rw [hcalls]
        exact le_rfl
      · exact (h.accounted.cons requestId).trans List.perm_middle.symm
      · rintro _ _ _ ⟨⟩
        rfl
  | stopped requestId =>
      refine ⟨h.single, h.busy, h.accounted.cons requestId, iff_of_true rfl ?_⟩
      exact ⟨line, readings, _, .head _, rfl⟩
  | raised =>
      refine ⟨h.single, h.busy, h.accounted, iff_of_true rfl ?_⟩
      exact ⟨line, readings, _, .head _, rfl⟩

private theorem LoopInv.step (h : LoopInv events l) (hstep : LoopStep P R l event l') :
    LoopInv (event :: events) l' := by
  cases hstep with
  | line line readings hrunning hp =>
      exact h.iterates fun requestId hsubmitted => busy_of_submitted hsubmitted
  | @returns earlier later requestId hcalls =>
      have hsingle := h.single
      rw [hcalls, List.length_append, List.length_cons] at hsingle
      obtain rfl : earlier = [] := List.eq_nil_of_length_eq_zero (by omega)
      obtain rfl : later = [] := List.eq_nil_of_length_eq_zero (by omega)
      refine ⟨Nat.zero_le 1, ?_, ?_, ends_cons h.ended fun _ _ _ heq => by cases heq⟩
      · exact iff_of_false Bool.false_ne_true fun hne => hne rfl
      · have haccounted := h.accounted
        rw [hcalls] at haccounted
        exact haccounted
  | @replies earlier later requestId hreplies =>
      refine ⟨h.single, h.busy, ?_, ends_cons h.ended fun _ _ _ heq => by cases heq⟩
      have haccounted := h.accounted
      rw [hreplies] at haccounted
      change (events.filterMap LoopEvent.asked).Perm
        (requestId :: events.filterMap LoopEvent.replied ++ (l.calls ++ (earlier ++ later)))
      refine haccounted.trans ?_
      rw [← List.append_assoc, ← List.append_assoc]
      refine List.perm_middle.trans ?_
      rw [List.cons_append, List.append_assoc, List.append_assoc]
  | moves hmoves =>
      exact ⟨h.single, h.busy, h.accounted, ends_cons h.ended fun _ _ _ heq => by cases heq⟩

private theorem loopInv_of_history (h : History (LoopStep P R) (.start machine) events l) :
    LoopInv events l := by
  have hstart : LoopInv [] (.start machine) := by
    refine ⟨Nat.zero_le 1, ?_, .nil, ?_⟩
    · exact iff_of_false Bool.false_ne_true fun hne => hne rfl
    · refine iff_of_false Bool.false_ne_true ?_
      rintro ⟨_, _, _, hmem, -⟩
      cases hmem
  exact h.induction hstart LoopInv.step

/-- A step answers its line exactly when the line does not escape. -/
private theorem spares_iff (hstep : LoopStep P R l event l') :
    Spares R l event ↔ ∀ line readings iteration, event = .line line readings iteration →
      Answers R line iteration := by
  cases hstep with
  | @line p line readings hrunning hp =>
      constructor
      · rintro hspares _ _ _ ⟨⟩
        exact iterate_answers.2 (hspares _ _ _ p rfl hp)
      · rintro hanswers _ _ _ q ⟨⟩ hq
        rw [hp, Option.some.injEq] at hq
        subst hq
        exact iterate_answers.1 (hanswers _ _ _ rfl)
  | _ =>
      refine iff_of_true (fun _ _ _ _ heq => ?_) fun _ _ _ heq => ?_
      · cases heq
      · cases heq

private theorem spared_iff (h : History (LoopStep P R) (.start machine) events l) :
    History (restrict (LoopStep P R) (Spares R)) (.start machine) events l ↔
      ∀ line readings iteration, LoopEvent.line line readings iteration ∈ events →
        Answers R line iteration := by
  constructor
  · intro hspared line readings iteration hmem
    induction hspared with
    | nil => cases hmem
    | cons hearlier hstep ih =>
        rcases List.mem_cons.1 hmem with heq | hmem
        · exact (spares_iff hstep.1).1 hstep.2 line readings iteration heq.symm
        · exact ih (hearlier.mono fun hstep => hstep.1) hmem
  · intro hanswers
    induction h with
    | nil => exact .nil
    | cons hearlier hstep ih =>
        refine (ih fun line readings iteration hmem => ?_).cons ⟨hstep, ?_⟩
        · exact hanswers line readings iteration (.tail _ hmem)
        · refine (spares_iff hstep).2 fun line readings iteration heq => ?_
          exact hanswers line readings iteration (heq ▸ .head _)

/-- In every run the transport has one call at a time, and every line that did not raise has one
reply, which is written or still to be written.  The lines of a run are answered exactly when none
of them escapes; so is the next line. -/
theorem answers_iff (h : History (LoopStep P R) (.start machine) events l) :
    l.calls.length ≤ 1 ∧ (l.busy = true ↔ l.calls ≠ []) ∧
    (events.filterMap LoopEvent.asked).Perm
      (events.filterMap LoopEvent.replied ++ (l.calls ++ l.replies)) ∧
    (l.ended = true ↔ ∃ line readings iteration,
      LoopEvent.line line readings iteration ∈ events ∧ iteration.ends = true) ∧
    ((∀ line readings iteration, LoopEvent.line line readings iteration ∈ events →
        Answers R line iteration) ↔
      History (restrict (LoopStep P R) (Spares R)) (.start machine) events l) ∧
    ∀ p line readings, l.machine.process = some p →
      (Answers R line (iterate P R l.machine p l.busy readings line).2 ↔
        ¬Escapes R l.machine p l.busy readings line) := by
  have hinv := loopInv_of_history h
  exact ⟨hinv.single, hinv.busy, hinv.accounted, hinv.ended, (spared_iff h).symm,
    fun _ _ _ _ => iterate_answers⟩

/-! ## A line that ends the loop -/

/-- A reader of lines of ASCII. -/
def asciiReader : Reader where
  limits := ⟨4300, 1000⟩
  toFloat _ := .finite 0
  decode line := some (line.map fun byte => ⟨byte.toNat, by have := byte.toNat_lt; omega⟩)
  token := lit "secret"

def lineOf (text : String) : Bytes := text.toList.map fun c => c.toNat.toUInt8

def healthLine : Bytes :=
  lineOf <| "\x7b\"protocol\":\"cortex-worker/2\",\"request_id\":\"r\",\"token\":\"secret\"," ++
    "\"method\":\"health.check\",\"params\":\x7b\x7d\x7d"

/-- An `operation.finish` whose outcome is a list. -/
def listLine : Bytes :=
  lineOf <| "\x7b\"protocol\":\"cortex-worker/2\",\"request_id\":\"r\",\"token\":\"secret\"," ++
    "\"method\":\"operation.finish\",\"params\":\x7b\"operation_id\":\"op-1\",\"outcome\":[]," ++
    "\"result_digest\":\"\"\x7d\x7d"

def freshWorker : Process := ⟨true, false, []⟩

def freshLoop : Loop := .start ⟨.initial, some freshWorker⟩

def freshReadings : LoopReadings := ⟨default, some true, true⟩

def healthy : Machine × Iteration :=
  iterate asciiPlatform asciiReader freshLoop.machine freshWorker false freshReadings healthLine

theorem answers_iff_healthLine :
    (freshLoop.after healthy.1 healthy.2).calls.length ≤ 1 :=
  (answers_iff (History.nil.cons
    (.line (P := asciiPlatform) (R := asciiReader) healthLine freshReadings rfl rfl))).1

/-- The loop ends at an outcome that is a list. -/
theorem list_outcome_ends_loop :
    ¬∀ (P : OperationLedger.Platform) (R : Reader) (machine : Machine) (events : List LoopEvent)
      (l : Loop), History (LoopStep P R) (.start machine) events l →
      ∀ p line readings, l.machine.process = some p →
        Answers R line (iterate P R l.machine p l.busy readings line).2 := by
  intro h
  have hanswers := h asciiPlatform asciiReader _ _ freshLoop .nil freshWorker listLine
    freshReadings rfl
  have hnone : (iterate asciiPlatform asciiReader freshLoop.machine freshWorker freshLoop.busy
      freshReadings listLine).2.requestId = none := by decide +kernel
  refine hanswers.survives ?_
  revert hnone
  generalize (iterate asciiPlatform asciiReader freshLoop.machine freshWorker freshLoop.busy
    freshReadings listLine).2 = iteration
  intro hnone
  cases iteration with
  | raised => rfl
  | _ => cases hnone

end Cortex.Worker
