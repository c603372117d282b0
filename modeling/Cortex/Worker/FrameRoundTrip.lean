import Cortex.Worker.Frames

/-!
# Frames are read back

An encoded frame is one line, and reading it gives an equal frame; a frame that was
read can be encoded.  Encoder, constructors and parser agree on the fields of every
kind of frame; what they do not agree on is two surrogates that form a pair.
-/

namespace Cortex.Worker

open Py
open PyJson hiding require
open Transaction
open OperationLedger (isOperationId)

variable {C : Codec} {F : Floats} {P : Str → Prop} {limits : JsonLimits}

/-! ## A line -/

theorem hasFields_same {fields others : Fields} (h : SameFields fields others)
    (names : List String) : hasFields others names = hasFields fields names := by
  unfold hasFields
  simp only [h.isSome_get?]
  congr 1
  rw [Bool.eq_iff_iff, List.all_eq_true, List.all_eq_true]
  constructor
  · intro hothers item hitem
    obtain ⟨other, hother, hkey⟩ :=
      List.mem_map.1 ((h.keys item.1).2 (List.mem_map_of_mem hitem))
    rw [← hkey]
    exact hothers other hother
  · intro hfields item hitem
    obtain ⟨field, hfield, hkey⟩ :=
      List.mem_map.1 ((h.keys item.1).1 (List.mem_map_of_mem hitem))
    rw [← hkey]
    exact hfields field hfield

theorem hasFields_fieldsOf (items : List (String × Value)) :
    hasFields (fieldsOf items) (items.map Prod.fst) = true := by
  have hkeys : (fieldsOf items).map Prod.fst = items.map fun item => .str (lit item.1) := by
    rw [fieldsOf, List.map_map]
    rfl
  unfold hasFields
  rw [Bool.and_eq_true, List.all_eq_true, List.all_eq_true]
  constructor
  · intro name hname
    obtain ⟨item, hitem, rfl⟩ := List.mem_map.1 hname
    rw [isSome_get?_iff, hkeys]
    exact List.mem_map_of_mem hitem
  · intro field hfield
    obtain ⟨item, hitem, rfl⟩ := List.mem_map.1 hfield
    exact List.any_eq_true.2 ⟨item.1, List.mem_map_of_mem hitem, decide_eq_true rfl⟩

/-- An encoded document is one line of ASCII. -/
theorem encode_line {fields : Fields} (hjson : PyJson.IsJson C.floats P (.dict fields))
    {line : Bytes} (h : C.encode fields = some line) :
    ∃ body, line = body ++ [10] ∧ (10 : UInt8) ∉ body ∧ ∀ b ∈ line, b.toNat < 0x80 := by
  obtain ⟨text, htext, rfl⟩ := Option.map_eq_some_iff.1 h
  have hprintable := printable_dumps hjson htext
  have hline : encodeAscii (text ++ [cp '\n']) = encodeAscii text ++ [10] := by
    rw [encodeAscii, List.map_append]
    rfl
  have hbyte : ∀ b ∈ encodeAscii text, 32 ≤ b.toNat ∧ b.toNat < 0x80 := by
    intro b hb
    obtain ⟨c, hc, rfl⟩ := List.mem_map.1 hb
    obtain ⟨hlow, hhigh⟩ := hprintable c hc
    rw [UInt8.toNat_ofNat', Nat.mod_eq_of_lt (by omega)]
    omega
  refine ⟨encodeAscii text, hline, fun hmem => ?_, fun b hb => ?_⟩
  · exact absurd (hbyte 10 hmem).1 (by decide)
  · rw [hline, List.mem_append, List.mem_singleton] at hb
    rcases hb with hb | rfl
    · exact (hbyte b hb).2
    · decide

/-- An encoded document is read back. -/
theorem loadRequest_encode {fields : Fields}
    (hjson : PyJson.IsJson C.floats Str.Unpaired (.dict fields)) {line : Bytes}
    (h : C.encode fields = some line) :
    ∃ raw, C.reader.loadRequest line = .ok raw ∧ SameFields fields raw := by
  obtain ⟨text, htext, rfl⟩ := Option.map_eq_some_iff.1 h
  have hprintable := printable_dumps hjson htext
  have hascii : Str.IsAscii (text ++ [cp '\n']) := by
    intro c hc
    rcases List.mem_append.1 hc with hc | hc
    · obtain ⟨hlow, hhigh⟩ := hprintable c hc
      exact ⟨by omega, by omega⟩
    · rw [List.mem_singleton.1 hc]
      decide
  obtain ⟨w, hloads, hsame⟩ : ∃ w, PyJson.loads ⟨C.limits, C.floats.read, true⟩
      (text ++ [cp '\n']) = .ok w ∧ PyJson.Same (.dict fields) w := loads_dumps hjson htext
  obtain ⟨raw, rfl, hfields⟩ := hsame.dict_inv hjson.nodup
  refine ⟨raw, ?_, hfields⟩
  have hdecode : C.reader.decode (encodeAscii (text ++ [cp '\n'])) = some (text ++ [cp '\n']) :=
    decode_ascii hascii
  have hread : C.reader.loads (encodeAscii (text ++ [cp '\n'])) true = .ok (.dict raw) := by
    rw [Reader.loads, hdecode]
    exact hloads
  rw [Reader.loadRequest, hread]
  rfl

/-! ## The object of a frame -/

private theorem dictOf_same {fields raw inner : Fields} (name : Str)
    (hinner : (inner.map Prod.fst).Nodup) (h : SameFields fields raw)
    (hv : fields.get? name = some (.dict inner)) :
    ∃ other, (raw.get? name).bind dictOf = some other ∧ SameFields inner other ∧
      PyJson.Same (.dict inner) (.dict other) := by
  obtain ⟨w, hw, hsame⟩ := h.get? hv
  obtain ⟨other, rfl, hother⟩ := hsame.dict_inv hinner
  exact ⟨other, by rw [hw]; rfl, hother, hsame⟩

private theorem replyOperationId_same {fields raw : Fields} (h : SameFields fields raw)
    {operationId : Option Str} (hvalid : ∀ id ∈ operationId, isOperationId (toText id) = true)
    (hv : fields.get? (lit "operation_id") = some (operationIdValue operationId)) :
    replyOperationId (raw.get? (lit "operation_id")) = .ok operationId := by
  cases operationId with
  | none =>
      rw [h.none hv]
      rfl
  | some id =>
      rw [h.str hv, replyOperationId, require, if_pos (hvalid id rfl)]
      rfl

private theorem nodup_errorFields (error : WorkerError) :
    ((fieldsOf [("category", .str error.category), ("message", .str error.message)]).map
      Prod.fst).Nodup := by
  have hne : lit "category" ≠ lit "message" := by simp
  simp [fieldsOf, hne]

private theorem parseError_same {fields raw : Fields} (h : SameFields fields raw)
    {error : WorkerError} (hv : fields.get? (lit "error") = some error.value) :
    parseError (raw.get? (lit "error")) = .ok error := by
  obtain ⟨other, hother, hsame, -⟩ := dictOf_same (lit "error") (nodup_errorFields error) h hv
  have hfields : hasFields other errorFields = true := by
    rw [hasFields_same hsame]
    exact hasFields_fieldsOf _
  have hcategory : strOf (other.get? (lit "category")) = some error.category := by
    rw [hsame.str (t := error.category) (by simp)]
    rfl
  have hmessage : strOf (other.get? (lit "message")) = some error.message := by
    rw [hsame.str (t := error.message) (by simp)]
    rfl
  simp only [parseError, hother, hfields, hcategory, hmessage, error.known, error.nonempty,
    orRaise, require, WorkerError.build, ok_bind, ne_eq, not_false_eq_true, if_true, and_self,
    dif_pos]

/-- A reply is read back from equal fields. -/
private theorem parseReply_same {response : WorkerResponse} {raw : Fields}
    (h : SameFields response.fields raw) :
    ∃ other, parseReply raw = .ok other ∧ Frame.Same (.reply response) (.reply other) := by
  obtain ⟨requestId, result, error, operationId, hnonempty, hexclusive, hvalid⟩ := response
  have hid : strOf (raw.get? (lit "request_id")) = some requestId := by
    rw [h.str (t := requestId) (by cases error <;> simp [WorkerResponse.fields])]
    rfl
  have hoperation := replyOperationId_same h hvalid
    (by cases error <;> simp [WorkerResponse.fields])
  cases error with
  | none =>
      have hok : raw.get? (lit "ok") = some (.bool true) :=
        h.bool (by simp [WorkerResponse.fields])
      have hfields : hasFields raw (replyFields true) = true := by
        rw [hasFields_same h]
        exact hasFields_fieldsOf _
      obtain ⟨w, hresult, hsame⟩ : ∃ w, raw.get? (lit "result") = some w ∧ PyJson.Same result w :=
        h.get? (by simp [WorkerResponse.fields])
      refine ⟨⟨requestId, w, none, operationId, hnonempty, (fun h => by cases h), hvalid⟩, ?_,
        rfl, hsame, rfl, rfl⟩
      simp only [parseReply, hok, boolOf, orRaise, ok_bind, require, hfields, hid, ne_eq, hnonempty,
        not_false_eq_true, hoperation, hresult, if_true, WorkerResponse.build]
      exact dif_pos ⟨trivial, hvalid⟩
  | some error =>
      obtain rfl := hexclusive rfl
      have hok : raw.get? (lit "ok") = some (.bool false) :=
        h.bool (by simp [WorkerResponse.fields])
      have hfields : hasFields raw (replyFields false) = true := by
        rw [hasFields_same h]
        exact hasFields_fieldsOf _
      have hget : Fields.get? (WorkerResponse.fields ⟨requestId, .none, some error, operationId,
          hnonempty, hexclusive, hvalid⟩) (lit "error") = some error.value := by
        simp [WorkerResponse.fields]
      have herror := parseError_same h hget
      refine ⟨⟨requestId, .none, some error, operationId, hnonempty, hexclusive, hvalid⟩, ?_,
        rfl, .refl _, rfl, rfl⟩
      simp only [parseReply, hok, boolOf, orRaise, ok_bind, require, hfields, hid, ne_eq, hnonempty,
        not_false_eq_true, hoperation, herror, if_true, Bool.false_eq_true, if_false,
        WorkerResponse.build]
      exact dif_pos ⟨trivial, hvalid⟩

private theorem isEvent_same {event other : Fields} (h : SameFields event other)
    (hevent : isEvent event = true) : isEvent other = true := by
  unfold isEvent at hevent ⊢
  rw [Bool.and_eq_true, Bool.and_eq_true] at hevent ⊢
  obtain ⟨⟨hfields, hkind⟩, hpayload⟩ := hevent
  refine ⟨⟨hasFields_same h _ ▸ hfields, ?_⟩, ?_⟩
  · cases hget : event.get? (lit "kind") with
    | none => rw [hget] at hkind; cases hkind
    | some kind =>
        cases kind with
        | str text => rwa [h.str hget, ← hget]
        | _ => rw [hget] at hkind; cases hkind
  · cases hget : event.get? (lit "payload") with
    | none => rw [hget] at hpayload; cases hpayload
    | some payload =>
        cases payload with
        | dict fields =>
            obtain ⟨w, hw, hsame⟩ := h.get? hget
            cases hsame <;> rw [hw] <;> rfl
        | _ => rw [hget] at hpayload; cases hpayload

/-- An event is read back from equal fields. -/
private theorem parseEventFrame_same {report : WorkerEvent} {raw : Fields}
    (hnodup : (report.event.map Prod.fst).Nodup) (h : SameFields report.fields raw) :
    ∃ other, parseEventFrame raw = .ok other ∧ Frame.Same (.event report) (.event other) := by
  obtain ⟨operationId, sequence, event, hvalid, hnatural, hevent⟩ := report
  have hfields : hasFields raw eventFrameFields = true := by
    rw [hasFields_same h]
    exact hasFields_fieldsOf _
  have hoperation : strOf (raw.get? (lit "operation_id")) = some operationId := by
    rw [h.str (t := operationId) (by simp [WorkerEvent.fields])]
    rfl
  have hsequence : intOf (raw.get? (lit "sequence")) = some sequence := by
    rw [h.int (n := sequence) (by simp [WorkerEvent.fields])]
    rfl
  obtain ⟨other, hother, hsameFields, hsame⟩ := dictOf_same (lit "event") hnodup h
    (by simp [WorkerEvent.fields])
  have hagain := isEvent_same hsameFields hevent
  refine ⟨⟨operationId, sequence, other, hvalid, hnatural, hagain⟩, ?_, rfl, rfl, hsame⟩
  simp only [parseEventFrame, hfields, hoperation, hvalid, hsequence, hnatural, validateEvent,
    hother, hagain, orRaise, require, ok_bind, if_true, WorkerEvent.build]
  exact dif_pos ⟨trivial, trivial, hagain⟩

/-- The fields of a frame are read as an equal frame. -/
theorem parseFields_same {frame : Frame} {raw : Fields} (hjson : frame.IsJson F P)
    (h : SameFields frame.fields raw) :
    ∃ other, parseFields raw = .ok other ∧ frame.Same other := by
  have hne : (some (lit "event") : Option Str) ≠ some (lit "reply") := by simp
  cases frame with
  | reply response =>
      obtain ⟨other, hother, hsame⟩ := parseReply_same h
      have hprotocol : strOf (raw.get? (lit "protocol")) = some protocolV2 := by
        rw [h.str (t := protocolV2)
          (by cases herror : response.error <;> simp [Frame.fields, WorkerResponse.fields, herror])]
        rfl
      have hframe : strOf (raw.get? (lit "frame")) = some (lit "reply") := by
        rw [h.str (t := lit "reply")
          (by cases herror : response.error <;> simp [Frame.fields, WorkerResponse.fields, herror])]
        rfl
      refine ⟨.reply other, ?_, hsame⟩
      rw [parseFields, hprotocol, hframe, if_pos rfl, hother, require, if_pos rfl]
      rfl
  | event report =>
      obtain ⟨other, hother, hsame⟩ := parseEventFrame_same hjson.nodup h
      have hprotocol : strOf (raw.get? (lit "protocol")) = some protocolV2 := by
        rw [h.str (t := protocolV2) (by simp [Frame.fields, WorkerEvent.fields])]
        rfl
      have hframe : strOf (raw.get? (lit "frame")) = some (lit "event") := by
        rw [h.str (t := lit "event") (by simp [Frame.fields, WorkerEvent.fields])]
        rfl
      refine ⟨.event other, ?_, hsame⟩
      rw [parseFields, hprotocol, hframe, if_neg hne, if_pos rfl, hother, require, if_pos rfl]
      rfl

/-! ## What a line can hold -/

private theorem strOf_eq_some {value : Option Value} {text : Str} :
    strOf value = some text ↔ value = some (.str text) := by
  cases value with
  | none => simp [strOf]
  | some value => cases value <;> simp [strOf]

private theorem bind_dictOf_eq_some {value : Option Value} {fields : Fields} :
    value.bind dictOf = some fields ↔ value = some (.dict fields) := by
  cases value with
  | none => simp
  | some value => cases value <;> simp [dictOf]

private theorem intOf_eq_some {value : Option Value} {n : ℤ} :
    intOf value = some n ↔ value = some (.int n) := by
  cases value with
  | none => simp [intOf]
  | some value => cases value <;> simp [intOf]

private theorem IsJson.text {text : Str} (h : PyJson.IsJson F P (.str text)) : P text := by
  cases h with
  | str htext => exact htext

/-- The error of a reply: its message is a text of the line. -/
private theorem parseError_eq_ok {value : Option Value} {error : WorkerError}
    (h : parseError value = .ok error) :
    ∃ fields : Fields, value = some (.dict fields) ∧
      fields.get? (lit "message") = some (.str error.message) := by
  simp only [parseError, bind_eq_ok, orRaise_eq_ok, require_eq_ok, bind_dictOf_eq_some,
    strOf_eq_some] at h
  obtain ⟨fields, hfields, -, -, category, -, -, -, message, hmessage, -, -, h⟩ := h
  unfold WorkerError.build at h
  split at h
  · obtain rfl := Except.ok.inj h
    exact ⟨fields, hfields, hmessage⟩
  · cases h

/-- A reply is made of texts of the line and of its result. -/
private theorem parseReply_eq_ok {raw : Fields} {response : WorkerResponse}
    (h : parseReply raw = .ok response) :
    raw.get? (lit "request_id") = some (.str response.requestId) ∧
      match response.error with
      | none => raw.get? (lit "result") = some response.result
      | some error => ∃ fields : Fields, raw.get? (lit "error") = some (.dict fields) ∧
          fields.get? (lit "message") = some (.str error.message) ∧ response.result = .none := by
  simp only [parseReply, bind_eq_ok, orRaise_eq_ok, require_eq_ok, strOf_eq_some] at h
  obtain ⟨ok, -, -, -, requestId, hid, -, -, operationId, -, h⟩ := h
  cases ok with
  | true =>
      simp only [if_true, bind_eq_ok, orRaise_eq_ok] at h
      obtain ⟨result, hresult, h⟩ := h
      unfold WorkerResponse.build at h
      split at h
      · obtain rfl := Except.ok.inj h
        exact ⟨hid, hresult⟩
      · cases h
  | false =>
      simp only [Bool.false_eq_true, if_false, bind_eq_ok] at h
      obtain ⟨error, herror, h⟩ := h
      obtain ⟨fields, hfields, hmessage⟩ := parseError_eq_ok herror
      unfold WorkerResponse.build at h
      split at h
      · obtain rfl := Except.ok.inj h
        exact ⟨hid, fields, hfields, hmessage, rfl⟩
      · cases h

private theorem parseEventFrame_eq_ok {raw : Fields} {report : WorkerEvent}
    (h : parseEventFrame raw = .ok report) :
    raw.get? (lit "sequence") = some (.int report.sequence) ∧
      raw.get? (lit "event") = some (.dict report.event) := by
  simp only [parseEventFrame, validateEvent, bind_eq_ok, orRaise_eq_ok, require_eq_ok,
    strOf_eq_some, intOf_eq_some, bind_dictOf_eq_some, pure_eq_ok] at h
  obtain ⟨-, -, operationId, -, -, -, sequence, hsequence, -, -, event,
    ⟨_, hevent, -, -, rfl⟩, h⟩ := h
  unfold WorkerEvent.build at h
  split at h
  · obtain rfl := Except.ok.inj h
    exact ⟨hsequence, hevent⟩
  · cases h

private theorem parseFields_eq_ok {raw : Fields} {frame : Frame} (h : parseFields raw = .ok frame) :
    match frame with
    | .reply response => parseReply raw = .ok response
    | .event report => parseEventFrame raw = .ok report := by
  unfold parseFields at h
  rw [bind_eq_ok] at h
  obtain ⟨-, -, h⟩ := h
  split at h
  · rw [bind_eq_ok] at h
    obtain ⟨response, hresponse, h⟩ := h
    obtain rfl := Except.ok.inj h
    exact hresponse
  · split at h
    · rw [bind_eq_ok] at h
      obtain ⟨report, hreport, h⟩ := h
      obtain rfl := Except.ok.inj h
      exact hreport
    · cases h

/-- JSON represents a frame that was read. -/
theorem isJson_of_parseFields {raw : Fields} (hraw : PyJson.IsJson F P (.dict raw)) {frame : Frame}
    (h : parseFields raw = .ok frame) : frame.IsJson F P := by
  have hframe := parseFields_eq_ok h
  cases frame with
  | reply response =>
      obtain ⟨hid, hrest⟩ := parseReply_eq_ok hframe
      refine ⟨IsJson.text (hraw.get? hid).2, fun error herror => ?_, ?_⟩
      · rw [Option.mem_def.1 herror] at hrest
        obtain ⟨fields, hfields, hmessage, -⟩ := hrest
        exact IsJson.text ((hraw.get? hfields).2.get? hmessage).2
      · cases herror : response.error with
        | none =>
            rw [herror] at hrest
            exact (hraw.get? hrest).2
        | some error =>
            rw [herror] at hrest
            obtain ⟨-, -, -, hnone⟩ := hrest
            rw [hnone]
            exact .none
  | event report => exact (hraw.get? (parseEventFrame_eq_ok hframe).2).2

private theorem dump_operationId {depth : ℕ} (operationId : Option Str) :
    (dump limits F depth (operationIdValue operationId)).isSome = true := by
  cases operationId <;> simp [operationIdValue]

/-- A frame that was read can be written again. -/
theorem dump_of_parseFields {depth : ℕ} {raw : Fields} (hraw : PyJson.IsJson F P (.dict raw))
    (hdump : (dump limits F depth (.dict raw)).isSome = true) {frame : Frame}
    (h : parseFields raw = .ok frame) :
    (dump limits F depth (.dict frame.fields)).isSome = true := by
  have hframe := parseFields_eq_ok h
  cases frame with
  | reply response =>
      obtain ⟨hid, hrest⟩ := parseReply_eq_ok hframe
      obtain ⟨less, rfl, -⟩ := dump_get? hraw hdump hid
      have hoperation : (dump limits F less (operationIdValue response.operationId)).isSome =
          true := dump_operationId response.operationId
      rw [Frame.fields, WorkerResponse.fields]
      cases herror : response.error with
      | none =>
          rw [herror] at hrest
          obtain ⟨_, heq, hresult⟩ := dump_get? hraw hdump hrest
          obtain rfl := Nat.succ.inj heq
          refine dump_fieldsOf fun item hitem => ?_
          simp only [List.mem_cons, List.not_mem_nil, or_false] at hitem
          rcases hitem with rfl | rfl | rfl | rfl | rfl | rfl
          · simp
          · simp
          · simp
          · exact hoperation
          · simp
          · exact hresult
      | some error =>
          rw [herror] at hrest
          obtain ⟨fields, hfields, hmessage, -⟩ := hrest
          obtain ⟨_, heq, hinner⟩ := dump_get? hraw hdump hfields
          obtain rfl := Nat.succ.inj heq
          obtain ⟨least, rfl, -⟩ := dump_get? (hraw.get? hfields).2 hinner hmessage
          refine dump_fieldsOf fun item hitem => ?_
          simp only [List.mem_cons, List.not_mem_nil, or_false] at hitem
          rcases hitem with rfl | rfl | rfl | rfl | rfl | rfl
          · simp
          · simp
          · simp
          · exact hoperation
          · simp
          · refine dump_fieldsOf fun item hitem => ?_
            simp only [List.mem_cons, List.not_mem_nil, or_false] at hitem
            rcases hitem with rfl | rfl <;> simp
  | event report =>
      obtain ⟨hsequence, hevent⟩ := parseEventFrame_eq_ok hframe
      obtain ⟨less, rfl, hint⟩ := dump_get? hraw hdump hsequence
      obtain ⟨_, heq, hinner⟩ := dump_get? hraw hdump hevent
      obtain rfl := Nat.succ.inj heq
      rw [Frame.fields, WorkerEvent.fields]
      refine dump_fieldsOf fun item hitem => ?_
      simp only [List.mem_cons, List.not_mem_nil, or_false] at hitem
      rcases hitem with rfl | rfl | rfl | rfl | rfl
      · simp
      · simp
      · simp
      · exact hint
      · exact hinner

/-! ## Round trips -/

private theorem isUtf8_of_toText {id : Str} (h : ∀ c ∈ toText id, c ≠ Char.ofNat 0xFFFD) :
    id.IsUtf8 := by
  intro c hc
  by_contra hsurrogate
  have hinvalid : ¬c.val.isValidChar := by
    intro hvalid
    rcases hvalid with hlow | ⟨hhigh, -⟩
    · exact hsurrogate (.inl hlow)
    · exact hsurrogate (.inr hhigh)
  exact h (Char.ofNat 0xFFFD) (List.mem_map.2 ⟨c, hc, if_neg hinvalid⟩) rfl

private theorem isUtf8_operationId {id : Str} (h : isOperationId (toText id) = true) :
    id.IsUtf8 := by
  have hreplacement : (Char.ofNat 0xFFFD).isAlphanum = false := by decide
  refine isUtf8_of_toText ?_
  rintro c hc rfl
  unfold isOperationId at h
  split at h
  · rename_i hnil
    rw [hnil] at hc
    cases hc
  · rename_i first rest htext
    rw [htext] at hc
    rw [decide_eq_true_eq] at h
    obtain ⟨hfirst, -, hrest⟩ := h
    rcases List.mem_cons.1 hc with rfl | hc
    · rw [hreplacement] at hfirst
      cases hfirst
    · have hchar := List.all_eq_true.1 hrest _ hc
      revert hchar
      decide

private theorem isJson_operationId (hutf8 : ∀ {text : Str}, text.IsUtf8 → P text)
    {operationId : Option Str} (h : ∀ id ∈ operationId, isOperationId (toText id) = true) :
    PyJson.IsJson F P (operationIdValue operationId) := by
  cases operationId with
  | none => exact .none
  | some id => exact .str (hutf8 (isUtf8_operationId (h id rfl)))

private theorem isJson_category (hutf8 : ∀ {text : Str}, text.IsUtf8 → P text)
    (error : WorkerError) : P error.category := by
  obtain ⟨known, -, hknown⟩ := List.any_eq_true.1 error.known
  rw [of_decide_eq_true hknown]
  exact hutf8 (isUtf8_lit known)

/-- JSON represents the fields of a frame if it represents what the frame carries. -/
theorem isJson_fields (hutf8 : ∀ {text : Str}, text.IsUtf8 → P text) {frame : Frame}
    (h : frame.IsJson F P) : PyJson.IsJson F P (.dict frame.fields) := by
  have hlit : ∀ text, P (lit text) := fun text => hutf8 (isUtf8_lit text)
  cases frame with
  | reply response =>
      obtain ⟨hid, hmessage, hresult⟩ := h
      have hoperation := isJson_operationId (F := F) hutf8 response.valid
      rw [Frame.fields, WorkerResponse.fields]
      cases herror : response.error with
      | none =>
          refine isJson_fieldsOf (by simp) hlit fun item hitem => ?_
          simp only [List.mem_cons, List.not_mem_nil, or_false] at hitem
          rcases hitem with rfl | rfl | rfl | rfl | rfl | rfl
          · exact .str (hlit "cortex-worker/2")
          · exact .str (hlit "reply")
          · exact .str hid
          · exact hoperation
          · exact .bool true
          · exact hresult
      | some error =>
          refine isJson_fieldsOf (by simp) hlit fun item hitem => ?_
          simp only [List.mem_cons, List.not_mem_nil, or_false] at hitem
          rcases hitem with rfl | rfl | rfl | rfl | rfl | rfl
          · exact .str (hlit "cortex-worker/2")
          · exact .str (hlit "reply")
          · exact .str hid
          · exact hoperation
          · exact .bool false
          · refine isJson_fieldsOf (by simp) hlit fun item hitem => ?_
            simp only [List.mem_cons, List.not_mem_nil, or_false] at hitem
            rcases hitem with rfl | rfl
            · exact .str (isJson_category hutf8 error)
            · exact .str (hmessage error herror)
  | event report =>
      rw [Frame.fields, WorkerEvent.fields]
      refine isJson_fieldsOf (by simp) hlit fun item hitem => ?_
      simp only [List.mem_cons, List.not_mem_nil, or_false] at hitem
      rcases hitem with rfl | rfl | rfl | rfl | rfl
      · exact .str (hlit "cortex-worker/2")
      · exact .str (hlit "event")
      · exact .str (hutf8 (isUtf8_operationId report.valid))
      · exact .int _
      · exact h

/-- An encoded frame is read as an equal frame. -/
theorem parseFrame_encode {frame : Frame} (hjson : frame.IsJson C.floats Str.Unpaired)
    {line : Bytes} (h : C.encodeFrame frame = some line) :
    ∃ other, C.parseFrame line = .ok other ∧ frame.Same other := by
  obtain ⟨raw, hraw, hfields⟩ :=
    loadRequest_encode (isJson_fields (fun htext => unpaired_of_isUtf8 htext) hjson) h
  obtain ⟨other, hother, hsame⟩ := parseFields_same hjson hfields
  exact ⟨other, by rw [Codec.parseFrame, hraw, ok_bind, hother], hsame⟩

private theorem loads_of_parseFrame {line : Bytes} {frame : Frame}
    (h : C.parseFrame line = .ok frame) :
    ∃ text raw, PyJson.decode line = some text ∧
      PyJson.loads ⟨C.limits, C.floats.read, true⟩ text = .ok (.dict raw) ∧
      parseFields raw = .ok frame := by
  obtain ⟨raw, hraw, hframe⟩ := bind_eq_ok.1 h
  unfold Reader.loadRequest at hraw
  split at hraw
  · cases hraw
  · cases hraw
  · cases hraw
  · rename_i value hvalue
    have hdict : value = .dict raw := by
      cases value <;> simp_all [dictOf, orRaise]
    unfold Reader.loads at hvalue
    split at hvalue
    · rename_i text htext
      exact ⟨text, raw, htext, hdict ▸ hvalue, hframe⟩
    · cases hvalue

/-- JSON represents a frame of an accepted line, and it can be encoded again. -/
theorem encode_of_parseFrame {line : Bytes} {frame : Frame} (h : C.parseFrame line = .ok frame) :
    frame.IsJson C.floats (fun _ => True) ∧ (C.encodeFrame frame).isSome = true := by
  obtain ⟨text, raw, -, hloads, hframe⟩ := loads_of_parseFrame h
  obtain ⟨hjson, hdump⟩ := loads_accepts passes_true hloads
  have hwritten := dump_of_parseFields (hjson trivial) hdump hframe
  refine ⟨isJson_of_parseFields (hjson trivial) hframe, ?_⟩
  rw [Codec.encodeFrame, Codec.encode, Option.isSome_map]
  exact hwritten

/-- A line without surrogates is read as a frame in which no pair was left apart. -/
theorem unpaired_of_parseFrame {line : Bytes} {text : Str} (htext : PyJson.decode line = some text)
    (hutf8 : text.IsUtf8) {frame : Frame} (h : C.parseFrame line = .ok frame) :
    frame.IsJson C.floats Str.Unpaired := by
  obtain ⟨other, raw, hother, hloads, hframe⟩ := loads_of_parseFrame h
  obtain rfl := Option.some.inj (htext.symm.trans hother)
  exact isJson_of_parseFields ((loads_accepts passes_unpaired hloads).1 hutf8) hframe

end Cortex.Worker
