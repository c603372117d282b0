import Cortex.Delivery.Sending
import Cortex.Worker.FrameRoundTrip

/-!
# The parameters of a send

What the client serialises from a frozen chunk and a destination, and what the worker
asks of it.  The two sides state their bounds apart: characters here and bytes there,
one pattern for the name of a request and another for the name of a reply.
-/

namespace Cortex.Worker

open Py
open PyJson hiding require
open Transaction
open Control (Text)
open OperationLedger (checked)
open Delivery (WireChunk Destination Button wireOperationId buildsRequest isOperationName)

/-! ## What is sent -/

/-- A chunk as `_frozen_projection` builds it and `_validated_chunk` lets it through. -/
structure FrozenChunk where
  /-- The digest that names the delivery. -/
  digest : OperationLedger.Sha256
  index : ℕ
  text : Text
  buttons : List Button
  index_lt : index < 100
  text_ne : text ≠ []
  text_le : Delivery.utf8Length text ≤ 4096
  text_control : ∀ c ∈ text, c.toNat < 32 → c = '\n' ∨ c = '\t'
  buttons_le : buttons.length ≤ 6
  buttons_valid : buttons.all Button.isValid = true

/-- The name of the delivery. -/
def deliveryOperationId (digest : Text) : Text := "telegram.delivery.".toList ++ digest

/-- `transport_delivery_chunk_operation_id`. -/
def chunkOperationId (operationId : Text) (index : ℕ) : Text :=
  operationId ++ ":chunk:".toList ++ (toString index).toList

def FrozenChunk.wire (chunk : FrozenChunk) : WireChunk where
  operationId := chunkOperationId (deliveryOperationId chunk.digest.val) chunk.index
  text := chunk.text
  buttons := chunk.buttons

/-- A text as the dynamic language has it. -/
def strValue (text : Text) : Value := .str (ofChars text)

def topicValue : Option ℤ → Value
  | some topicId => .int topicId
  | none => .none

def buttonValue (button : Button) : Value :=
  .dict (fieldsOf [("label", strValue button.label),
    ("callback_data", strValue button.callbackData)])

/-- `_serialize_send_request`. -/
def sendFields (operationId : Text) (chunk : WireChunk) (destination : Destination) : Fields :=
  fieldsOf [("schema_version", .int 1), ("operation_id", strValue operationId),
    ("chat_id", .int destination.chatId), ("topic_id", topicValue destination.topicId),
    ("text", strValue chunk.text), ("parse_mode", .str (lit "MarkdownV2")),
    ("buttons", .seq false (chunk.buttons.map buttonValue))]

/-- The parameters of the request that `send_chunk` builds; nothing where it raises. -/
def sendParams (chunk : WireChunk) (destination : Destination) : Option Fields :=
  if buildsRequest chunk destination then
    (wireOperationId chunk.operationId).map fun operationId =>
      sendFields operationId chunk destination
  else none

/-- `_validate_params`. -/
def validateParams (method : Method) (params : Fields) : Except LineError Request := do
  require (hasFields params method.fields = true) .violation
  validateMethod params method

/-! ## Texts -/

private theorem toText_ofChars (text : Text) : toText (ofChars text) = text := by
  unfold toText ofChars
  rw [List.map_map]
  refine (List.map_congr_left fun c _ => ?_).trans (List.map_id text)
  have hvalid : c.toNat.isValidChar := c.valid
  rw [Function.comp_apply, if_pos hvalid]
  exact Char.ofNat_toNat c

private theorem isUtf8_ofChars (text : Text) : (ofChars text).IsUtf8 := by
  intro c hc
  obtain ⟨char, -, rfl⟩ := List.mem_map.1 hc
  rcases char.valid with h | ⟨h, -⟩
  · exact .inl h
  · exact .inr h

private theorem utf8Length_ofChars (text : Text) :
    utf8Length (ofChars text) = .ok (Delivery.utf8Length text) := by
  have hsize : ∀ c : Char, (if c.toNat < 0x80 then 1 else if c.toNat < 0x800 then 2
      else if c.toNat < 0x10000 then 3 else 4) = c.utf8Size := by
    intro c
    have hval : c.toNat = c.val.toNat := rfl
    simp only [Char.utf8Size, UInt32.le_iff_toNat_le, UInt32.toNat_ofNatLT, hval]
    split_ifs <;> omega
  unfold utf8Length Delivery.utf8Length
  rw [require, if_pos (isUtf8_ofChars text), ok_bind, ofChars, List.map_map]
  exact congrArg Except.ok (congrArg List.sum (List.map_congr_left fun c _ => hsize c))

private theorem length_ofChars (text : Text) : (ofChars text).length = text.length :=
  List.length_map _

private theorem length_le_utf8Length (text : Text) : text.length ≤ Delivery.utf8Length text := by
  induction text with
  | nil => exact le_rfl
  | cons c text ih =>
      have hpos := c.utf8Size_pos
      rw [Delivery.utf8Length, List.map_cons, List.sum_cons, ← Delivery.utf8Length,
        List.length_cons]
      omega

/-! ## Names -/

/-- A name for the wire fits the pattern of a request. -/
private theorem isTelegramOperationId_wire {operationId wire : Text}
    (h : wireOperationId operationId = some wire) : isTelegramOperationId wire = true := by
  have hchar : ∀ c, Delivery.isOperationChar c = true →
      (c.isAlphanum ∨ c = '.' ∨ c = '_' ∨ c = ':' ∨ c = '-') := by
    intro c hc
    simp only [Delivery.isOperationChar, List.mem_cons, List.not_mem_nil, or_false,
      decide_eq_true_eq] at hc
    tauto
  have hdigit : ∀ c : Char, c.isDigit = true → c.isAlphanum = true := by
    intro c hc
    rw [Char.isAlphanum, hc, Bool.or_true]
  unfold wireOperationId at h
  split at h
  · rename_i base chunk index hsplit
    dsimp only at h
    split at h
    · rename_i hchecks
      obtain ⟨-, hbase, rfl, -, -, hindex, -, hlength⟩ := hchecks
      obtain rfl := Option.some.inj h
      unfold isOperationName at hbase
      split at hbase
      · cases hbase
      · rename_i c rest
        rw [decide_eq_true_eq] at hbase
        obtain ⟨hfirst, hrest⟩ := hbase
        simp only [List.cons_append, List.length_cons] at hlength
        simp only [isTelegramOperationId, List.cons_append, decide_eq_true_eq]
        refine ⟨hfirst, by omega, List.all_eq_true.2 fun d hd => ?_⟩
        rw [decide_eq_true_eq]
        simp only [List.mem_append, List.mem_cons] at hd
        rcases hd with (hd | rfl | hd) | rfl | hd
        · exact hchar d (List.all_eq_true.1 hrest d hd)
        · exact .inr (.inl rfl)
        · exact .inl (List.all_eq_true.1 (show "chunk".toList.all Char.isAlphanum = true by decide)
            d hd)
        · exact .inr (.inl rfl)
        · exact .inl (hdigit d (List.all_eq_true.1 hindex d hd))
    · cases h
  · cases h

private theorem isDigit_toString : ∀ index < 100, ((toString index).toList.all Char.isDigit &&
    decide (1 ≤ (toString index).toList.length ∧ (toString index).toList.length ≤ 2)) = true := by
  decide

private theorem isAlphanum_of_hex {c : Char} (hlow : 'a' ≤ c) (hhigh : c ≤ 'f') :
    c.isAlphanum = true := by
  have hletters : ∀ n < 6, (Char.ofNat (97 + n)).isAlphanum = true := by decide
  have hlow : 97 ≤ c.toNat := hlow
  have hhigh : c.toNat ≤ 102 := hhigh
  have hletter := hletters (c.toNat - 97) (by omega)
  rwa [Nat.add_sub_cancel' hlow, Char.ofNat_toNat] at hletter

/-- The name of a delivery has letters, digits and dots, and no `k`. -/
private theorem mem_deliveryOperationId {digest : OperationLedger.Sha256} {c : Char}
    (hc : c ∈ deliveryOperationId digest.val) :
    Delivery.isOperationChar c = true ∧ c ≠ ':' ∧ c ≠ 'k' := by
  rcases List.mem_append.1 hc with hc | hc
  · have hall : ("telegram.delivery.".toList.all fun c =>
        decide (Delivery.isOperationChar c = true ∧ c ≠ ':' ∧ c ≠ 'k')) = true := by decide
    exact of_decide_eq_true (List.all_eq_true.1 hall c hc)
  · obtain ⟨-, hhex⟩ := of_decide_eq_true digest.property
    have hchar := of_decide_eq_true (List.all_eq_true.1 hhex c hc)
    have halnum : c.isAlphanum = true := by
      rcases hchar with hdigit | ⟨hlow, hhigh⟩
      · rw [Char.isAlphanum, hdigit, Bool.or_true]
      · exact isAlphanum_of_hex hlow hhigh
    refine ⟨by simp [Delivery.isOperationChar, halnum], ?_, ?_⟩
    · rintro rfl
      revert halnum
      decide
    · rintro rfl
      revert hchar
      decide

/-- A chunk of a delivery has a name for the wire. -/
private theorem wireOperationId_chunk (chunk : FrozenChunk) :
    (wireOperationId chunk.wire.operationId).isSome = true := by
  obtain ⟨hlength, -⟩ := of_decide_eq_true chunk.digest.property
  have hindex := isDigit_toString chunk.index chunk.index_lt
  rw [Bool.and_eq_true, decide_eq_true_eq] at hindex
  obtain ⟨hdigits, hpos, htwo⟩ := hindex
  have hbaseColon : ':' ∉ deliveryOperationId chunk.digest.val :=
    fun hc => (mem_deliveryOperationId hc).2.1 rfl
  have hindexColon : ':' ∉ (toString chunk.index).toList := fun hc =>
    absurd (List.all_eq_true.1 hdigits _ hc) (by decide)
  have hchunkColon : ':' ∉ "chunk".toList := by decide
  have hname : isOperationName (deliveryOperationId chunk.digest.val) = true := by
    have hrest : ("elegram.delivery.".toList ++ chunk.digest.val).all Delivery.isOperationChar =
        true := List.all_eq_true.2 fun c hc =>
      (mem_deliveryOperationId (List.mem_cons_of_mem 't' hc)).1
    have hcons : deliveryOperationId chunk.digest.val =
        't' :: ("elegram.delivery.".toList ++ chunk.digest.val) := rfl
    rw [hcons, isOperationName]
    exact decide_eq_true ⟨by decide, hrest⟩
  have hinside : ¬".chunk.".toList <:+: deliveryOperationId chunk.digest.val := by
    intro hinside
    have hmem : 'k' ∈ deliveryOperationId chunk.digest.val :=
      List.IsInfix.subset hinside (show 'k' ∈ ".chunk.".toList by decide)
    exact (mem_deliveryOperationId hmem).2.2 rfl
  have hbase : (deliveryOperationId chunk.digest.val).length = 82 := by
    have hname : "telegram.delivery.".toList.length = 18 := by decide
    have happend : (deliveryOperationId chunk.digest.val).length =
        "telegram.delivery.".toList.length + chunk.digest.val.length := List.length_append
    omega
  have hparts : chunk.wire.operationId = deliveryOperationId chunk.digest.val ++
      ':' :: ("chunk".toList ++ ':' :: (toString chunk.index).toList) := by
    simp only [FrozenChunk.wire, chunkOperationId, List.append_assoc]
    rfl
  have hsplit : chunk.wire.operationId.splitOn ':' =
      [deliveryOperationId chunk.digest.val, "chunk".toList, (toString chunk.index).toList] := by
    rw [hparts, List.splitOn_append_cons_self, List.splitOn_append_cons_self,
      List.splitOn_eq_singleton hbaseColon, List.splitOn_eq_singleton hchunkColon,
      List.splitOn_eq_singleton hindexColon]
    rfl
  have hchunkLength : "chunk".toList.length = 5 := by decide
  have hledger : chunk.wire.operationId.length ≤ 200 := by
    rw [hparts]
    simp only [List.length_append, List.length_cons, hbase, hchunkLength]
    omega
  have hwire : (deliveryOperationId chunk.digest.val ++ '.' :: "chunk".toList ++
      '.' :: (toString chunk.index).toList).length ≤ 128 := by
    simp only [List.length_append, List.length_cons, hbase, hchunkLength]
    omega
  rw [wireOperationId, hsplit]
  dsimp only
  rw [if_pos ⟨hledger, hname, rfl, hpos, htwo, hdigits, hinside, hwire⟩, Option.isSome_some]

/-! ## The checks -/

private theorem validateButton_value {button : Button} (h : button.isValid = true) :
    validateButton (buttonValue button) = .ok () := by
  obtain ⟨hlabel, hlabel', -, hdata, hdata', -⟩ := of_decide_eq_true h
  have hfields : hasFields (fieldsOf [("label", strValue button.label),
      ("callback_data", strValue button.callbackData)]) buttonFields = true :=
    hasFields_fieldsOf _
  have hgetLabel : strOf (Fields.get? (fieldsOf [("label", strValue button.label),
      ("callback_data", strValue button.callbackData)]) (lit "label")) =
        some (ofChars button.label) := by
    simp [strValue, strOf]
  have hgetData : strOf (Fields.get? (fieldsOf [("label", strValue button.label),
      ("callback_data", strValue button.callbackData)]) (lit "callback_data")) =
        some (ofChars button.callbackData) := by
    simp [strValue, strOf]
  rw [← length_ofChars] at hlabel hlabel'
  simp only [validateButton, buttonValue, dictOf, orRaise, ok_bind, require, hfields, if_true,
    hgetLabel, hgetData, utf8Length_ofChars, if_pos (And.intro hlabel hlabel'),
    if_pos (And.intro hdata hdata')]

private theorem validateButtons_values {buttons : List Button}
    (h : buttons.all Button.isValid = true) :
    validateButtons (buttons.map buttonValue) = .ok () := by
  induction buttons with
  | nil => rfl
  | cons button buttons ih =>
      rw [List.all_cons, Bool.and_eq_true] at h
      rw [List.map_cons, validateButtons, validateButton_value h.1, ok_bind, ih h.2]

private theorem requireOptionalInt_topic {topicId : Option ℤ} (h : ∀ t ∈ topicId, 1 ≤ t) :
    requireOptionalInt (some (topicValue topicId)) 1 = .ok () := by
  cases topicId with
  | none => rfl
  | some topicId => simp [requireOptionalInt, topicValue, intOf, orRaise, require, h topicId rfl]

/-- What is serialised passes the checks of the worker, if the text is short enough in bytes. -/
theorem validateParams_sendParams {chunk : WireChunk} {destination : Destination}
    (hbytes : Delivery.utf8Length chunk.text ≤ 4096) {params : Fields}
    (h : sendParams chunk destination = some params) :
    validateParams .telegramSend params = .ok .telegramCall := by
  unfold sendParams at h
  split at h
  · rename_i hbuilds
    obtain ⟨-, -, htopic, hne, -, -, hbuttons, hvalid⟩ := of_decide_eq_true hbuilds
    obtain ⟨operationId, hwire, rfl⟩ := Option.map_eq_some_iff.1 h
    have hname : checked isTelegramOperationId operationId =
        some ⟨operationId, isTelegramOperationId_wire hwire⟩ :=
      dif_pos (isTelegramOperationId_wire hwire)
    have htext : 1 ≤ Delivery.utf8Length chunk.text := by
      obtain ⟨c, rest, hcons⟩ := List.exists_cons_of_ne_nil hne
      have hpos := c.utf8Size_pos
      rw [hcons, Delivery.utf8Length, List.map_cons, List.sum_cons]
      omega
    have hfields : hasFields (sendFields operationId chunk destination) Method.telegramSend.fields =
        true := hasFields_fieldsOf _
    have hdestination : validateDestination (sendFields operationId chunk destination) =
        .ok () := by
      simp [sendFields, validateDestination, checkedField, strValue, strOf, intOf, orRaise, require,
        toText_ofChars, hname, requireOptionalInt_topic htopic]
    have htextCheck : validateText (sendFields operationId chunk destination) = .ok () := by
      simp [sendFields, validateText, strValue, strOf, orRaise, require, utf8Length_ofChars, hbytes]
      omega
    have hmode : isOneOf (Fields.get? (sendFields operationId chunk destination)
        (lit "parse_mode")) ["MarkdownV2"] = .ok () := by
      simp [sendFields, isOneOf, require]
    have hget : Fields.get? (sendFields operationId chunk destination) (lit "buttons") =
        some (.seq false (chunk.buttons.map buttonValue)) := by
      simp [sendFields]
    have hsend : validateTelegramSend (sendFields operationId chunk destination) = .ok () := by
      rw [validateTelegramSend, hdestination, ok_bind, htextCheck, ok_bind, hmode, ok_bind, hget]
      dsimp only
      rw [require, List.length_map, if_pos hbuttons, ok_bind, validateButtons_values hvalid]
    rw [validateParams, require, if_pos hfields, ok_bind, validateMethod, hsend, ok_bind]
    rfl
  · cases h

/-- A chunk of a delivery is sent to every chat and topic that there can be. -/
theorem isSome_sendParams (chunk : FrozenChunk) (destination : Destination) :
    (sendParams chunk.wire destination).isSome = true ↔
      destination.chatId ≠ 0 ∧ ∀ topicId ∈ destination.topicId, 1 ≤ topicId := by
  have hwire := wireOperationId_chunk chunk
  have hlength : chunk.text.length ≤ 4096 := (length_le_utf8Length chunk.text).trans chunk.text_le
  have hnul : '\x00' ∉ chunk.text := by
    intro hmem
    rcases chunk.text_control _ hmem (by decide) with h | h <;> exact absurd h (by decide)
  have hbuilds : buildsRequest chunk.wire destination = true ↔
      destination.chatId ≠ 0 ∧ ∀ topicId ∈ destination.topicId, 1 ≤ topicId := by
    unfold buildsRequest
    rw [decide_eq_true_eq]
    constructor
    · rintro ⟨-, hchat, htopic, -⟩
      exact ⟨hchat, htopic⟩
    · rintro ⟨hchat, htopic⟩
      exact ⟨hwire, hchat, htopic, chunk.text_ne, hlength, hnul, chunk.buttons_le,
        chunk.buttons_valid⟩
  rw [← hbuilds, sendParams]
  by_cases hb : buildsRequest chunk.wire destination = true
  · rw [if_pos hb, Option.isSome_map]
    exact iff_of_true hwire hb
  · rw [if_neg hb]
    exact iff_of_false Bool.false_ne_true hb

/-! ## Frames and parameters -/

/-- What the two sides of the channel can rely on. -/
structure RoundTrips (C : Codec) : Prop where
  /-- An encoded frame is one line, which ends in its only line break. -/
  oneLine : ∀ {frame : Frame} {line : Bytes}, frame.IsJson C.floats (fun _ => True) →
    C.encodeFrame frame = some line → ∃ body, line = body ++ [10] ∧ (10 : UInt8) ∉ body
  /-- An encoded frame is read as an equal frame, unless a surrogate pair was left apart in it. -/
  decoded : ∀ {frame : Frame} {line : Bytes}, frame.IsJson C.floats Str.Unpaired →
    C.encodeFrame frame = some line → ∃ other, C.parseFrame line = .ok other ∧ frame.Same other
  /-- JSON represents what an accepted line carries, and the frame can be encoded again. -/
  encoded : ∀ {line : Bytes} {frame : Frame}, C.parseFrame line = .ok frame →
    frame.IsJson C.floats (fun _ => True) ∧ (C.encodeFrame frame).isSome = true
  /-- The frame of an accepted line comes back equal, with the same exception. -/
  again : ∀ {line : Bytes} {frame : Frame}, C.parseFrame line = .ok frame →
    frame.IsJson C.floats Str.Unpaired → ∃ encoded other, C.encodeFrame frame = some encoded ∧
      C.parseFrame encoded = .ok other ∧ frame.Same other
  /-- A line of well-formed UTF is no exception. -/
  wellFormed : ∀ {line : Bytes} {text : Str} {frame : Frame}, PyJson.decode line = some text →
    text.IsUtf8 → C.parseFrame line = .ok frame → frame.IsJson C.floats Str.Unpaired
  /-- A chunk of a delivery is serialised for every chat and topic that there can be. -/
  serialised : ∀ (chunk : FrozenChunk) (destination : Destination),
    (sendParams chunk.wire destination).isSome = true ↔
      destination.chatId ≠ 0 ∧ ∀ topicId ∈ destination.topicId, 1 ≤ topicId
  /-- What is serialised passes the checks of the worker. -/
  accepted : ∀ {chunk : FrozenChunk} {destination : Destination} {params : Fields},
    sendParams chunk.wire destination = some params →
    validateParams .telegramSend params = .ok .telegramCall

/-- Frames are read back and parameters are accepted. -/
theorem frames_round_trip (C : Codec) : RoundTrips C where
  oneLine := fun hjson hline => by
    obtain ⟨body, hbody, hbreak, -⟩ := encode_line (isJson_fields (fun _ => trivial) hjson) hline
    exact ⟨body, hbody, hbreak⟩
  decoded := fun hjson hline => parseFrame_encode hjson hline
  encoded := fun hparse => encode_of_parseFrame hparse
  again := fun hparse hjson => by
    obtain ⟨encoded, hencoded⟩ := Option.isSome_iff_exists.1 (encode_of_parseFrame hparse).2
    obtain ⟨other, hother, hsame⟩ := parseFrame_encode hjson hencoded
    exact ⟨encoded, other, hencoded, hother, hsame⟩
  wellFormed := fun htext hutf8 hparse => unpaired_of_parseFrame htext hutf8 hparse
  serialised := isSome_sendParams
  accepted := fun {chunk} {_} {_} hparams => validateParams_sendParams chunk.text_le hparams

/-- A language whose only float is zero. -/
def zeroFloats : Floats where
  read _ := .finite 0
  repr _ := lit "0.0"
  IsFloat q := q = 0
  isFloat_of_read h := (PyFloat.finite.inj h).symm
  scanNumber_repr := by
    rintro _ rfl limits closed
    rfl

def zeroCodec : Codec := ⟨⟨4300, 1000⟩, zeroFloats⟩

/-- A reply whose request id is two surrogates, each encoded by itself. -/
def surrogateLine : Bytes :=
  encodeAscii (lit "\x7b\"frame\":\"reply\",\"ok\":true,\"operation_id\":null,") ++
  encodeAscii (lit "\"protocol\":\"cortex-worker/2\",\"request_id\":\"") ++
  [0xED, 0xA0, 0xBD, 0xED, 0xB8, 0x80] ++ encodeAscii (lit "\",\"result\":null\x7d\n")

/-- The request id of a reply. -/
def Frame.requestId : Except LineError Frame → Option Str
  | .ok (.reply response) => some response.requestId
  | _ => none

private theorem reply_of_requestId {parsed : Except LineError Frame} {requestId : Str}
    (h : Frame.requestId parsed = some requestId) :
    ∃ response, parsed = .ok (.reply response) ∧ response.requestId = requestId := by
  match parsed, h with
  | .ok (.reply response), h => exact ⟨response, rfl, Option.some.inj h⟩

/-- The two surrogates come back as one character. -/
theorem surrogates_joined :
    ∃ frame encoded other, zeroCodec.parseFrame surrogateLine = .ok frame ∧
      zeroCodec.encodeFrame frame = some encoded ∧ zeroCodec.parseFrame encoded = .ok other ∧
      ¬frame.Same other := by
  have hread : Frame.requestId (zeroCodec.parseFrame surrogateLine) = some [0xD83D, 0xDE00] := by
    decide +kernel
  have hagain : (((zeroCodec.parseFrame surrogateLine).toOption.bind zeroCodec.encodeFrame).map
      fun encoded => Frame.requestId (zeroCodec.parseFrame encoded)) = some (some [0x1F600]) := by
    decide +kernel
  obtain ⟨response, hresponse, hid⟩ := reply_of_requestId hread
  rw [hresponse] at hagain
  obtain ⟨encoded, hencoded, hrequest⟩ := Option.map_eq_some_iff.1 hagain
  obtain ⟨other, hother, hid'⟩ := reply_of_requestId hrequest
  refine ⟨.reply response, encoded, .reply other, hresponse, hencoded, hother, fun hsame => ?_⟩
  have hsameId : response.requestId = other.requestId := hsame.1
  rw [hid, hid'] at hsameId
  exact absurd hsameId (by decide)

end Cortex.Worker
