import Cortex.Control.Errors
import Cortex.Library.JsonAscii

/-!
# Records of the operation ledger

A ledger file holds one JSON object a line, each the phase an operation has
reached.  The values of a record are subtypes: an operation identifier, a kind
and a digest that the ledger would refuse cannot be built, so `_Entry` is what a
record says once it has been checked.

A record that was written is read back (`parseRecord_recordBytes`), and what is
left of one after a torn write is refused (`parseRecord_torn`).
-/

namespace Cortex.OperationLedger

open Control (Text)
open Json Transaction

abbrev Bytes := List UInt8

def newline : UInt8 := 10

def carriageReturn : UInt8 := 13

inductive LedgerError
  | unavailable (message : String)
  | conflict (message : String)
  /-- `phase not in _PHASES` on a list or an object. -/
  | typeError
  deriving DecidableEq

/-! ## The values of a record -/

/-- `_OPERATION_ID`. -/
def isOperationId (text : Text) : Bool :=
  match text with
  | [] => false
  | c :: rest =>
      c.isAlphanum ∧ rest.length ≤ 127 ∧
        rest.all fun c => c.isAlphanum ∨ c = '.' ∨ c = '_' ∨ c = '-'

/-- A nonempty text without NUL. -/
def isKind (text : Text) : Bool := text ≠ [] ∧ Char.ofNat 0 ∉ text

/-- `_SHA256`. -/
def isSha256 (text : Text) : Bool :=
  text.length = 64 ∧ text.all fun c => c.isDigit ∨ ('a' ≤ c ∧ c ≤ 'f')

/-- A text that passed one of the checks above. -/
abbrev Checked (check : Text → Bool) := {text : Text // check text = true}

def checked (check : Text → Bool) (text : Text) : Option (Checked check) :=
  if h : check text = true then some ⟨text, h⟩ else none

@[simp] theorem checked_val {check : Text → Bool} (text : Checked check) :
    checked check text.val = some text := dif_pos text.property

theorem checked_eq_some {check : Text → Bool} {text : Text} {value : Checked check} :
    checked check text = some value ↔ text = value.val := by
  unfold checked
  split
  · rw [Option.some.injEq, Subtype.ext_iff]
  · rename_i h
    simp only [reduceCtorEq, false_iff]
    rintro rfl
    exact h value.property

abbrev OperationId := Checked isOperationId
abbrev Kind := Checked isKind
abbrev Sha256 := Checked isSha256

/-- `_PHASES`. -/
inductive Phase
  | inProgress | committed | failed | uncertain
  deriving DecidableEq

def Phase.text : Phase → Text
  | .inProgress => "in_progress".toList
  | .committed => "committed".toList
  | .failed => "failed".toList
  | .uncertain => "uncertain".toList

def phaseOf (text : Text) : Option Phase :=
  [Phase.inProgress, .committed, .failed, .uncertain].find? fun phase => phase.text = text

/-- The phases that never change again. -/
def Phase.final (phase : Phase) : Prop := phase = .committed ∨ phase = .failed

instance (phase : Phase) : Decidable phase.final := inferInstanceAs (Decidable (_ ∨ _))

/-- `_Entry`; a result belongs to the final phases and to no other. -/
@[ext] structure Entry where
  operationId : OperationId
  kind : Kind
  phase : Phase
  requestDigest : Sha256
  resultDigest : Option Sha256
  result_iff : resultDigest.isSome = true ↔ phase.final

/-- What `time.monotonic` answers, as `json` prints it. -/
abbrev Monotonic := {text : Text // IsNumber text}

instance : Inhabited Monotonic := ⟨"12.5".toList, ⟨_, rfl⟩, '1', _, rfl, rfl⟩

/-! ## The platform -/

/-- Texts of ASCII as UTF-8. -/
def encode (text : Text) : Bytes := text.map fun c => UInt8.ofNat c.toNat

/-- What the ledger leaves to the interpreter: how `json.loads` guesses the encoding of bytes,
the digest, and the sign of the floating-point number a text stands for. -/
structure Platform where
  decode : Bytes → Option Text
  sha256 : Bytes → Sha256
  isNegativeFloat : Text → Bool
  decode_ascii : ∀ text : Text, (∀ c ∈ text, 0 < c.toNat ∧ c.toNat < 128) →
    decode (encode text) = some text
  isNegativeFloat_digit : ∀ (c : Char) (text : Text), c.isDigit = true →
    isNegativeFloat (c :: text) = false

private theorem map_encode {text : Text} (h : ∀ c ∈ text, 0 < c.toNat ∧ c.toNat < 128) :
    (encode text).map (fun b => Char.ofNat b.toNat) = text ∧
      ∀ b ∈ encode text, 0 < b.toNat ∧ b.toNat < 128 := by
  have hbyte : ∀ c ∈ text, (UInt8.ofNat c.toNat).toNat = c.toNat := by
    intro c hc
    have := (h c hc).2
    simp only [UInt8.toNat_ofNat']
    omega
  constructor
  · rw [encode, List.map_map]
    conv_rhs => rw [← List.map_id text]
    refine List.map_congr_left fun c hc => ?_
    simp [hbyte c hc]
  · intro b hb
    obtain ⟨c, hc, rfl⟩ := List.mem_map.1 hb
    rw [hbyte c hc]
    exact h c hc

/-- A platform to run the ledger on: it reads ASCII, and digests the fragment `{`. -/
def asciiPlatform : Platform where
  decode bytes :=
    if bytes.all fun b => 0 < b.toNat ∧ b.toNat < 128 then
      some (bytes.map fun b => Char.ofNat b.toNat)
    else none
  sha256 _ :=
    ⟨"021fb596db81e6d02bf3d2586ee3981fe519f275c0ac9ca76bbcf2ebb4097d96".toList, by decide⟩
  isNegativeFloat text := text.head? = some '-'
  decode_ascii text h := by
    have hall : (encode text).all (fun b => 0 < b.toNat ∧ b.toNat < 128) = true := by
      rw [List.all_eq_true]
      intro b hb
      exact decide_eq_true ((map_encode h).2 b hb)
    rw [if_pos hall, (map_encode h).1]
  isNegativeFloat_digit c text hc := by
    simp only [List.head?_cons, Option.some.injEq, decide_eq_false_iff_not]
    rintro rfl
    exact absurd hc (by decide)

/-! ## Reading -/

/-- `raw[name]` for each name, when the value is an object with exactly these names. -/
def asObject (names : List Text) : Value → Option (Text → Value)
  | .obj members =>
      if (∀ name ∈ names, name ∈ members.map Prod.fst) ∧ (∀ name ∈ members.map Prod.fst, name ∈ names)
      then some fun name => (members.lookup name).getD .null
      else none
  | _ => none

def asText (check : Text → Bool) : Value → Option (Checked check)
  | .str text => checked check text
  | _ => none

/-- `type(value) is int`. -/
def asInt : Value → Option ℤ
  | .int n => some n
  | _ => none

/-- `_RECORD_FIELDS`. -/
def recordFields : List Text :=
  ["schema_version".toList, "operation_id".toList, "kind".toList, "phase".toList,
    "request_digest".toList, "result_digest".toList, "recorded_at_monotonic".toList]

def readPhase : Value → Except LedgerError Phase
  | .str text => orRaise (phaseOf text) (.unavailable "ledger operation phase is invalid")
  | .arr _ => .error .typeError
  | .obj _ => .error .typeError
  | _ => .error (.unavailable "ledger operation phase is invalid")

/-- The result of a phase: a digest when it is final, else nothing. -/
def readResult (phase : Phase) (value : Value) :
    Option {result : Option Sha256 // result.isSome = true ↔ phase.final} :=
  if h : phase.final then
    (asText isSha256 value).map fun digest => ⟨some digest, by simp [h]⟩
  else
    match value with
    | .null => some ⟨none, by simp [h]⟩
    | _ => none

variable (P : Platform)

def isTimestamp : Value → Bool
  | .int n => 0 ≤ n
  | .float text => !P.isNegativeFloat text
  | _ => false

/-- The checks of `_parse_record` on the decoded document. -/
def readRecord (value : Value) : Except LedgerError Entry := do
  let raw ← orRaise (asObject recordFields value)
    (.unavailable "ledger record fields do not match schema")
  require (asInt (raw "schema_version".toList) = some 1)
    (.unavailable "ledger schema version is invalid")
  let operationId ← orRaise (asText isOperationId (raw "operation_id".toList))
    (.unavailable "ledger operation identifier is invalid")
  let kind ← orRaise (asText isKind (raw "kind".toList))
    (.unavailable "ledger operation kind is invalid")
  let phase ← readPhase (raw "phase".toList)
  let requestDigest ← orRaise (asText isSha256 (raw "request_digest".toList))
    (.unavailable "ledger request digest is invalid")
  let result ← orRaise (readResult phase (raw "result_digest".toList))
    (.unavailable "ledger result digest is invalid")
  require (isTimestamp P (raw "recorded_at_monotonic".toList) = true)
    (.unavailable "ledger timestamp is invalid")
  pure
    { operationId, kind, phase, requestDigest
      resultDigest := result.val
      result_iff := result.property }

/-- `_parse_record`. -/
def parseRecord (payload : Bytes) : Except LedgerError Entry :=
  match (P.decode payload).bind loads with
  | none => .error (.unavailable "ledger record is malformed")
  | some value => readRecord P value

/-! ## Writing -/

/-- The record that `_append` writes, its keys sorted. -/
def recordMembers (entry : Entry) (recordedAt : Monotonic) : List (Text × Scalar) :=
  [("kind".toList, .str entry.kind.val),
    ("operation_id".toList, .str entry.operationId.val),
    ("phase".toList, .str entry.phase.text),
    ("recorded_at_monotonic".toList, .number recordedAt.val),
    ("request_digest".toList, .str entry.requestDigest.val),
    ("result_digest".toList, (entry.resultDigest.map fun digest => .str digest.val).getD .null),
    ("schema_version".toList, .nat 1)]

/-- A record, without the newline after it. -/
def recordBytes (entry : Entry) (recordedAt : Monotonic) : Bytes :=
  encode (dumps (recordMembers entry recordedAt))

/-! ## What is written is read back -/

theorem encode_append (s t : Text) : encode (s ++ t) = encode s ++ encode t := List.map_append

private theorem length_encode (s : Text) : (encode s).length = s.length := List.length_map _

/-- A prefix of an encoded text is the encoding of a prefix. -/
private theorem encode_eq_append {text : Text} {a b : Bytes} (h : encode text = a ++ b) :
    ∃ s t, text = s ++ t ∧ encode s = a ∧ encode t = b := by
  obtain ⟨s, t, hst, hs, ht⟩ := List.map_eq_append_iff.1 h
  exact ⟨s, t, hst, hs, ht⟩

/-- A printed object has no byte that would end the line. -/
theorem not_mem_encode_dumps {ms : List (Text × Scalar)} (hvalid : ∀ m ∈ ms, m.2.Valid) :
    ∀ b ∈ encode (dumps ms), b ≠ newline ∧ b ≠ carriageReturn := by
  intro b hb
  obtain ⟨c, hc, rfl⟩ := List.mem_map.1 hb
  obtain ⟨hlow, hhigh⟩ := printable_dumps hvalid c hc
  have hbyte : (UInt8.ofNat c.toNat).toNat = c.toNat := by
    simp only [UInt8.toNat_ofNat']
    omega
  constructor
  · intro h
    rw [h] at hbyte
    simp only [newline, UInt8.toNat_ofNat] at hbyte
    omega
  · intro h
    rw [h] at hbyte
    simp only [carriageReturn, UInt8.toNat_ofNat] at hbyte
    omega

variable {P}

private theorem decode_dumps {ms : List (Text × Scalar)} (hvalid : ∀ m ∈ ms, m.2.Valid) :
    P.decode (encode (dumps ms)) = some (dumps ms) := by
  apply P.decode_ascii
  intro c hc
  obtain ⟨hlow, hhigh⟩ := printable_dumps hvalid c hc
  exact ⟨by omega, by omega⟩

/-- What a torn write leaves of a printed object decodes, but is no document. -/
theorem loads_torn {ms : List (Text × Scalar)} (hne : ms ≠ []) (hvalid : ∀ m ∈ ms, m.2.Valid)
    (hkeys : (ms.map Prod.fst).Nodup) {a b : Bytes} (h : encode (dumps ms) = a ++ b)
    (hb : b ≠ []) : (P.decode a).bind loads = none := by
  obtain ⟨s, t, hst, rfl, rfl⟩ := encode_eq_append h
  have ht : t ≠ [] := fun ht => hb (by rw [ht]; rfl)
  have hdecode : P.decode (encode s) = some s := by
    apply P.decode_ascii
    intro c hc
    obtain ⟨hlow, hhigh⟩ := printable_dumps hvalid c (by
      rw [hst]
      exact List.mem_append_left t hc)
    exact ⟨by omega, by omega⟩
  rw [hdecode, Option.bind_some]
  exact loads_prefix hne hvalid hkeys hst.symm ht

theorem valid_recordMembers (entry : Entry) (recordedAt : Monotonic) :
    ∀ m ∈ recordMembers entry recordedAt, m.2.Valid := by
  intro m hm
  simp only [recordMembers, List.mem_cons, List.not_mem_nil, or_false] at hm
  rcases hm with rfl | rfl | rfl | rfl | rfl | rfl | rfl
  case inr.inr.inr.inl => exact recordedAt.property
  case inr.inr.inr.inr.inr.inl => cases entry.resultDigest <;> trivial
  all_goals trivial

private theorem nodup_recordMembers (entry : Entry) (recordedAt : Monotonic) :
    ((recordMembers entry recordedAt).map Prod.fst).Nodup := by
  simp only [recordMembers, List.map_cons, List.map_nil]
  decide

private theorem phaseOf_text (phase : Phase) : phaseOf phase.text = some phase := by
  cases phase <;> decide

private theorem isTimestamp_value (recordedAt : Monotonic) :
    isTimestamp P (Scalar.number recordedAt.val).value = true := by
  obtain ⟨text, ⟨v, hv⟩, c, rest, rfl, hc⟩ := recordedAt
  have hsign : scanSign (c :: rest) = ([], c :: rest) := by
    have hne : c ≠ '-' := by
      rintro rfl
      exact absurd hc (by decide)
    simp [scanSign, expect, hne]
  simp only [Scalar.value, hv, Option.map_some, Option.getD_some]
  unfold scanNumber at hv
  simp only [hsign] at hv
  split at hv
  · contradiction
  · rename_i integer hinteger
    rw [Option.some.injEq, Prod.mk.injEq] at hv
    obtain ⟨rfl, -⟩ := hv
    unfold numberValue
    split
    · simp [isTimestamp]
    · -- The text of the number starts with the digit.
      obtain ⟨d, digits, hdigits, hd⟩ : ∃ d digits, integer.1 = d :: digits ∧ d.isDigit = true := by
        unfold scanInteger at hinteger
        simp only at hinteger
        split at hinteger
        · injection hinteger with hinteger
          subst hinteger
          exact ⟨'0', [], rfl, by decide⟩
        · injection hinteger with hinteger
          subst hinteger
          refine ⟨c, (rest.span Char.isDigit).1, ?_, hc⟩
          simp [List.span_eq_takeWhile_dropWhile, hc]
      simp [isTimestamp, hdigits, P.isNegativeFloat_digit d _ hd]

theorem parseRecord_recordBytes (entry : Entry) (recordedAt : Monotonic) :
    parseRecord P (recordBytes entry recordedAt) = .ok entry := by
  have hvalid := valid_recordMembers entry recordedAt
  have hloads := loads_dumps (by simp [recordMembers]) hvalid
    (nodup_recordMembers entry recordedAt) (rfl : skipWhitespace [] = [])
  rw [List.append_nil] at hloads
  have hraw : asObject recordFields
      (.obj ((recordMembers entry recordedAt).map fun m => (m.1, m.2.value))) =
        some fun name => (((recordMembers entry recordedAt).map fun m =>
          (m.1, m.2.value)).lookup name).getD .null := by
    rw [asObject, if_pos]
    simp only [recordMembers, List.map_cons, List.map_nil]
    decide
  have hresult : readResult entry.phase
      (Scalar.value ((entry.resultDigest.map fun digest => .str digest.val).getD .null)) =
        some ⟨entry.resultDigest, entry.result_iff⟩ := by
    unfold readResult
    split
    · rename_i hfinal
      obtain ⟨digest, hdigest⟩ := Option.isSome_iff_exists.1 (entry.result_iff.2 hfinal)
      simp [hdigest, Scalar.value, asText]
    · rename_i hopen
      have hnone : entry.resultDigest = none := by
        rw [← Option.not_isSome_iff_eq_none, entry.result_iff]
        exact hopen
      simp [hnone, Scalar.value]
  have hphase : readPhase (.str entry.phase.text) = .ok entry.phase := by
    rw [readPhase, phaseOf_text]
    rfl
  rw [parseRecord, recordBytes, decode_dumps hvalid, Option.bind_some, hloads]
  simp only [readRecord, bind_eq_ok, orRaise_eq_ok, require_eq_ok, pure_eq_ok]
  refine ⟨_, hraw, (), rfl, entry.operationId, checked_val _, entry.kind, checked_val _,
    entry.phase, hphase, entry.requestDigest, checked_val _, _, hresult, (),
    isTimestamp_value recordedAt, rfl⟩

/-- What a torn write leaves of a record is refused. -/
theorem parseRecord_torn {entry : Entry} {recordedAt : Monotonic} {a b : Bytes}
    (h : recordBytes entry recordedAt = a ++ b) (hb : b ≠ []) :
    parseRecord P a = .error (.unavailable "ledger record is malformed") := by
  have htorn : (P.decode a).bind loads = none :=
    loads_torn (by simp [recordMembers]) (valid_recordMembers entry recordedAt)
      (nodup_recordMembers entry recordedAt) h hb
  rw [parseRecord, htorn]

end Cortex.OperationLedger
