import Cortex.OperationLedger.Replay

/-!
# The quarantine sidecar

When the last record is torn, `open` files where the fragment stands in a
sidecar, and from then on every `open` leaves that range out of the replay.  The
sidecar is written before the newline that ends the fragment, and is only
accepted once that newline is there.
-/

namespace Cortex.OperationLedger

open Control (Text)
open Json Transaction

/-- `_Quarantine`. -/
@[ext] structure Quarantine where
  offset : ℕ
  length : ℕ
  fragmentSha256 : Sha256
  length_pos : 0 < length

/-- `_QUARANTINE_FIELDS`. -/
def quarantineFields : List Text :=
  ["schema_version".toList, "offset".toList, "length".toList, "fragment_sha256".toList]

/-- An integer that is not negative. -/
def asNat (value : Value) : Option ℕ :=
  match asInt value with
  | some n => if 0 ≤ n then some n.toNat else none
  | none => none

/-- An integer above zero. -/
def asPositive (value : Value) : Option {n : ℕ // 0 < n} :=
  match asNat value with
  | some n => if h : 0 < n then some ⟨n, h⟩ else none
  | none => none

/-- The checks of `_load_quarantine` on the decoded document. -/
def readQuarantine (value : Value) : Except LedgerError Quarantine := do
  let raw ← orRaise (asObject quarantineFields value)
    (.unavailable "quarantine sidecar fields do not match schema")
  require (asInt (raw "schema_version".toList) = some 1)
    (.unavailable "quarantine sidecar schema version is invalid")
  let offset ← orRaise (asNat (raw "offset".toList))
    (.unavailable "quarantine sidecar range is invalid")
  let length ← orRaise (asPositive (raw "length".toList))
    (.unavailable "quarantine sidecar range is invalid")
  let digest ← orRaise (asText isSha256 (raw "fragment_sha256".toList))
    (.unavailable "quarantine sidecar digest is invalid")
  pure { offset, length := length.val, fragmentSha256 := digest, length_pos := length.property }

variable (P : Platform)

/-- `_load_quarantine`, of the sidecar's bytes when there is a sidecar. -/
def loadQuarantine (sidecar : Option Bytes) : Except LedgerError (Option Quarantine) :=
  match sidecar with
  | none => .ok none
  | some raw =>
      match (P.decode raw).bind loads with
      | none => .error (.unavailable "quarantine sidecar is malformed")
      | some value => (readQuarantine value).map some

/-- `data[start:stop]`. -/
def slice (data : Bytes) (start stop : ℕ) : Bytes := (data.take stop).drop start

/-- `_exclude_quarantine`. -/
def excludeQuarantine (data : Bytes) (quarantine : Quarantine) : Except LedgerError Bytes := do
  let start := quarantine.offset
  let stop := start + quarantine.length
  require (stop < data.length ∧ (0 < start → slice data (start - 1) start = [newline]) ∧
      slice data stop (stop + 1) = [newline] ∧
      P.sha256 (slice data start stop) = quarantine.fragmentSha256)
    (.unavailable "quarantine sidecar does not match ledger evidence")
  match parseRecord P (slice data start stop) with
  | .ok _ => .error (.unavailable "quarantine sidecar covers a valid ledger record")
  | .error (.unavailable _) => .ok (data.take start ++ data.drop (stop + 1))
  | .error error => .error error

/-- The marker of `_write_quarantine`, its keys sorted. -/
def quarantineMembers (offset : ℕ) (fragment : Bytes) : List (Text × Scalar) :=
  [("fragment_sha256".toList, .str (P.sha256 fragment).val),
    ("length".toList, .nat fragment.length),
    ("offset".toList, .nat offset),
    ("schema_version".toList, .nat 1)]

/-- What `_write_quarantine` writes. -/
def quarantineBytes (offset : ℕ) (fragment : Bytes) : Bytes :=
  encode (dumps (quarantineMembers P offset fragment)) ++ [newline]

/-! ## The sidecar is read back -/

variable {P}

private theorem valid_quarantineMembers (offset : ℕ) (fragment : Bytes) :
    ∀ m ∈ quarantineMembers P offset fragment, m.2.Valid := by
  intro m hm
  simp only [quarantineMembers, List.mem_cons, List.not_mem_nil, or_false] at hm
  rcases hm with rfl | rfl | rfl | rfl <;> trivial

private theorem nodup_quarantineMembers (offset : ℕ) (fragment : Bytes) :
    ((quarantineMembers P offset fragment).map Prod.fst).Nodup := by
  simp only [quarantineMembers, List.map_cons, List.map_nil]
  decide

private theorem asNat_value (n : ℕ) : asNat (Scalar.nat n).value = some n := by
  simp [asNat, Scalar.value, asInt]

private theorem readQuarantine_written (offset : ℕ) {fragment : Bytes} (hne : fragment ≠ []) :
    readQuarantine (.obj ((quarantineMembers P offset fragment).map fun m => (m.1, m.2.value))) =
      .ok
        { offset
          length := fragment.length
          fragmentSha256 := P.sha256 fragment
          length_pos := List.length_pos_of_ne_nil hne } := by
  have hraw : asObject quarantineFields
      (.obj ((quarantineMembers P offset fragment).map fun m => (m.1, m.2.value))) =
        some fun name => (((quarantineMembers P offset fragment).map fun m =>
          (m.1, m.2.value)).lookup name).getD .null := by
    rw [asObject, if_pos]
    simp only [quarantineMembers, List.map_cons, List.map_nil]
    decide
  have hlength : asPositive (Scalar.nat fragment.length).value =
      some ⟨fragment.length, List.length_pos_of_ne_nil hne⟩ := by
    simp only [asPositive, asNat_value]
    exact dif_pos (List.length_pos_of_ne_nil hne)
  simp only [readQuarantine, bind_eq_ok, orRaise_eq_ok, require_eq_ok, pure_eq_ok]
  exact ⟨_, hraw, (), rfl, offset, asNat_value offset, _, hlength, _, checked_val _, rfl⟩

/-- A sidecar is read back, with its newline or without. -/
theorem loadQuarantine_written (offset : ℕ) {fragment : Bytes} (hne : fragment ≠ [])
    {tail : Bytes} (htail : tail = [] ∨ tail = [newline]) :
    loadQuarantine P (some (encode (dumps (quarantineMembers P offset fragment)) ++ tail)) =
      .ok (some
        { offset
          length := fragment.length
          fragmentSha256 := P.sha256 fragment
          length_pos := List.length_pos_of_ne_nil hne }) := by
  have hvalid := valid_quarantineMembers (P := P) offset fragment
  obtain ⟨text, htext, hspace, hascii⟩ : ∃ text : Text, encode text = tail ∧
      skipWhitespace text = [] ∧ ∀ c ∈ text, 0 < c.toNat ∧ c.toNat < 128 := by
    rcases htail with rfl | rfl
    · exact ⟨[], rfl, rfl, by simp⟩
    · exact ⟨['\n'], rfl, rfl, by simp⟩
  have hdecode : P.decode (encode (dumps (quarantineMembers P offset fragment)) ++ tail) =
      some (dumps (quarantineMembers P offset fragment) ++ text) := by
    rw [← htext, ← encode_append]
    apply P.decode_ascii
    intro c hc
    rcases List.mem_append.1 hc with hc | hc
    · obtain ⟨hlow, hhigh⟩ := printable_dumps hvalid c hc
      exact ⟨by omega, by omega⟩
    · exact hascii c hc
  have hloads := loads_dumps (by simp [quarantineMembers]) hvalid
    (nodup_quarantineMembers offset fragment) hspace
  simp only [loadQuarantine, hdecode, Option.bind_some, hloads, readQuarantine_written offset hne]
  rfl

/-- A sidecar that was not written to the end of its document is refused. -/
theorem loadQuarantine_torn {offset : ℕ} {fragment a b : Bytes}
    (h : encode (dumps (quarantineMembers P offset fragment)) = a ++ b) (hb : b ≠ []) :
    loadQuarantine P (some a) = .error (.unavailable "quarantine sidecar is malformed") := by
  have htorn : (P.decode a).bind loads = none :=
    loads_torn (by simp [quarantineMembers]) (valid_quarantineMembers offset fragment)
      (nodup_quarantineMembers offset fragment) h hb
  simp only [loadQuarantine, htorn]

/-! ## What is left out -/

private theorem slice_append (a b : Bytes) (i j : ℕ) :
    slice (a ++ b) (a.length + i) (a.length + j) = slice b i j := by
  rw [slice, List.take_length_add_append, List.drop_length_add_append]
  rfl

/-- The sidecar of a fragment that stands between `front` and a newline takes out the fragment
and that newline, when the front is empty or ends with a newline itself. -/
theorem excludeQuarantine_fragment {front fragment : Bytes} {message : String} (rest : Bytes)
    (hfront : front = [] ∨ ∃ data, front = data ++ [newline])
    (hparse : parseRecord P fragment = .error (.unavailable message)) (hne : 0 < fragment.length) :
    excludeQuarantine P (front ++ fragment ++ newline :: rest)
        { offset := front.length
          length := fragment.length
          fragmentSha256 := P.sha256 fragment
          length_pos := hne } =
      .ok (front ++ rest) := by
  have hstart : 0 < front.length →
      slice (front ++ fragment ++ newline :: rest) (front.length - 1) front.length = [newline] := by
    intro hpos
    rcases hfront with rfl | ⟨data, rfl⟩
    · simp at hpos
    · simp [slice, List.take_append]
  have hfragment : slice (front ++ fragment ++ newline :: rest) front.length
      (front.length + fragment.length) = fragment := by
    have := slice_append front (fragment ++ newline :: rest) 0 fragment.length
    rw [← List.append_assoc, Nat.add_zero] at this
    rw [this]
    simp [slice]
  have hlength : front.length + fragment.length = (front ++ fragment).length := by simp
  have hstop : slice (front ++ fragment ++ newline :: rest) (front.length + fragment.length)
      (front.length + fragment.length + 1) = [newline] := by
    rw [hlength]
    exact slice_append (front ++ fragment) (newline :: rest) 0 1
  have hrest : (front ++ fragment ++ newline :: rest).drop (front.length + fragment.length + 1) =
      rest := by
    rw [hlength]
    exact List.drop_length_add_append 1
  have hkept : (front ++ fragment ++ newline :: rest).take front.length = front := by
    simp
  simp only [excludeQuarantine, bind_eq_ok, require_eq_ok, hfragment, hparse, hrest, hkept]
  exact ⟨(), ⟨by simp, hstart, hstop, trivial⟩, trivial⟩

/-- A sidecar is refused when nothing follows its fragment. -/
theorem excludeQuarantine_too_short {data : Bytes} {quarantine : Quarantine}
    (h : data.length ≤ quarantine.offset + quarantine.length) :
    excludeQuarantine P data quarantine =
      .error (.unavailable "quarantine sidecar does not match ledger evidence") := by
  have hlength : ¬quarantine.offset + quarantine.length < data.length := by omega
  simp [excludeQuarantine, require, hlength, bind, Except.bind]

/-- A sidecar is refused when its fragment does not follow a newline. -/
theorem excludeQuarantine_misplaced {data : Bytes} {quarantine : Quarantine}
    (h : ¬(0 < quarantine.offset →
      slice data (quarantine.offset - 1) quarantine.offset = [newline])) :
    excludeQuarantine P data quarantine =
      .error (.unavailable "quarantine sidecar does not match ledger evidence") := by
  rw [excludeQuarantine, require, if_neg fun hmatch => h hmatch.2.1]
  rfl

end Cortex.OperationLedger
