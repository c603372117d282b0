import Cortex.Library.Dict
import Cortex.OperationLedger.Record

/-!
# Replaying a ledger file

`_replay` splits the file into lines and takes each as a record; only the last
one may be torn.  `replay_encodeAll` says what it makes of a file that was
written record by record, whatever part of one more record follows, and
`replay_torn` what a torn file looks like, whoever wrote it.
-/

namespace Cortex.OperationLedger

open Control (Text)
open Transaction

/-! ## Lines -/

/-- `bytes.splitlines(keepends=True)`. -/
def splitlines : Bytes → List Bytes
  | [] => []
  | b :: data =>
      if b = newline then [b] :: splitlines data
      else if b = carriageReturn then
        match data with
        | [] => [[b]]
        | c :: rest =>
            if c = newline then [b, c] :: splitlines rest else [b] :: splitlines (c :: rest)
      else
        match splitlines data with
        | [] => [[b]]
        | line :: lines => (b :: line) :: lines

attribute [grind =] splitlines

/-- `line.endswith(b"\n")`. -/
def Terminated (line : Bytes) : Prop := line.getLast? = some newline

instance (line : Bytes) : Decidable (Terminated line) := inferInstanceAs (Decidable (_ = _))

def payload (line : Bytes) : Bytes := if Terminated line then line.dropLast else line

/-! ## Entries -/

def Entry.key (entry : Entry) : Text := entry.operationId.val

/-- `_entries`, each entry under its own identifier. -/
abbrev Entries := Dict Entry.key

/-! ## The replay -/

structure Replayed where
  entries : Entries
  torn : Option (ℕ × Bytes)
  needsNewline : Bool

variable (P : Platform)

/-- The loop of `_replay`. -/
def replayLines (entries : Entries) (offset : ℕ) :
    List Bytes → Except LedgerError (Entries × Option (ℕ × Bytes))
  | [] => .ok (entries, none)
  | line :: lines =>
      if payload line = [] then .error (.unavailable "ledger contains an empty record")
      else
        match parseRecord P (payload line) with
        | .ok entry => replayLines (entries.set entry) (offset + line.length) lines
        | .error (.unavailable _) =>
            if lines = [] ∧ ¬Terminated line then .ok (entries, some (offset, payload line))
            else .error (.unavailable "ledger contains a malformed non-quarantined line")
        | .error error => .error error

attribute [grind =] replayLines

/-- `bool(lines and not lines[-1].endswith(b"\n"))`. -/
def lastUnterminated (lines : List Bytes) : Bool :=
  match lines.getLast? with
  | some line => ¬Terminated line
  | none => false

/-- `_replay`. -/
def replay (data : Bytes) : Except LedgerError Replayed := do
  let (entries, torn) ← replayLines P .empty 0 (splitlines data)
  pure { entries, torn, needsNewline := torn.isNone && lastUnterminated (splitlines data) }

/-! ## How lines split -/

/-- No byte of the text ends a line. -/
def Unbroken (text : Bytes) : Prop := ∀ b ∈ text, b ≠ newline ∧ b ≠ carriageReturn

private theorem splitlines_newline (data : Bytes) :
    splitlines (newline :: data) = [newline] :: splitlines data := by
  rw [splitlines.eq_def]
  exact if_pos rfl

private theorem splitlines_return_newline (data : Bytes) :
    splitlines (carriageReturn :: newline :: data) =
      [carriageReturn, newline] :: splitlines data := by
  rw [splitlines.eq_def]
  rfl

private theorem splitlines_return_cons {c : UInt8} (hc : c ≠ newline) (data : Bytes) :
    splitlines (carriageReturn :: c :: data) = [carriageReturn] :: splitlines (c :: data) := by
  have hne : carriageReturn ≠ newline := by decide
  rw [splitlines.eq_def]
  simp only [if_neg hne, if_neg hc, if_true]

private theorem splitlines_unbroken_cons {b : UInt8} (hb : b ≠ newline ∧ b ≠ carriageReturn)
    (data : Bytes) :
    splitlines (b :: data) =
      match splitlines data with
      | [] => [[b]]
      | line :: lines => (b :: line) :: lines := by
  rw [splitlines.eq_def]
  simp only [if_neg hb.1, if_neg hb.2]

private theorem splitlines_line {text : Bytes} (htext : Unbroken text) (rest : Bytes) :
    splitlines (text ++ newline :: rest) = (text ++ [newline]) :: splitlines rest := by
  induction text with
  | nil => exact splitlines_newline rest
  | cons b text ih =>
      have hb := htext b List.mem_cons_self
      rw [List.cons_append, splitlines_unbroken_cons hb,
        ih fun c hc => htext c (List.mem_cons_of_mem _ hc)]
      rfl

private theorem splitlines_unbroken {text : Bytes} (htext : Unbroken text) (hne : text ≠ []) :
    splitlines text = [text] := by
  induction text with
  | nil => exact absurd rfl hne
  | cons b text ih =>
      have hb := htext b List.mem_cons_self
      rw [splitlines_unbroken_cons hb]
      cases htail : text with
      | nil => rfl
      | cons c rest =>
          rw [← htail, ih (fun c hc => htext c (List.mem_cons_of_mem _ hc)) (by simp [htail])]

private theorem flatten_splitlines (data : Bytes) : (splitlines data).flatten = data := by
  induction data using splitlines.induct with
  | case1 => rfl
  | case2 data ih => rw [splitlines_newline, List.flatten_cons, ih, List.singleton_append]
  | case3 hne => rfl
  | case4 rest hne ih =>
      rw [splitlines_return_newline, List.flatten_cons, ih]
      rfl
  | case5 c rest hc hne ih =>
      rw [splitlines_return_cons hc, List.flatten_cons, ih]
      rfl
  | case6 b rest hne hret hlines ih =>
      rw [hlines] at ih
      rw [splitlines_unbroken_cons ⟨hne, hret⟩, hlines, ← ih]
      rfl
  | case7 b rest hne hret line lines hlines ih =>
      rw [hlines] at ih
      rw [splitlines_unbroken_cons ⟨hne, hret⟩, hlines, ← ih]
      rfl

private theorem splitlines_eq_nil {data : Bytes} (h : splitlines data = []) : data = [] := by
  rw [← flatten_splitlines data, h]
  rfl

/-- After a newline the lines start afresh. -/
theorem splitlines_append (a b : Bytes) :
    splitlines (a ++ newline :: b) = splitlines (a ++ [newline]) ++ splitlines b := by
  induction a using splitlines.induct with
  | case1 =>
      rw [List.nil_append, splitlines_newline]
      rfl
  | case2 data ih =>
      rw [List.cons_append, List.cons_append, splitlines_newline, splitlines_newline, ih]
      rfl
  | case3 hne => exact splitlines_return_newline b
  | case4 rest hne ih =>
      simp only [List.cons_append, splitlines_return_newline, ih]
  | case5 c rest hc hne ih =>
      simp only [List.cons_append, splitlines_return_cons hc] at ih ⊢
      rw [ih]
  | case6 c rest hne hret hlines ih =>
      rw [List.cons_append, List.cons_append, splitlines_unbroken_cons ⟨hne, hret⟩,
        splitlines_unbroken_cons ⟨hne, hret⟩, ih]
      cases hfirst : splitlines (rest ++ [newline]) with
      | nil => simpa using splitlines_eq_nil hfirst
      | cons line lines => rfl
  | case7 c rest hne hret line lines hlines ih =>
      rw [List.cons_append, List.cons_append, splitlines_unbroken_cons ⟨hne, hret⟩,
        splitlines_unbroken_cons ⟨hne, hret⟩, ih]
      cases hfirst : splitlines (rest ++ [newline]) with
      | nil => simpa using splitlines_eq_nil hfirst
      | cons line lines => rfl

/-- A line is one line. -/
private theorem splitlines_of_mem {data line : Bytes} (h : line ∈ splitlines data) :
    splitlines line = [line] := by
  induction data using splitlines.induct generalizing line with
  | case1 => simp [splitlines] at h
  | case2 data ih =>
      rw [splitlines_newline] at h
      rcases List.mem_cons.1 h with rfl | h
      · rfl
      · exact ih h
  | case3 hne =>
      rcases List.mem_singleton.1 h with rfl
      rfl
  | case4 rest hne ih =>
      rw [splitlines_return_newline] at h
      rcases List.mem_cons.1 h with rfl | h
      · rfl
      · exact ih h
  | case5 c rest hc hne ih =>
      rw [splitlines_return_cons hc] at h
      rcases List.mem_cons.1 h with rfl | h
      · rfl
      · exact ih h
  | case6 b rest hne hret hlines ih =>
      rw [splitlines_unbroken_cons ⟨hne, hret⟩, hlines] at h
      rcases List.mem_singleton.1 h with rfl
      rw [splitlines_unbroken_cons ⟨hne, hret⟩]
      rfl
  | case7 b rest hne hret head lines hlines ih =>
      rw [splitlines_unbroken_cons ⟨hne, hret⟩, hlines] at h
      rw [hlines] at ih
      rcases List.mem_cons.1 h with rfl | h
      · rw [splitlines_unbroken_cons ⟨hne, hret⟩, ih List.mem_cons_self]
      · exact ih (List.mem_cons_of_mem _ h)

/-! ## A file written record by record -/

/-- A record as it was written. -/
structure Written where
  entry : Entry
  recordedAt : Monotonic

namespace Written

def bytes (record : Written) : Bytes := recordBytes record.entry record.recordedAt

def line (record : Written) : Bytes := record.bytes ++ [newline]

private theorem unbroken (record : Written) : Unbroken record.bytes :=
  not_mem_encode_dumps (valid_recordMembers record.entry record.recordedAt)

theorem bytes_ne_nil (record : Written) : record.bytes ≠ [] := by
  simp [bytes, recordBytes, encode, Json.dumps]

private theorem terminated_line (record : Written) : Terminated record.line := by
  simp [Terminated, line]

private theorem payload_line (record : Written) : payload record.line = record.bytes := by
  rw [payload, if_pos record.terminated_line]
  exact List.dropLast_concat

end Written

def encodeAll (records : List Written) : Bytes := records.flatMap Written.line

/-- What the records say of each operation. -/
def entriesOf (records : List Written) : Entries :=
  records.foldl (fun entries record => entries.set record.entry) .empty

private theorem Unbroken.not_terminated {text : Bytes} (h : Unbroken text) : ¬Terminated text := by
  intro hlast
  exact (h newline (List.mem_of_getLast? hlast)).1 rfl

private theorem Unbroken.payload_eq {text : Bytes} (h : Unbroken text) : payload text = text :=
  if_neg h.not_terminated

theorem encodeAll_append (records later : List Written) :
    encodeAll (records ++ later) = encodeAll records ++ encodeAll later :=
  List.flatMap_append

theorem entriesOf_append_singleton (records : List Written) (record : Written) :
    entriesOf (records ++ [record]) = (entriesOf records).set record.entry := by
  simp [entriesOf]

/-- A file of records is empty or ends with a newline. -/
theorem terminated_encodeAll {records : List Written} (hne : records ≠ []) :
    ∃ data, encodeAll records = data ++ [newline] := by
  obtain ⟨front, record, rfl⟩ := List.eq_nil_or_concat records |>.resolve_left hne
  refine ⟨encodeAll front ++ record.bytes, ?_⟩
  rw [List.concat_eq_append, encodeAll_append, List.append_assoc]
  simp [encodeAll, Written.line]

private theorem splitlines_encodeAll (records : List Written) (tail : Bytes) :
    splitlines (encodeAll records ++ tail) = records.map Written.line ++ splitlines tail := by
  induction records with
  | nil => rfl
  | cons record records ih =>
      have hsplit : encodeAll (record :: records) ++ tail =
          record.bytes ++ newline :: (encodeAll records ++ tail) := by
        simp [encodeAll, Written.line]
      rw [hsplit, splitlines_line record.unbroken, ih]
      rfl

variable {P}

private theorem replayLines_encodeAll (entries : Entries) (offset : ℕ) (records : List Written)
    (lines : List Bytes) :
    replayLines P entries offset (records.map Written.line ++ lines) =
      replayLines P (records.foldl (fun entries record => entries.set record.entry) entries)
        (offset + (encodeAll records).length) lines := by
  induction records generalizing entries offset with
  | nil => rfl
  | cons record records ih =>
      have hlength : offset + (encodeAll (record :: records)).length =
          offset + record.line.length + (encodeAll records).length := by
        simp [encodeAll, Nat.add_assoc]
      rw [List.map_cons, List.cons_append, replayLines, record.payload_line,
        if_neg record.bytes_ne_nil, Written.bytes, parseRecord_recordBytes, hlength]
      exact ih _ _

/-- A file that ends with a whole record. -/
theorem replay_encodeAll (records : List Written) :
    replay P (encodeAll records) =
      .ok { entries := entriesOf records, torn := none, needsNewline := false } := by
  have hlines : splitlines (encodeAll records) = records.map Written.line := by
    simpa [splitlines] using splitlines_encodeAll records []
  have hreplay := replayLines_encodeAll (P := P) .empty 0 records []
  rw [List.append_nil] at hreplay
  have hlast : lastUnterminated (records.map Written.line) = false := by
    unfold lastUnterminated
    split
    · rename_i line hline
      obtain ⟨record, -, rfl⟩ := List.mem_map.1 (List.mem_of_getLast? hline)
      simp [record.terminated_line]
    · rfl
  rw [replay, hlines, hreplay]
  simp only [replayLines, hlast]
  rfl

/-- A file whose last record lacks its newline. -/
theorem replay_unterminated (records : List Written) (record : Written) :
    replay P (encodeAll records ++ record.bytes) =
      .ok { entries := entriesOf (records ++ [record]), torn := none, needsNewline := true } := by
  have hlines : splitlines (encodeAll records ++ record.bytes) =
      records.map Written.line ++ [record.bytes] := by
    rw [splitlines_encodeAll, splitlines_unbroken record.unbroken record.bytes_ne_nil]
  have hlast : lastUnterminated (records.map Written.line ++ [record.bytes]) = true := by
    simp [lastUnterminated, record.unbroken.not_terminated]
  rw [replay, hlines, replayLines_encodeAll, replayLines, record.unbroken.payload_eq,
    if_neg record.bytes_ne_nil, Written.bytes, parseRecord_recordBytes, ← Written.bytes, hlast,
    entriesOf_append_singleton]
  rfl

/-- A file whose last record is torn. -/
theorem replay_torn_record (records : List Written) {record : Written} {fragment rest : Bytes}
    (hrecord : record.bytes = fragment ++ rest) (hfragment : fragment ≠ []) (hrest : rest ≠ []) :
    replay P (encodeAll records ++ fragment) =
      .ok
        { entries := entriesOf records
          torn := some ((encodeAll records).length, fragment)
          needsNewline := false } := by
  have hunbroken : Unbroken fragment := fun b hb =>
    record.unbroken b (by rw [hrecord]; exact List.mem_append_left rest hb)
  have hlines : splitlines (encodeAll records ++ fragment) =
      records.map Written.line ++ [fragment] := by
    rw [splitlines_encodeAll, splitlines_unbroken hunbroken hfragment]
  rw [replay, hlines, replayLines_encodeAll, replayLines, hunbroken.payload_eq,
    if_neg hfragment, parseRecord_torn hrecord hrest]
  simp only [hunbroken.not_terminated, not_false_eq_true, and_self, if_true, Nat.zero_add]
  rfl

/-! ## Any torn file -/

/-- The loop stops at a torn line, which is the last. -/
private theorem replayLines_torn {entries entries' : Entries} {offset start : ℕ} {lines : List Bytes}
    {fragment : Bytes}
    (h : replayLines P entries offset lines = .ok (entries', some (start, fragment))) :
    ∃ front, lines = front ++ [fragment] ∧ start = offset + front.flatten.length ∧
      fragment ≠ [] ∧ ¬Terminated fragment ∧
      (∃ message, parseRecord P fragment = .error (.unavailable message)) ∧
      replayLines P entries offset front = .ok (entries', none) := by
  induction lines generalizing entries offset with
  | nil => simp [replayLines] at h
  | cons line lines ih =>
      rw [replayLines] at h
      split at h
      · contradiction
      rename_i hpayload
      split at h
      · rename_i entry hentry
        obtain ⟨front, rfl, rfl, hne, hlast, hparse, hfront⟩ := ih h
        refine ⟨line :: front, rfl, ?_, hne, hlast, hparse, ?_⟩
        · simp [Nat.add_assoc]
        · rw [replayLines, if_neg hpayload, hentry]
          exact hfront
      · rename_i message hmessage
        split at h
        · rename_i hlast
          obtain ⟨rfl, hlast⟩ := hlast
          simp only [Except.ok.injEq, Prod.mk.injEq, Option.some.injEq] at h
          obtain ⟨rfl, rfl, rfl⟩ := h
          have hline : payload line = line := if_neg hlast
          rw [hline] at hpayload hmessage ⊢
          exact ⟨[], rfl, by simp, hpayload, hlast, ⟨message, hmessage⟩, rfl⟩
        · contradiction
      · contradiction

/-- A torn file is a file that can be replayed, and a fragment after it. -/
theorem replay_torn {data : Bytes} {replayed : Replayed} {start : ℕ} {fragment : Bytes}
    (h : replay P data = .ok replayed) (htorn : replayed.torn = some (start, fragment)) :
    ∃ front, data = front ++ fragment ∧ start = front.length ∧ fragment ≠ [] ∧
      ¬Terminated fragment ∧ splitlines fragment = [fragment] ∧
      (∃ message, parseRecord P fragment = .error (.unavailable message)) ∧
      replayLines P .empty 0 ((splitlines data).dropLast) = .ok (replayed.entries, none) := by
  simp only [replay, bind_eq_ok, pure_eq_ok] at h
  obtain ⟨⟨entries, torn⟩, hlines, rfl⟩ := h
  simp only at htorn
  rw [htorn] at hlines
  obtain ⟨front, hfront, rfl, hne, hlast, hparse, hreplay⟩ := replayLines_torn hlines
  refine ⟨front.flatten, ?_, by simp, hne, hlast, ?_, hparse, ?_⟩
  · rw [← flatten_splitlines data, hfront]
    simp
  · have hfragment : fragment ∈ splitlines data := by simp [hfront]
    exact splitlines_of_mem hfragment
  · rw [hfront, List.dropLast_concat]
    exact hreplay

end Cortex.OperationLedger
