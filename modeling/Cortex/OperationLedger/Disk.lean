import Cortex.OperationLedger.Ledger

/-!
# What can be on the disk

The disk holds a list of records in one of a few forms (`Holds`, `Torn`), and
every operation leads from one form to another: `Holds.opened` and `Torn.opened`
for `open`, `Opened.append` for an append, `Opened.recordUncertain` for the
records that `open` appends, and `crash_stored` for a death in an append.
-/

namespace Cortex.OperationLedger

open Control (Text)
open Transaction

/-- A proper part of a record, as a torn append leaves it. -/
def Fragment (fragment : Bytes) : Prop :=
  ∃ (record : Written) (rest : Bytes), record.bytes = fragment ++ rest ∧ fragment ≠ [] ∧ rest ≠ []

/-- The disk holds these records, and `open` can replay it; the flag says whether the last
newline is missing. -/
inductive Holds (P : Platform) : Disk → List Written → Bool → Prop
  | terminated (records : List Written) : Holds P ⟨encodeAll records, none⟩ records false
  | unterminated (records : List Written) (record : Written) :
      Holds P ⟨encodeAll records ++ record.bytes, none⟩ (records ++ [record]) true
  | quarantined (records later : List Written) {fragment : Bytes} (h : Fragment fragment) :
      Holds P
        ⟨encodeAll records ++ fragment ++ newline :: encodeAll later,
          some (quarantineBytes P (encodeAll records).length fragment)⟩
        (records ++ later) false

/-- The disk holds these records and a torn one. -/
inductive Torn : Disk → List Written → Prop
  | intro (records : List Written) {fragment : Bytes} (h : Fragment fragment) :
      Torn ⟨encodeAll records ++ fragment, none⟩ records

/-- An open ledger remembers what the disk holds. -/
def Opened (P : Platform) (disk : Disk) (handle : Handle) (records : List Written) : Prop :=
  Holds P disk records handle.needsNewline ∧ handle.entries = entriesOf records

variable {P : Platform} {disk : Disk} {handle : Handle} {records : List Written}

/-! ## Appending -/

theorem encodeAll_concat (records : List Written) (record : Written) :
    encodeAll (records ++ [record]) = encodeAll records ++ record.line := by
  rw [encodeAll_append]
  simp [encodeAll]

theorem Opened.append (h : Opened P disk handle records) (record : Written) :
    Opened P (OperationLedger.append disk handle record).1
      (OperationLedger.append disk handle record).2 (records ++ [record]) := by
  obtain ⟨hdisk, hentries⟩ := h
  have hlater : (OperationLedger.append disk handle record).2.entries =
      entriesOf (records ++ [record]) := by
    rw [entriesOf_append_singleton, ← hentries]
    rfl
  refine ⟨?_, hlater⟩
  obtain ⟨entries, quarantined, needsNewline⟩ := handle
  cases hdisk with
  | terminated =>
      have h := Holds.terminated (P := P) (records ++ [record])
      rw [encodeAll_concat] at h
      exact h
  | unterminated front last =>
      -- The append first ends the last record.
      have h := Holds.terminated (P := P) (front ++ [last] ++ [record])
      rw [encodeAll_concat, encodeAll_concat, Written.line, List.append_assoc, List.append_assoc,
        List.singleton_append, ← List.append_assoc] at h
      exact h
  | quarantined front later hfragment =>
      have h := Holds.quarantined (P := P) front (later ++ [record]) hfragment
      rw [encodeAll_concat, ← List.cons_append, ← List.append_assoc, ← List.append_assoc] at h
      exact h

/-! ## Opening -/

/-- An entry after a restart. -/
def Entry.settled (entry : Entry) : Entry :=
  if entry.phase = .inProgress then entry.uncertain else entry

private theorem Entry.key_settled (entry : Entry) : entry.settled.key = entry.key := by
  unfold settled
  split <;> rfl

/-- `open` appends records of what was in progress, and so settles every entry it goes through. -/
theorem Opened.recordUncertain (h : Opened P disk handle records) (clock : ℕ → Monotonic)
    {entries : List Entry} (hnodup : (entries.map Entry.key).Nodup)
    (hentries : ∀ entry ∈ entries, handle.entries.get? entry.key = some entry) :
    ∃ more, Opened P (OperationLedger.recordUncertain disk handle clock entries).1
        (OperationLedger.recordUncertain disk handle clock entries).2 (records ++ more) ∧
      ∀ operationId,
        (OperationLedger.recordUncertain disk handle clock entries).2.entries.get? operationId =
          if operationId ∈ entries.map Entry.key
          then (handle.entries.get? operationId).map Entry.settled
          else handle.entries.get? operationId := by
  induction entries generalizing disk handle records clock with
  | nil => exact ⟨[], by simpa [OperationLedger.recordUncertain] using h, by
      simp [OperationLedger.recordUncertain]⟩
  | cons entry entries ih =>
      obtain ⟨hfresh, hrest⟩ := List.nodup_cons.1 hnodup
      have hentry := hentries entry List.mem_cons_self
      have hne : ∀ other ∈ entries, other.key ≠ entry.key := fun other hother heq =>
        hfresh (List.mem_map.2 ⟨other, hother, heq⟩)
      have hmem : entry.key ∈ (entry :: entries).map Entry.key := List.mem_cons_self
      have hothers : ∀ other ∈ entries, handle.entries.get? other.key = some other :=
        fun other hother => hentries other (List.mem_cons_of_mem _ hother)
      unfold OperationLedger.recordUncertain
      split
      · rename_i hprogress
        have hopened := h.append ⟨entry.uncertain, clock 0⟩
        have hget : ∀ operationId, (OperationLedger.append disk handle
            ⟨entry.uncertain, clock 0⟩).2.entries.get? operationId =
              if operationId = entry.key then some entry.uncertain
              else handle.entries.get? operationId :=
          fun operationId => Dict.get?_set handle.entries entry.uncertain operationId
        obtain ⟨more, hmore, hlast⟩ := ih hopened (fun n => clock (n + 1)) hrest
          fun other hother => by rw [hget, if_neg (hne other hother), hothers other hother]
        refine ⟨[⟨entry.uncertain, clock 0⟩] ++ more, by rw [← List.append_assoc]; exact hmore, ?_⟩
        intro operationId
        rw [hlast, hget]
        by_cases heq : operationId = entry.key
        · subst heq
          rw [if_neg hfresh, if_pos rfl, if_pos hmem, hentry]
          simp [Entry.settled, hprogress]
        · simp [heq]
      · rename_i hprogress
        obtain ⟨more, hmore, hlast⟩ := ih h clock hrest hothers
        refine ⟨more, hmore, ?_⟩
        intro operationId
        rw [hlast]
        by_cases heq : operationId = entry.key
        · subst heq
          rw [if_neg hfresh, if_pos hmem, hentry]
          simp [Entry.settled, hprogress]
        · simp [heq]

/-- The same for all the entries of the ledger. -/
theorem Opened.settle (h : Opened P disk handle records) (clock : ℕ → Monotonic) :
    ∃ disk' handle' records',
      OperationLedger.recordUncertain disk handle clock handle.entries.values = (disk', handle') ∧
      Opened P disk' handle' records' ∧
      ∀ operationId, handle'.entries.get? operationId =
        (handle.entries.get? operationId).map Entry.settled := by
  obtain ⟨more, hmore, hlast⟩ := h.recordUncertain clock handle.entries.nodup fun entry hentry =>
    Dict.get?_eq_some.2 ⟨hentry, rfl⟩
  refine ⟨_, _, records ++ more, rfl, hmore, fun operationId => ?_⟩
  rw [hlast]
  split
  · rfl
  · rename_i habsent
    cases hget : handle.entries.get? operationId with
    | none => rfl
    | some entry =>
        obtain ⟨hmem, rfl⟩ := Dict.get?_eq_some.1 hget
        exact absurd (List.mem_map.2 ⟨entry, hmem, rfl⟩) habsent

theorem openLedger_replayed {ledger data : Bytes} {sidecar : Option Bytes}
    {quarantine : Option Quarantine} {replayed : Replayed}
    (hload : loadQuarantine P sidecar = .ok quarantine)
    (hdata : replayData P ledger quarantine = .ok data)
    (hreplay : replay P data = .ok replayed) (htorn : replayed.torn = none)
    (clock : ℕ → Monotonic) :
    openLedger P ⟨ledger, sidecar⟩ clock =
      .ok (OperationLedger.recordUncertain ⟨ledger, sidecar⟩
        { entries := replayed.entries
          quarantined := quarantine.isSome
          needsNewline := replayed.needsNewline } clock replayed.entries.values) := by
  simp only [openLedger, hload, hdata, hreplay, htorn, bind, Except.bind, pure, Except.pure]

theorem openLedger_torn {ledger fragment : Bytes} {replayed : Replayed} {start : ℕ}
    (hreplay : replay P ledger = .ok replayed) (htorn : replayed.torn = some (start, fragment))
    (clock : ℕ → Monotonic) :
    openLedger P ⟨ledger, none⟩ clock =
      .ok (OperationLedger.recordUncertain (quarantineFragment P ⟨ledger, none⟩ start fragment)
        { entries := replayed.entries, quarantined := true, needsNewline := false } clock
        replayed.entries.values) := by
  simp [openLedger, loadQuarantine, replayData, hreplay, htorn, require, bind,
    Except.bind, pure, Except.pure]

private theorem Fragment.parseRecord_eq {fragment : Bytes} (h : Fragment fragment) :
    parseRecord P fragment = .error (.unavailable "ledger record is malformed") := by
  obtain ⟨record, rest, hrecord, -, hrest⟩ := h
  exact parseRecord_torn hrecord hrest

private theorem Fragment.ne_nil {fragment : Bytes} (h : Fragment fragment) : fragment ≠ [] := by
  obtain ⟨record, rest, -, hne, -⟩ := h
  exact hne

/-- `open` on a disk it can replay. -/
theorem Holds.opened {needsNewline : Bool} (h : Holds P disk records needsNewline)
    (clock : ℕ → Monotonic) :
    ∃ disk' handle' records', openLedger P disk clock = .ok (disk', handle') ∧
      Opened P disk' handle' records' ∧
      ∀ operationId, handle'.entries.get? operationId =
        ((entriesOf records).get? operationId).map Entry.settled := by
  have hopened : Opened P disk
      { entries := entriesOf records, quarantined := disk.sidecar.isSome, needsNewline } records :=
    ⟨h, rfl⟩
  obtain ⟨disk', handle', records', heq, hopened', hget⟩ := hopened.settle clock
  refine ⟨disk', handle', records', ?_, hopened', hget⟩
  rw [← heq]
  cases h with
  | terminated records =>
      have hload : loadQuarantine P none = .ok none := rfl
      have hdata : replayData P (encodeAll records) none = .ok (encodeAll records) := rfl
      exact openLedger_replayed hload hdata (replay_encodeAll records) rfl clock
  | unterminated records record =>
      have hload : loadQuarantine P none = .ok none := rfl
      have hdata : replayData P (encodeAll records ++ record.bytes) none =
          .ok (encodeAll records ++ record.bytes) := rfl
      exact openLedger_replayed hload hdata (replay_unterminated records record) rfl clock
  | quarantined front later hfragment =>
      have hfront : encodeAll front = [] ∨ ∃ data, encodeAll front = data ++ [newline] := by
        by_cases hnil : front = []
        · exact .inl (by rw [hnil]; rfl)
        · exact .inr (terminated_encodeAll hnil)
      have hload := loadQuarantine_written (P := P) (encodeAll front).length hfragment.ne_nil
        (.inr rfl)
      have hexclude := excludeQuarantine_fragment (P := P) (encodeAll later) hfront
        hfragment.parseRecord_eq (List.length_pos_of_ne_nil hfragment.ne_nil)
      rw [← encodeAll_append] at hexclude
      exact openLedger_replayed hload hexclude (replay_encodeAll (front ++ later)) rfl clock

/-- `open` on a torn disk: the fragment is quarantined. -/
theorem Torn.opened (h : Torn disk records) (clock : ℕ → Monotonic) :
    ∃ disk' handle' records', openLedger P disk clock = .ok (disk', handle') ∧
      Opened P disk' handle' records' ∧
      ∀ operationId, handle'.entries.get? operationId =
        ((entriesOf records).get? operationId).map Entry.settled := by
  cases h with
  | @intro _ fragment hfragment =>
      have hholds := Holds.quarantined (P := P) records [] hfragment
      rw [List.append_nil] at hholds
      have hopened : Opened P
          (quarantineFragment P ⟨encodeAll records ++ fragment, none⟩ (encodeAll records).length
            fragment)
          { entries := entriesOf records, quarantined := true, needsNewline := false } records :=
        ⟨hholds, rfl⟩
      obtain ⟨disk', handle', records', heq, hopened', hget⟩ := hopened.settle clock
      refine ⟨disk', handle', records', ?_, hopened', hget⟩
      rw [← heq]
      obtain ⟨record, rest, hrecord, hne, hrest⟩ := hfragment
      exact openLedger_torn (replay_torn_record records hrecord hne hrest) rfl clock

/-! ## Dying in an append -/

/-- The disk holds these records when no process has it open. -/
def Left (P : Platform) (disk : Disk) (records : List Written) : Prop :=
  (∃ needsNewline, Holds P disk records needsNewline) ∨ Torn disk records

/-- A process that dies in the first append after a clean write leaves the record whole, or
nothing that counts. -/
theorem crash_left {s : System} (hdisk : s.disk = ⟨encodeAll records, none⟩)
    (hneeds : handle.needsNewline = false) (record : Written) (written : ℕ) :
    (crash s handle record written).1.handle = none ∧
      ((crash s handle record written).2 = .crashed true ∧
          Left P (crash s handle record written).1.disk (records ++ [record]) ∨
        (crash s handle record written).2 = .crashed false ∧
          Left P (crash s handle record written).1.disk records) := by
  have hpayload : appendPayload handle record = record.line := by
    simp [appendPayload, hneeds]
  have hlength : record.line.length = record.bytes.length + 1 := by simp [Written.line]
  have hpos : 0 < record.bytes.length := List.length_pos_of_ne_nil record.bytes_ne_nil
  refine ⟨rfl, ?_⟩
  simp only [crash, hpayload, hdisk, Reply.crashed.injEq, decide_eq_true_eq, decide_eq_false_iff_not,
    hlength]
  by_cases hwhole : record.bytes.length ≤ written
  · refine .inl ⟨by omega, .inl ?_⟩
    by_cases hline : written = record.bytes.length
    · -- The newline is missing.
      have htake : record.line.take written = record.bytes := by
        rw [hline, Written.line]
        exact List.take_left
      rw [htake]
      exact ⟨true, .unterminated records record⟩
    · have htake : record.line.take written = record.line :=
        List.take_of_length_le (by omega)
      rw [htake, ← encodeAll_concat]
      exact ⟨false, .terminated (records ++ [record])⟩
  · refine .inr ⟨by omega, ?_⟩
    have htake : record.line.take written = record.bytes.take written := by
      rw [Written.line, List.take_append_of_le_length (by omega)]
    rw [htake]
    by_cases hzero : written = 0
    · rw [hzero, List.take_zero, List.append_nil]
      exact .inl ⟨false, .terminated records⟩
    · refine .inr (.intro records ⟨record, record.bytes.drop written,
        (List.take_append_drop written record.bytes).symm, ?_, ?_⟩)
      · intro hnil
        have := congrArg List.length hnil
        simp only [List.length_take, List.length_nil] at this
        omega
      · intro hnil
        have := congrArg List.length hnil
        simp only [List.length_drop, List.length_nil] at this
        omega

end Cortex.OperationLedger
