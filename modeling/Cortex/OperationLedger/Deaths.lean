import Cortex.OperationLedger.Recovery

/-!
# Any number of deaths

`Holds` and `Torn` are what one death in an append leaves.  After a fragment was
quarantined, a later death may leave a record without its newline (`Unended`), or
a second fragment, which every `open` refuses; a death while `open` quarantines
may leave a sidecar that every `open` refuses as well (`Refused`).

Whatever happened, a disk that can be opened knows the digest of every operation
that began: `digests` of its records is changed by the record of a `begin` only.
-/

namespace Cortex.OperationLedger

open Control (Text)
open Transaction

/-! ## What deaths leave -/

/-- A quarantined fragment and a last record without its newline. -/
inductive Unended (P : Platform) : Disk → List Written → Prop
  | intro (records later : List Written) (record : Written) {fragment : Bytes}
      (h : Fragment fragment) :
      Unended P
        ⟨encodeAll records ++ fragment ++ newline :: (encodeAll later ++ record.bytes),
          some (quarantineBytes P (encodeAll records).length fragment)⟩
        (records ++ later ++ [record])

/-- No `open` succeeds. -/
def Refused (P : Platform) (disk : Disk) : Prop :=
  ∀ clock, ∃ error, openLedger P disk clock = .error error

/-- What any number of deaths leave of these records. -/
inductive Survives (P : Platform) (disk : Disk) (records : List Written) : Prop
  | held {needsNewline : Bool} : Holds P disk records needsNewline → Survives P disk records
  | torn : Torn disk records → Survives P disk records
  | unended : Unended P disk records → Survives P disk records
  | refused : Refused P disk → Survives P disk records

/-- What `open` accepts, with these records. -/
inductive Openable (P : Platform) (disk : Disk) (records : List Written) : Prop
  | held {needsNewline : Bool} : Holds P disk records needsNewline → Openable P disk records
  | torn : Torn disk records → Openable P disk records
  | unended : Unended P disk records → Openable P disk records

/-- An open ledger remembers these records. -/
def Follows (P : Platform) (disk : Disk) (handle : Handle) (records : List Written) : Prop :=
  (Holds P disk records handle.needsNewline ∨
    Unended P disk records ∧ handle.needsNewline = true) ∧ handle.entries = entriesOf records

/-- The request digest of every operation in the records. -/
def digests (records : List Written) (operationId : Text) : Option Text :=
  ((entriesOf records).get? operationId).map fun entry => entry.requestDigest.val

variable {P : Platform} {disk : Disk} {handle : Handle} {records : List Written}

theorem Openable.survives (h : Openable P disk records) : Survives P disk records := by
  cases h with
  | held hholds => exact .held hholds
  | torn htorn => exact .torn htorn
  | unended hunended => exact .unended hunended

theorem Follows.openable (h : Follows P disk handle records) : Openable P disk records := by
  rcases h.1 with hholds | ⟨hunended, -⟩
  · exact .held hholds
  · exact .unended hunended

theorem Follows.survives (h : Follows P disk handle records) : Survives P disk records :=
  h.openable.survives

theorem digests_concat (record : Written) :
    digests (records ++ [record]) =
      Function.update (digests records) record.entry.key
        (some record.entry.requestDigest.val) := by
  funext operationId
  rw [digests, entriesOf_append_singleton, Dict.get?_set]
  by_cases heq : operationId = record.entry.key
  · rw [if_pos heq, heq, Function.update_self]
    rfl
  · rw [if_neg heq, Function.update_of_ne heq]
    rfl

/-- The record of an operation that is known says nothing new. -/
theorem digests_known {record : Written}
    (h : digests records record.entry.key = some record.entry.requestDigest.val) :
    digests (records ++ [record]) = digests records := by
  rw [digests_concat, ← h, Function.update_eq_self]

/-! ## Appending, and dying in an append -/

theorem Follows.append (h : Follows P disk handle records) (record : Written) :
    Follows P (OperationLedger.append disk handle record).1
      (OperationLedger.append disk handle record).2 (records ++ [record]) := by
  obtain ⟨hdisk | ⟨hunended, hneeds⟩, hentries⟩ := h
  · obtain ⟨hholds, hentries'⟩ := Opened.append ⟨hdisk, hentries⟩ record
    exact ⟨.inl hholds, hentries'⟩
  · have hlater : (OperationLedger.append disk handle record).2.entries =
        entriesOf (records ++ [record]) := by
      rw [entriesOf_append_singleton, ← hentries]
      rfl
    refine ⟨.inl ?_, hlater⟩
    cases hunended with
    | intro front later last hfragment =>
        -- The append first ends the last record.
        have hholds := Holds.quarantined (P := P) front (later ++ [last] ++ [record]) hfragment
        have hledger : encodeAll (later ++ [last] ++ [record]) =
            encodeAll later ++ last.bytes ++ newline :: record.line := by
          rw [encodeAll_concat, encodeAll_concat, Written.line]
          simp
        rw [hledger] at hholds
        simpa [OperationLedger.append, appendPayload, hneeds] using hholds

/-- The disk when the process dies `written` bytes into an append. -/
def diesAppending (disk : Disk) (handle : Handle) (record : Written) (written : ℕ) : Disk :=
  { disk with ledger := disk.ledger ++ (appendPayload handle record).take written }

/-- What is there of a line that was being written: the record is whole, or nothing counts. -/
theorem take_line (record : Written) (written : ℕ) :
    if record.line.length ≤ written + 1 then
      record.line.take written = record.bytes ∨ record.line.take written = record.line
    else record.line.take written = [] ∨ Fragment (record.line.take written) := by
  have hlength : record.line.length = record.bytes.length + 1 := by simp [Written.line]
  split
  · by_cases heq : written = record.bytes.length
    · rw [heq, Written.line]
      exact .inl List.take_left
    · exact .inr (List.take_of_length_le (by omega))
  · have htake : record.line.take written = record.bytes.take written := by
      rw [Written.line, List.take_append_of_le_length (by omega)]
    by_cases hzero : written = 0
    · exact .inl (by rw [hzero, List.take_zero])
    · refine .inr ⟨record, record.bytes.drop written, ?_, ?_, ?_⟩
      · rw [htake, List.take_append_drop]
      · intro hnil
        have hlen := congrArg List.length hnil
        rw [List.length_take, List.length_nil] at hlen
        omega
      · intro hnil
        have hlen := congrArg List.length hnil
        rw [List.length_drop, List.length_nil] at hlen
        omega

private theorem Fragment.malformed {fragment : Bytes} (h : Fragment fragment) :
    parseRecord P fragment = .error (.unavailable "ledger record is malformed") := by
  obtain ⟨record, rest, hrecord, -, hrest⟩ := h
  exact parseRecord_torn hrecord hrest

private theorem Fragment.length_pos {fragment : Bytes} (h : Fragment fragment) :
    0 < fragment.length := by
  obtain ⟨record, rest, -, hne, -⟩ := h
  exact List.length_pos_of_ne_nil hne

private theorem front_terminated (front : List Written) :
    encodeAll front = [] ∨ ∃ data, encodeAll front = data ++ [newline] := by
  by_cases hnil : front = []
  · exact .inl (by rw [hnil]; rfl)
  · exact .inr (terminated_encodeAll hnil)

/-- What `open` replays behind a quarantined fragment. -/
theorem replayData_quarantined (front : List Written) {fragment : Bytes}
    (hfragment : Fragment fragment) (rest : Bytes) :
    ∃ quarantine, loadQuarantine P
        (some (quarantineBytes P (encodeAll front).length fragment)) = .ok (some quarantine) ∧
      replayData P (encodeAll front ++ fragment ++ newline :: rest) (some quarantine) =
        .ok (encodeAll front ++ rest) := by
  refine ⟨_, loadQuarantine_written (P := P) (encodeAll front).length
    (List.ne_nil_of_length_pos hfragment.length_pos) (.inr rfl), ?_⟩
  exact excludeQuarantine_fragment rest (front_terminated front) hfragment.malformed
    hfragment.length_pos

/-- A second fragment. -/
private theorem refused_second {front later : List Written} {fragment second : Bytes}
    (hfragment : Fragment fragment) (hsecond : Fragment second) :
    Refused P
      ⟨encodeAll front ++ fragment ++ newline :: (encodeAll later ++ second),
        some (quarantineBytes P (encodeAll front).length fragment)⟩ := by
  intro clock
  obtain ⟨quarantine, hload, hdata⟩ :=
    replayData_quarantined (P := P) front hfragment (encodeAll later ++ second)
  obtain ⟨record, rest, hrecord, hne, hrest⟩ := hsecond
  have hreplay := replay_torn_record (P := P) (front ++ later) hrecord hne hrest
  rw [encodeAll_append, List.append_assoc] at hreplay
  refine ⟨.unavailable "ledger contains a second torn fragment", ?_⟩
  simp only [openLedger, hload, hdata, hreplay, bind, Except.bind]
  rfl

/-- The records after a death in an append of this one. -/
def withRecord (records : List Written) (record : Written) (whole : Prop) [Decidable whole] :
    List Written :=
  if whole then records ++ [record] else records

/-- The append ends inside its record. -/
def Tears (handle : Handle) (record : Written) (written : ℕ) : Prop :=
  let owed := if handle.needsNewline then 1 else 0
  owed < written ∧ written < record.bytes.length + owed

private theorem openable_terminated (records : List Written) (record : Written) (written : ℕ) :
    Openable P ⟨encodeAll records ++ record.line.take written, none⟩
      (withRecord records record (record.line.length ≤ written + 1)) := by
  have hline := take_line record written
  unfold withRecord
  split at hline
  · rw [if_pos ‹_›]
    rcases hline with htake | htake
    · rw [htake]
      exact .held (.unterminated records record)
    · rw [htake, ← encodeAll_concat]
      exact .held (.terminated (records ++ [record]))
  · rw [if_neg ‹_›]
    rcases hline with htake | hfragment
    · rw [htake, List.append_nil]
      exact .held (.terminated records)
    · exact .torn (.intro records hfragment)

/-- A second fragment is refused, and nothing else is. -/
private theorem openable_or_refused (front later : List Written) {fragment : Bytes}
    (hfragment : Fragment fragment) (record : Written) (written : ℕ) :
    let disk : Disk :=
      ⟨encodeAll front ++ fragment ++ newline :: (encodeAll later ++ record.line.take written),
        some (quarantineBytes P (encodeAll front).length fragment)⟩
    Openable P disk
        (withRecord (front ++ later) record (record.line.length ≤ written + 1)) ∨
      Refused P disk ∧ 0 < written ∧ written < record.bytes.length := by
  have hlength : record.line.length = record.bytes.length + 1 := by simp [Written.line]
  have hline := take_line record written
  intro disk
  unfold withRecord
  split at hline
  · rw [if_pos ‹_›]
    left
    rcases hline with htake | htake
    · simp only [disk, htake]
      exact .unended (.intro front later record hfragment)
    · simp only [disk, htake, ← encodeAll_concat, List.append_assoc front]
      exact .held (.quarantined front (later ++ [record]) hfragment)
  · rw [if_neg ‹_›]
    rcases hline with htake | hsecond
    · left
      simp only [disk, htake, List.append_nil]
      exact .held (.quarantined front later hfragment)
    · right
      refine ⟨refused_second hfragment hsecond, ?_, by omega⟩
      obtain ⟨-, -, -, hne, -⟩ := hsecond
      apply Nat.pos_of_ne_zero
      intro hzero
      rw [hzero, List.take_zero] at hne
      exact hne rfl

/-- An append that ends after any of its bytes leaves the records, with the appended one if it
is whole, but that `open` refuses a second fragment. -/
theorem Follows.ends (h : Follows P disk handle records) (record : Written) (written : ℕ) :
    Openable P (diesAppending disk handle record written)
        (withRecord records record ((appendPayload handle record).length ≤ written + 1)) ∨
      Refused P (diesAppending disk handle record written) ∧ disk.sidecar.isSome = true ∧
        Tears handle record written := by
  have hpos : 0 < record.line.length := by simp [Written.line]
  have hlong : ¬(newline :: record.line).length ≤ 0 + 1 := by
    rw [List.length_cons]
    omega
  obtain ⟨entries, quarantined, needsNewline⟩ := handle
  obtain ⟨hdisk | ⟨hunended, hneeds⟩, -⟩ := h
  · cases hdisk with
    | terminated => exact .inl (openable_terminated records record written)
    | unterminated front last =>
        left
        cases written with
        | zero =>
            rw [withRecord, appendPayload, if_pos rfl, if_neg hlong]
            have hholds := Holds.unterminated (P := P) front last
            exact .held (by simpa [diesAppending] using hholds)
        | succ written =>
            -- The first byte ends the last record.
            have hends := openable_terminated (P := P) (front ++ [last]) record written
            rw [encodeAll_concat, Written.line] at hends
            simpa [diesAppending, appendPayload, withRecord] using hends
    | quarantined front later hfragment =>
        have hends := openable_or_refused (P := P) front later hfragment record written
        simpa [diesAppending, appendPayload, Tears] using hends
  · change needsNewline = true at hneeds
    subst hneeds
    cases hunended with
    | intro front later last hfragment =>
        cases written with
        | zero =>
            left
            rw [withRecord, appendPayload, if_pos rfl, if_neg hlong]
            refine .unended ?_
            simpa [diesAppending] using Unended.intro (P := P) front later last hfragment
        | succ written =>
            have hends := openable_or_refused (P := P) front (later ++ [last]) hfragment record
              written
            rw [encodeAll_concat, Written.line] at hends
            simpa [diesAppending, appendPayload, withRecord, Tears] using hends

/-- A death in an append leaves the records, with the appended one if it is whole. -/
theorem Follows.dies (h : Follows P disk handle records) (record : Written) (written : ℕ) :
    Survives P (diesAppending disk handle record written)
      (withRecord records record ((appendPayload handle record).length ≤ written + 1)) := by
  rcases h.ends record written with hopenable | ⟨hrefused, -, -⟩
  · exact hopenable.survives
  · exact .refused hrefused

/-! ## Opening, and dying in `open` -/

/-- `open` before its last loop. -/
def readLedger (P : Platform) (disk : Disk) : Except LedgerError (Disk × Handle) := do
  let quarantine ← loadQuarantine P disk.sidecar
  let data ← replayData P disk.ledger quarantine
  let replayed ← replay P data
  match replayed.torn with
  | some (offset, fragment) => do
      require (quarantine.isNone = true) (.unavailable "ledger contains a second torn fragment")
      pure (quarantineFragment P disk offset fragment,
        { entries := replayed.entries, quarantined := true, needsNewline := false })
  | none =>
      pure (disk,
        { entries := replayed.entries
          quarantined := quarantine.isSome
          needsNewline := replayed.needsNewline })

theorem openLedger_eq (disk : Disk) (clock : ℕ → Monotonic) :
    openLedger P disk clock = (do
      let (disk, handle) ← readLedger P disk
      pure (recordUncertain disk handle clock handle.entries.values)) := by
  unfold openLedger readLedger
  cases loadQuarantine P disk.sidecar with
  | error error => rfl
  | ok quarantine =>
      simp only [ok_bind]
      cases replayData P disk.ledger quarantine with
      | error error => rfl
      | ok data =>
          simp only [ok_bind]
          cases replay P data with
          | error error => rfl
          | ok replayed =>
              simp only [ok_bind]
              cases replayed.torn with
              | none => rfl
              | some torn =>
                  obtain ⟨offset, fragment⟩ := torn
                  dsimp only
                  cases require (quarantine.isNone = true)
                    (LedgerError.unavailable "ledger contains a second torn fragment") with
                  | error error => rfl
                  | ok u => rfl

/-- The records that `open` adds one after the other, until it dies in one of them. -/
def recordDies (disk : Disk) (handle : Handle) (clock : ℕ → Monotonic) (written : ℕ) :
    ℕ → List Entry → Disk
  | _, [] => disk
  | appends, entry :: entries =>
      if entry.phase = .inProgress then
        match appends with
        | 0 => diesAppending disk handle ⟨entry.uncertain, clock 0⟩ written
        | appends + 1 =>
            let (disk, handle) := append disk handle ⟨entry.uncertain, clock 0⟩
            recordDies disk handle (fun n => clock (n + 1)) written appends entries
      else recordDies disk handle clock written appends entries

/-- Where a process dies in `open`. -/
inductive OpenDeath
  | reading
  /-- The sidecar exists, with its first `written` bytes. -/
  | inSidecar (written : ℕ)
  /-- Some records of uncertain operations were appended, and a part of the next. -/
  | recording (appends written : ℕ)

/-- The disk that a death in `open` leaves. -/
def diesOpening (P : Platform) (disk : Disk) (clock : ℕ → Monotonic) : OpenDeath → Disk
  | .reading => disk
  | .inSidecar written =>
      match disk.sidecar, replay P disk.ledger with
      | none, .ok ⟨_, some (start, fragment), _⟩ =>
          crashedOpen P disk.ledger start fragment (.inSidecar written)
      | _, _ => disk
  | .recording appends written =>
      match readLedger P disk with
      | .ok (disk, handle) => recordDies disk handle clock written appends handle.entries.values
      | .error _ => disk

/-- `open` reads the records that the deaths left. -/
theorem Survives.reads {disk' : Disk} (h : Survives P disk records)
    (hread : readLedger P disk = .ok (disk', handle)) : Follows P disk' handle records := by
  cases h with
  | held hholds =>
      cases hholds with
      | terminated =>
          simp only [readLedger, loadQuarantine, replayData, replay_encodeAll, ok_bind] at hread
          obtain ⟨rfl, rfl⟩ := Prod.mk.inj (pure_eq_ok.1 hread)
          exact ⟨.inl (.terminated records), rfl⟩
      | unterminated front last =>
          simp only [readLedger, loadQuarantine, replayData, replay_unterminated, ok_bind] at hread
          obtain ⟨rfl, rfl⟩ := Prod.mk.inj (pure_eq_ok.1 hread)
          exact ⟨.inl (.unterminated front last), rfl⟩
      | quarantined front later hfragment =>
          obtain ⟨quarantine, hload, hdata⟩ :=
            replayData_quarantined (P := P) front hfragment (encodeAll later)
          rw [← encodeAll_append] at hdata
          simp only [readLedger, hload, hdata, replay_encodeAll, ok_bind] at hread
          obtain ⟨rfl, rfl⟩ := Prod.mk.inj (pure_eq_ok.1 hread)
          exact ⟨.inl (.quarantined front later hfragment), rfl⟩
  | torn htorn =>
      cases htorn with
      | intro _ hfragment =>
          obtain ⟨record, rest, hrecord, hne, hrest⟩ := id hfragment
          have hreplay := replay_torn_record (P := P) records hrecord hne hrest
          simp only [readLedger, loadQuarantine, replayData, hreplay, ok_bind] at hread
          obtain ⟨rfl, rfl⟩ := Prod.mk.inj (pure_eq_ok.1 hread)
          have hholds := Holds.quarantined (P := P) records [] hfragment
          rw [List.append_nil] at hholds
          exact ⟨.inl hholds, rfl⟩
  | unended hunended =>
      cases hunended with
      | intro front later last hfragment =>
          obtain ⟨quarantine, hload, hdata⟩ := replayData_quarantined (P := P) front
            hfragment (encodeAll later ++ last.bytes)
          rw [← List.append_assoc, ← encodeAll_append] at hdata
          simp only [readLedger, hload, hdata, replay_unterminated, ok_bind] at hread
          obtain ⟨rfl, rfl⟩ := Prod.mk.inj (pure_eq_ok.1 hread)
          exact ⟨.inr ⟨.intro front later last hfragment, rfl⟩, rfl⟩
  | refused hrefused =>
      obtain ⟨error, herror⟩ := hrefused default
      rw [openLedger_eq, hread] at herror
      cases herror

/-- `open` on a ledger with a fragment in it and a last record without its newline. -/
private theorem Unended.opened (h : Unended P disk records) (clock : ℕ → Monotonic) :
    ∃ disk' handle', openLedger P disk clock = .ok (disk', handle') ∧
      ∀ operationId, handle'.entries.get? operationId =
        ((entriesOf records).get? operationId).map Entry.settled := by
  cases h with
  | intro front later last hfragment =>
      obtain ⟨quarantine, hload, hdata⟩ := replayData_quarantined (P := P) front hfragment
        (encodeAll later ++ last.bytes)
      rw [← List.append_assoc, ← encodeAll_append] at hdata
      refine ⟨_, _, openLedger_replayed hload hdata (replay_unterminated (front ++ later) last) rfl
        clock, ?_⟩
      -- The entries are those that `open` reads from the same records alone.
      have hopened : Opened P ⟨encodeAll (front ++ later ++ [last]), none⟩
          { entries := entriesOf (front ++ later ++ [last]), quarantined := false,
            needsNewline := false } (front ++ later ++ [last]) := ⟨.terminated _, rfl⟩
      obtain ⟨disk', handle', records', heq, -, hget⟩ := hopened.settle clock
      have hentries : ∀ (disk : Disk) (handle : Handle),
          handle.entries = entriesOf (front ++ later ++ [last]) →
          (OperationLedger.recordUncertain disk handle clock
            (entriesOf (front ++ later ++ [last])).values).2.entries = handle'.entries := by
        intro disk handle hsame
        have hlast := congrArg (fun opened => opened.2.entries) heq
        exact (entries_recordUncertain _ disk clock clock hsame).trans hlast
      intro operationId
      rw [← hget]
      exact congrArg (fun entries => entries.get? operationId)
        (hentries _ ⟨entriesOf (front ++ later ++ [last]), true, true⟩ rfl)

/-- `open` on a disk that it accepts: what was in progress is uncertain now. -/
theorem Openable.opened (h : Openable P disk records) (clock : ℕ → Monotonic) :
    ∃ disk' handle', openLedger P disk clock = .ok (disk', handle') ∧
      ∀ operationId, handle'.entries.get? operationId =
        ((entriesOf records).get? operationId).map Entry.settled := by
  cases h with
  | held hholds =>
      obtain ⟨disk', handle', -, hopen, -, hget⟩ := hholds.opened clock
      exact ⟨disk', handle', hopen, hget⟩
  | torn htorn =>
      obtain ⟨disk', handle', -, hopen, -, hget⟩ := htorn.opened (P := P) clock
      exact ⟨disk', handle', hopen, hget⟩
  | unended hunended => exact hunended.opened clock

/-- Operations that were in progress stay known. -/
theorem Follows.recordUncertain (h : Follows P disk handle records) (clock : ℕ → Monotonic)
    {entries : List Entry}
    (hentries : ∀ entry ∈ entries, digests records entry.key = some entry.requestDigest.val) :
    ∃ records', Follows P (OperationLedger.recordUncertain disk handle clock entries).1
        (OperationLedger.recordUncertain disk handle clock entries).2 records' ∧
      digests records' = digests records := by
  induction entries generalizing disk handle records clock with
  | nil => exact ⟨records, h, rfl⟩
  | cons entry entries ih =>
      have hrest := fun other hother => hentries other (List.mem_cons_of_mem _ hother)
      unfold OperationLedger.recordUncertain
      split
      · have hknown : digests (records ++ [Written.mk entry.uncertain (clock 0)]) =
            digests records := digests_known (hentries entry List.mem_cons_self)
        obtain ⟨records', hfollows, hsame⟩ := ih (h.append ⟨entry.uncertain, clock 0⟩)
          (fun n => clock (n + 1)) (by rwa [hknown])
        exact ⟨records', hfollows, hsame.trans hknown⟩
      · exact ih h clock hrest

theorem Follows.recordDies (h : Follows P disk handle records) (clock : ℕ → Monotonic)
    (written appends : ℕ) {entries : List Entry}
    (hentries : ∀ entry ∈ entries, digests records entry.key = some entry.requestDigest.val) :
    ∃ records', Survives P (recordDies disk handle clock written appends entries) records' ∧
      digests records' = digests records := by
  induction entries generalizing disk handle records clock appends with
  | nil => exact ⟨records, h.survives, rfl⟩
  | cons entry entries ih =>
      have hrest := fun other hother => hentries other (List.mem_cons_of_mem _ hother)
      have hknown : digests (records ++ [Written.mk entry.uncertain (clock 0)]) =
          digests records := digests_known (hentries entry List.mem_cons_self)
      unfold OperationLedger.recordDies
      split
      · cases appends with
        | zero =>
            refine ⟨_, h.dies ⟨entry.uncertain, clock 0⟩ written, ?_⟩
            unfold withRecord
            split
            · exact hknown
            · rfl
        | succ appends =>
            obtain ⟨records', hsurvives, hsame⟩ := ih (h.append ⟨entry.uncertain, clock 0⟩)
              (fun n => clock (n + 1)) appends (by rwa [hknown])
            exact ⟨records', hsurvives, hsame.trans hknown⟩
      · exact ih h clock appends hrest

/-- The entries of an open ledger are known. -/
theorem Follows.known (h : Follows P disk handle records) :
    ∀ entry ∈ handle.entries.values,
      digests records entry.key = some entry.requestDigest.val := by
  intro entry hentry
  have hget : handle.entries.get? entry.key = some entry := Dict.get?_eq_some.2 ⟨hentry, rfl⟩
  rw [digests, ← h.2, hget]
  rfl

theorem Survives.opened {disk' : Disk} {clock : ℕ → Monotonic} (h : Survives P disk records)
    (hopen : openLedger P disk clock = .ok (disk', handle)) :
    ∃ records', Follows P disk' handle records' ∧ digests records' = digests records := by
  rw [openLedger_eq, bind_eq_ok] at hopen
  obtain ⟨⟨disk₁, handle₁⟩, hread, hopen⟩ := hopen
  have hfollows := h.reads hread
  have hrecord := hfollows.recordUncertain clock hfollows.known
  rw [pure_eq_ok] at hopen
  rw [hopen] at hrecord
  exact hrecord

theorem Survives.diesOpening (h : Survives P disk records) (clock : ℕ → Monotonic)
    (death : OpenDeath) :
    ∃ records', Survives P (diesOpening P disk clock death) records' ∧
      digests records' = digests records := by
  cases death with
  | reading => exact ⟨records, h, rfl⟩
  | inSidecar written =>
      refine ⟨records, ?_, rfl⟩
      unfold OperationLedger.diesOpening
      dsimp only
      split
      · rename_i entries start fragment needsNewline _ hreplay
        refine .refused fun clock => ?_
        obtain ⟨message, hrefused⟩ := openLedger_inSidecar hreplay rfl written clock
        exact ⟨_, hrefused⟩
      · exact h
  | recording appends written =>
      unfold OperationLedger.diesOpening
      dsimp only
      split
      · rename_i disk₁ handle₁ hread
        have hfollows := h.reads hread
        exact hfollows.recordDies clock written appends hfollows.known
      · exact ⟨records, h, rfl⟩

end Cortex.OperationLedger
