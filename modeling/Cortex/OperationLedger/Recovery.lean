import Cortex.OperationLedger.Disk

/-!
# Dying in `open`

`open` quarantines a torn record with two durable writes, the sidecar and then a
newline in the ledger.  A process that dies between them leaves a sidecar that
matches no newline, or none that can be read, and every later `open` refuses the
pair; the disk stays as it is, so it is refused for good.

`restarts_iff` says for which deaths the next `open` carries on.
-/

namespace Cortex.OperationLedger

open Transaction

variable {P : Platform} {data fragment : Bytes} {replayed : Replayed} {start : ℕ}

/-- Where `open` dies while it quarantines a fragment. -/
inductive CrashPoint
  | beforeSidecar
  /-- The sidecar exists, with its first `written` bytes. -/
  | inSidecar (written : ℕ)
  /-- The sidecar is whole, and the newline is in the ledger. -/
  | afterNewline

/-- The disk that a death in `open` leaves. -/
def crashedOpen (P : Platform) (data : Bytes) (start : ℕ) (fragment : Bytes) : CrashPoint → Disk
  | .beforeSidecar => ⟨data, none⟩
  | .inSidecar written => ⟨data, some ((quarantineBytes P start fragment).take written)⟩
  | .afterNewline => quarantineFragment P ⟨data, none⟩ start fragment

/-- The next `open` succeeds, with the entries of an `open` that did not die. -/
def Restarts (P : Platform) (data : Bytes) (start : ℕ) (fragment : Bytes) (point : CrashPoint)
    (clock clock' : ℕ → Monotonic) : Prop :=
  ∃ disk handle disk' handle', openLedger P ⟨data, none⟩ clock = .ok (disk, handle) ∧
    openLedger P (crashedOpen P data start fragment point) clock' = .ok (disk', handle') ∧
    handle'.entries = handle.entries

/-- The deaths that do no harm: before the sidecar exists, and after the newline when the
fragment stands where the sidecar may say it does. -/
def Recoverable (data : Bytes) (start : ℕ) : CrashPoint → Prop
  | .beforeSidecar => True
  | .inSidecar _ => False
  | .afterNewline => start = 0 ∨ slice data (start - 1) start = [newline]

/-! ## Where the torn record stands -/

/-- The entries that `open` remembers do not depend on the disk, nor on the clock. -/
theorem entries_recordUncertain (disk disk' : Disk) {handle handle' : Handle}
    (clock clock' : ℕ → Monotonic) {entries : List Entry} (h : handle'.entries = handle.entries) :
    (recordUncertain disk' handle' clock' entries).2.entries =
      (recordUncertain disk handle clock entries).2.entries := by
  induction entries generalizing disk disk' handle handle' clock clock' with
  | nil => exact h
  | cons entry entries ih =>
      unfold recordUncertain
      split
      · apply ih
        show handle'.entries.set _ = handle.entries.set _
        rw [h]
      · exact ih disk disk' clock clock' h

/-- Before a fragment at the start of a line, the file replays to the same entries. -/
private theorem replay_front (hreplay : replay P data = .ok replayed)
    (htorn : replayed.torn = some (start, fragment))
    (hstart : start = 0 ∨ slice data (start - 1) start = [newline]) :
    ∃ front replayed', data = front ++ fragment ∧ start = front.length ∧
      (front = [] ∨ ∃ head, front = head ++ [newline]) ∧
      replay P front = .ok replayed' ∧ replayed'.torn = none ∧
      replayed'.entries = replayed.entries := by
  obtain ⟨front, rfl, rfl, -, -, hline, -, hlines⟩ := replay_torn hreplay htorn
  have hfront : front = [] ∨ ∃ head, front = head ++ [newline] := by
    rcases List.eq_nil_or_concat front with rfl | ⟨head, b, rfl⟩
    · exact .inl rfl
    · refine .inr ⟨head, ?_⟩
      rw [List.concat_eq_append] at hstart ⊢
      have hslice : slice (head ++ [b] ++ fragment) ((head ++ [b]).length - 1)
          (head ++ [b]).length = [b] := by
        simp [slice, List.take_append]
      rw [hslice] at hstart
      rcases hstart with hzero | hb
      · simp at hzero
      · rw [hb]
  have hsplit : splitlines front = (splitlines (front ++ fragment)).dropLast := by
    rcases hfront with rfl | ⟨head, rfl⟩
    · rw [List.nil_append, hline]
      rfl
    · have happend := splitlines_append head fragment
      rw [hline] at happend
      rw [List.append_assoc, List.singleton_append, happend, List.dropLast_concat]
  rw [← hsplit] at hlines
  have hreplay' : replay P front =
      .ok
        { entries := replayed.entries
          torn := none
          needsNewline := lastUnterminated (splitlines front) } := by
    rw [replay, hlines]
    rfl
  exact ⟨front, _, rfl, rfl, hfront, hreplay', rfl, rfl⟩

/-! ## The three kinds of death -/

private theorem openLedger_of_load {disk : Disk} {error : LedgerError}
    (hload : loadQuarantine P disk.sidecar = .error error) (clock : ℕ → Monotonic) :
    openLedger P disk clock = .error error := by
  simp only [openLedger, hload, bind, Except.bind]

private theorem openLedger_of_exclude {disk : Disk} {quarantine : Quarantine} {error : LedgerError}
    (hload : loadQuarantine P disk.sidecar = .ok (some quarantine))
    (hexclude : excludeQuarantine P disk.ledger quarantine = .error error)
    (clock : ℕ → Monotonic) : openLedger P disk clock = .error error := by
  simp only [openLedger, hload, replayData, hexclude, bind, Except.bind]

private theorem restarts_beforeSidecar (hreplay : replay P data = .ok replayed)
    (htorn : replayed.torn = some (start, fragment)) (clock clock' : ℕ → Monotonic) :
    Restarts P data start fragment .beforeSidecar clock clock' :=
  ⟨_, _, _, _, openLedger_torn hreplay htorn clock, openLedger_torn hreplay htorn clock',
    entries_recordUncertain _ _ clock clock' rfl⟩

/-- A sidecar without the newline is refused, however much of it was written. -/
theorem openLedger_inSidecar (hreplay : replay P data = .ok replayed)
    (htorn : replayed.torn = some (start, fragment)) (written : ℕ) (clock : ℕ → Monotonic) :
    ∃ message, openLedger P (crashedOpen P data start fragment (.inSidecar written)) clock =
      .error (.unavailable message) := by
  obtain ⟨front, rfl, rfl, hne, -, -, -, -⟩ := replay_torn hreplay htorn
  obtain hshort | hlong := Nat.lt_or_ge written
    (encode (Json.dumps (quarantineMembers P front.length fragment))).length
  · -- The document is not whole.
    have hload := loadQuarantine_torn (P := P)
      (List.take_append_drop written
        (encode (Json.dumps (quarantineMembers P front.length fragment)))).symm (by
          intro hnil
          have := congrArg List.length hnil
          simp only [List.length_drop, List.length_nil] at this
          omega)
    rw [← List.take_append_of_le_length hshort.le] at hload
    exact ⟨_, openLedger_of_load hload clock⟩
  · -- The document is whole, but nothing follows the fragment in the ledger.
    obtain ⟨tail, htail, htake⟩ : ∃ tail, (tail = [] ∨ tail = [newline]) ∧
        (quarantineBytes P front.length fragment).take written =
          encode (Json.dumps (quarantineMembers P front.length fragment)) ++ tail := by
      rw [quarantineBytes, List.take_append, List.take_of_length_le hlong]
      refine ⟨_, ?_, rfl⟩
      rcases written - (encode (Json.dumps (quarantineMembers P front.length fragment))).length
        with - | n
      · exact .inl rfl
      · exact .inr (by simp)
    have hload := loadQuarantine_written (P := P) front.length hne htail
    rw [← htake] at hload
    refine ⟨_, openLedger_of_exclude hload (excludeQuarantine_too_short ?_) clock⟩
    simp [crashedOpen]

private theorem openLedger_afterNewline (hreplay : replay P data = .ok replayed)
    (htorn : replayed.torn = some (start, fragment)) (clock : ℕ → Monotonic)
    (hstart : ¬(start = 0 ∨ slice data (start - 1) start = [newline])) :
    ∃ message, openLedger P (crashedOpen P data start fragment .afterNewline) clock =
      .error (.unavailable message) := by
  obtain ⟨front, rfl, rfl, hne, -, -, -, -⟩ := replay_torn hreplay htorn
  rw [not_or] at hstart
  have hload := loadQuarantine_written (P := P) front.length hne (.inr rfl)
  have hslice : slice (front ++ fragment ++ [newline]) (front.length - 1) front.length =
      slice (front ++ fragment) (front.length - 1) front.length := by
    simp [slice]
  refine ⟨_, openLedger_of_exclude hload (excludeQuarantine_misplaced ?_) clock⟩
  intro himp
  refine hstart.2 ?_
  rw [← hslice]
  exact himp (Nat.pos_of_ne_zero hstart.1)

private theorem restarts_afterNewline (hreplay : replay P data = .ok replayed)
    (htorn : replayed.torn = some (start, fragment)) (clock clock' : ℕ → Monotonic)
    (hstart : start = 0 ∨ slice data (start - 1) start = [newline]) :
    Restarts P data start fragment .afterNewline clock clock' := by
  obtain ⟨-, -, -, hne, -, -, ⟨message, hparse⟩, -⟩ := replay_torn hreplay htorn
  obtain ⟨front, replayed', rfl, rfl, hfront, hreplay', htorn', hentries⟩ :=
    replay_front hreplay htorn hstart
  have hload := loadQuarantine_written (P := P) front.length hne (.inr rfl)
  have hexclude := excludeQuarantine_fragment [] hfront hparse (List.length_pos_of_ne_nil hne)
  rw [List.append_nil] at hexclude
  refine ⟨_, _, _, _, openLedger_torn hreplay htorn clock,
    openLedger_replayed hload hexclude hreplay' htorn' clock', ?_⟩
  rw [hentries]
  exact entries_recordUncertain _ _ clock clock' rfl

/-! ## The result -/

/-- The next `open` carries on where `open` died, exactly at the harmless points. -/
theorem restarts_iff (hreplay : replay P data = .ok replayed)
    (htorn : replayed.torn = some (start, fragment)) (point : CrashPoint)
    (clock clock' : ℕ → Monotonic) :
    Restarts P data start fragment point clock clock' ↔ Recoverable data start point := by
  cases point with
  | beforeSidecar => exact iff_of_true (restarts_beforeSidecar hreplay htorn clock clock') trivial
  | inSidecar written =>
      refine iff_of_false ?_ id
      rintro ⟨disk, handle, disk', handle', -, hopen, -⟩
      obtain ⟨message, hrefused⟩ := openLedger_inSidecar hreplay htorn written clock'
      rw [hrefused] at hopen
      contradiction
  | afterNewline =>
      constructor
      · rintro ⟨disk, handle, disk', handle', -, hopen, -⟩
        by_contra hstart
        obtain ⟨message, hrefused⟩ := openLedger_afterNewline hreplay htorn clock' hstart
        rw [hrefused] at hopen
        contradiction
      · exact restarts_afterNewline hreplay htorn clock clock'

/-- A ledger of one torn byte, and a death right after the sidecar was created. -/
theorem restarts_iff_bracket :
    Restarts asciiPlatform [123] 0 [123] (.inSidecar 0) default default ↔
      Recoverable [123] 0 (.inSidecar 0) := by
  have hreplay : replay asciiPlatform [123] = .ok ⟨.empty, some (0, [123]), false⟩ := rfl
  exact restarts_iff hreplay rfl _ _ _

/-- There a death does do harm. -/
theorem open_not_restartable :
    ¬∀ (P : Platform) (data : Bytes) (replayed : Replayed) (start : ℕ) (fragment : Bytes)
      (point : CrashPoint) (clock clock' : ℕ → Monotonic), replay P data = .ok replayed →
      replayed.torn = some (start, fragment) →
      Restarts P data start fragment point clock clock' := by
  intro h
  obtain ⟨disk, handle, disk', handle', -, hopen, -⟩ :=
    h asciiPlatform [123] ⟨.empty, some (0, [123]), false⟩ 0 [123] (.inSidecar 0) default default
      rfl rfl
  have hrefused : openLedger asciiPlatform (crashedOpen asciiPlatform [123] 0 [123] (.inSidecar 0))
      default = .error (.unavailable "quarantine sidecar is malformed") := rfl
  rw [hrefused] at hopen
  contradiction

end Cortex.OperationLedger
