import Cortex.OperationLedger.Known

/-!
# Appends that raise

When `_append_bytes` raises, any part of the payload may be in the file, but the object
goes on with the entries and the `_needs_newline` that it had.  A later append is then
put after whatever is there: behind a part of a record, behind a record without its
newline, or behind a newline that is written a second time.

`Believed` says that the file ends as the object believes.  As long as every append that
writes something finds it so, everything that returned is there when the ledger is opened
again (`returned_visible`).
-/

namespace Cortex.OperationLedger

open Control (Text)
open Transaction

variable {P : Platform} {disk : Disk} {handle : Handle} {records : List Written}

/-! ## The calls -/

/-- The calls that append. -/
inductive Operation
  | begin (operationId kind requestDigest : Text)
  | finish (operationId outcome resultDigest : Text)

namespace Operation

/-- The entry that the operation appends; none for a duplicate. -/
def entry (entries : Entries) : Operation → Except LedgerError (Option Entry)
  | .begin operationId kind requestDigest => beginEntry entries operationId kind requestDigest
  | .finish operationId outcome resultDigest => do
      let entry ← finishEntry entries operationId outcome resultDigest
      pure (some entry)

def call (now : Monotonic) : Operation → Call
  | .begin operationId kind requestDigest => .begin operationId kind requestDigest now
  | .finish operationId outcome resultDigest => .finish operationId outcome resultDigest now

end Operation

/-- How an append ends. -/
inductive Fate
  | returns
  /-- `_append_bytes` raises, after `written` bytes of the payload. -/
  | raises (written : ℕ)
  /-- The process dies there. -/
  | dies (written : ℕ)

/-- How much of the payload is in the file then. -/
def Fate.written (payload : Bytes) : Fate → ℕ
  | .returns => payload.length
  | .raises written => written
  | .dies written => written

inductive Move
  | «open» (clock : ℕ → Monotonic)
  | diesOpening (clock : ℕ → Monotonic) (death : OpenDeath)
  | close
  | operate (operation : Operation) (now : Monotonic) (fate : Fate)

inductive Outcome
  | opened
  | closed
  | died
  | duplicate
  /-- The record is in the file, and the call returned. -/
  | recorded
  /-- `LedgerUnavailable("ledger append failed")`. -/
  | raised
  deriving DecidableEq

/-- What a call answers. -/
def Operation.reply : Operation → Outcome → Reply
  | .begin .., .recorded => .accepted
  | .finish .., .recorded => .finished
  | _, _ => .duplicate

variable (P) in
/-- A call on the ledger, or a death of the process in it; on an error of its arguments the
state is what it was. -/
def move (s : System) : Move → Except LedgerError (System × Outcome)
  | .open clock => do
      require (s.handle.isNone = true)
        (.unavailable "operation ledger is owned by another process")
      let (disk, handle) ← openLedger P s.disk clock
      pure ({ disk, handle := some handle }, .opened)
  | .diesOpening clock death => do
      require (s.handle.isNone = true)
        (.unavailable "operation ledger is owned by another process")
      pure ({ disk := diesOpening P s.disk clock death, handle := none }, .died)
  | .close => pure ({ s with handle := none }, .closed)
  | .operate operation now fate => do
      let handle ← orRaise s.handle (.unavailable "operation ledger is closed")
      match ← operation.entry handle.entries with
      | none => pure (s, .duplicate)
      | some entry =>
          match fate with
          | .returns =>
              let (disk, handle) := append s.disk handle ⟨entry, now⟩
              pure ({ disk, handle := some handle }, .recorded)
          | .raises written =>
              pure ({ s with disk := diesAppending s.disk handle ⟨entry, now⟩ written }, .raised)
          | .dies written =>
              pure ({ disk := diesAppending s.disk handle ⟨entry, now⟩ written, handle := none },
                .died)

/-- An operation whose append returns is the call of the ledger. -/
theorem exec_call (s : System) (operation : Operation) (now : Monotonic) :
    exec P s (operation.call now) =
      (move P s (.operate operation now .returns)).map fun (s', outcome) =>
        (s', operation.reply outcome) := by
  cases hhandle : s.handle with
  | none => cases operation <;> simp [exec, move, Operation.call, hhandle, orRaise, bind,
      Except.bind, Except.map]
  | some handle =>
      cases operation with
      | begin operationId kind requestDigest =>
          simp only [exec, move, Operation.call, Operation.entry, hhandle, orRaise, ok_bind]
          cases beginEntry handle.entries operationId kind requestDigest with
          | error error => rfl
          | ok entry =>
              cases entry with
              | none => rfl
              | some entry => rfl
      | finish operationId outcome resultDigest =>
          simp only [exec, move, Operation.call, Operation.entry, hhandle, orRaise, ok_bind]
          cases finishEntry handle.entries operationId outcome resultDigest with
          | error error => rfl
          | ok entry => rfl

/-! ## What an append finds -/

variable (P) in
/-- The file ends as the object believes: there is no torn record, and the last newline is
missing exactly if the object owes it. -/
def Believed (disk : Disk) (handle : Handle) : Prop :=
  ∃ read, readLedger P disk = .ok (disk, read) ∧ read.needsNewline = handle.needsNewline

variable (P) in
/-- An append that writes something finds the file as the object believes, and one that
raises leaves no part of its record in a ledger that has a fragment already. -/
def Harmless (s : System) : Move → Prop
  | .operate operation now fate => ∀ handle entry, s.handle = some handle →
      operation.entry handle.entries = .ok (some entry) →
      (0 < fate.written (appendPayload handle ⟨entry, now⟩) → Believed P s.disk handle) ∧
      ∀ written, fate = .raises written → s.disk.sidecar.isSome = true →
        ¬Tears handle ⟨entry, now⟩ written
  | _ => True

/-- A file of which the object remembers the records is as it believes, in the forms that an
append may find. -/
theorem Openable.follows (h : Openable P disk records) (hbelieved : Believed P disk handle) :
    Follows P disk { handle with entries := entriesOf records } records := by
  obtain ⟨read, hread, hneeds⟩ := hbelieved
  obtain ⟨hforms, -⟩ := h.survives.reads hread
  rw [hneeds] at hforms
  exact ⟨hforms, rfl⟩

/-- A ledger that follows its records finds the file as it believes. -/
theorem Follows.believed (h : Follows P disk handle records) : Believed P disk handle := by
  obtain ⟨entries, quarantined, needsNewline⟩ := handle
  obtain ⟨hdisk | ⟨hunended, hneeds⟩, -⟩ := h
  · cases hdisk with
    | terminated =>
        refine ⟨⟨entriesOf records, false, false⟩, ?_, rfl⟩
        simp only [readLedger, loadQuarantine, replayData, replay_encodeAll, ok_bind]
        rfl
    | unterminated front last =>
        refine ⟨⟨entriesOf (front ++ [last]), false, true⟩, ?_, rfl⟩
        simp only [readLedger, loadQuarantine, replayData, replay_unterminated, ok_bind]
        rfl
    | quarantined front later hfragment =>
        obtain ⟨quarantine, hload, hdata⟩ :=
          replayData_quarantined (P := P) front hfragment (encodeAll later)
        rw [← encodeAll_append] at hdata
        refine ⟨⟨entriesOf (front ++ later), true, false⟩, ?_, rfl⟩
        simp only [readLedger, hload, hdata, replay_encodeAll, ok_bind]
        rfl
  · change needsNewline = true at hneeds
    subst hneeds
    cases hunended with
    | intro front later last hfragment =>
        obtain ⟨quarantine, hload, hdata⟩ := replayData_quarantined (P := P) front hfragment
          (encodeAll later ++ last.bytes)
        rw [← List.append_assoc, ← encodeAll_append] at hdata
        refine ⟨⟨entriesOf (front ++ later ++ [last]), true, true⟩, ?_, rfl⟩
        simp only [readLedger, hload, hdata, replay_unterminated, ok_bind]
        rfl

/-! ## What is kept -/

/-- Every operation keeps its digest, and its outcome once it has one. -/
def Kept (entries later : Entries) : Prop :=
  ∀ operationId entry, entries.get? operationId = some entry →
    ∃ entry', later.get? operationId = some entry' ∧
      entry'.requestDigest = entry.requestDigest ∧ (entry.phase.final → entry' = entry)

theorem Kept.refl (entries : Entries) : Kept entries entries := by
  intro operationId entry hget
  exact ⟨entry, hget, rfl, fun _ => rfl⟩

theorem Kept.trans {entries later last : Entries} (h : Kept entries later)
    (h' : Kept later last) : Kept entries last := by
  intro operationId entry hget
  obtain ⟨entry', hget', hdigest, hfinal⟩ := h operationId entry hget
  obtain ⟨entry'', hget'', hdigest', hfinal'⟩ := h' operationId entry' hget'
  refine ⟨entry'', hget'', hdigest'.trans hdigest, fun hphase => ?_⟩
  have heq := hfinal hphase
  subst heq
  exact hfinal' hphase

private theorem validateIdentity_ok {operationId kind requestDigest : Text}
    {values : OperationId × Kind × Sha256}
    (h : validateIdentity operationId kind requestDigest = .ok values) :
    values.1.val = operationId ∧ values.2.2.val = requestDigest := by
  simp only [validateIdentity, bind_eq_ok, orRaise_eq_ok, pure_eq_ok] at h
  obtain ⟨operationId', hoperation, kind', hkind, digest, hdigest, rfl⟩ := h
  exact ⟨(checked_eq_some.1 hoperation).symm, (checked_eq_some.1 hdigest).symm⟩

/-- What the entry of an operation says of an operation that is known. -/
private theorem Operation.entry_extends {operation : Operation} {entries : Entries} {entry : Entry}
    (h : operation.entry entries = .ok (some entry)) {existing : Entry}
    (hexisting : entries.get? entry.key = some existing) :
    existing.requestDigest = entry.requestDigest ∧ ¬existing.phase.final := by
  cases operation with
  | begin operationId kind requestDigest =>
      simp only [Operation.entry, beginEntry, bind_eq_ok] at h
      obtain ⟨⟨operationId', kind', digest⟩, hvalid, h⟩ := h
      split at h
      · simp only [bind_eq_ok, pure_eq_ok, reduceCtorEq, and_false, exists_false] at h
      · rename_i hnone
        rw [pure_eq_ok] at h
        cases h
        exact absurd (hnone.symm.trans hexisting) (by simp)
  | finish operationId outcome resultDigest =>
      simp only [Operation.entry, finishEntry, bind_eq_ok, orRaise_eq_ok, require_eq_ok,
        pure_eq_ok] at h
      obtain ⟨entry', ⟨outcome', -, digest, -, before, hbefore, -, hphase, rfl⟩, hentry⟩ := h
      cases hentry
      have hkey : before.operationId.val = operationId := (Dict.get?_eq_some.1 hbefore).2
      have hsame : existing = before := by
        have hget : entries.get? before.operationId.val = some existing := hexisting
        rw [hkey, hbefore] at hget
        exact (Option.some.inj hget).symm
      subst hsame
      refine ⟨rfl, ?_⟩
      rcases hphase with hphase | hphase
      · simp [hphase, Phase.final]
      · simp [hphase, Phase.final]

/-- The entry of an operation loses nothing of what the object remembers. -/
private theorem Kept.set {operation : Operation} {entries later : Entries} {entry : Entry}
    (hkept : Kept entries later) (h : operation.entry entries = .ok (some entry)) :
    Kept entries (later.set entry) := by
  intro operationId existing hget
  rw [Dict.get?_set]
  by_cases hkey : operationId = entry.key
  · subst hkey
    rw [if_pos rfl]
    obtain ⟨hdigest, hopen⟩ := Operation.entry_extends h hget
    exact ⟨entry, rfl, hdigest.symm, fun hfinal => absurd hfinal hopen⟩
  · rw [if_neg hkey]
    exact hkept operationId existing hget

/-- The same when the object remembers it too. -/
private theorem Kept.set_both {entries later : Entries} (hkept : Kept entries later)
    (entry : Entry) : Kept (entries.set entry) (later.set entry) := by
  intro operationId existing hget
  rw [Dict.get?_set] at hget ⊢
  split at hget
  · rename_i hkey
    rw [if_pos hkey]
    exact ⟨existing, hget, rfl, fun _ => rfl⟩
  · rename_i hkey
    rw [if_neg hkey]
    exact hkept operationId existing hget

/-! ## Runs -/

variable (P) in
/-- An open object remembers nothing that the disk has lost; a disk that no process has open
is as deaths leave it. -/
def Live (s : System) : Prop :=
  ∃ records, match s.handle with
    | some handle => Openable P s.disk records ∧ Kept handle.entries (entriesOf records)
    | none => Survives P s.disk records

variable {s s' : System} {outcome : Outcome}

theorem Live.initial : Live P .initial :=
  ⟨[], .held (.terminated [])⟩

/-- The records after an append that ends anywhere. -/
private theorem ends_kept {operation : Operation} {entry : Entry} (now : Monotonic) {written : ℕ}
    (hopenable : Openable P disk records) (hkept : Kept handle.entries (entriesOf records))
    (hentry : operation.entry handle.entries = .ok (some entry))
    (hbelieved : 0 < written → Believed P disk handle) :
    ∃ records', Kept handle.entries (entriesOf records') ∧
      (Openable P (diesAppending disk handle ⟨entry, now⟩ written) records' ∨
        Refused P (diesAppending disk handle ⟨entry, now⟩ written) ∧
          disk.sidecar.isSome = true ∧ Tears handle ⟨entry, now⟩ written) := by
  rcases Nat.eq_zero_or_pos written with rfl | hpos
  · refine ⟨records, hkept, .inl ?_⟩
    simpa [diesAppending] using hopenable
  · have hends := (hopenable.follows (hbelieved hpos)).ends ⟨entry, now⟩ written
    refine ⟨_, ?_, hends⟩
    unfold withRecord
    split
    · rw [entriesOf_append_singleton]
      exact hkept.set hentry
    · exact hkept

theorem Live.step {move : Move} (h : Live P s)
    (hmove : OperationLedger.move P s move = .ok (s', outcome)) (hharmless : Harmless P s move) :
    Live P s' := by
  obtain ⟨records, hrecords⟩ := h
  cases move with
  | «open» clock =>
      simp only [OperationLedger.move, bind_eq_ok, require_eq_ok, pure_eq_ok] at hmove
      obtain ⟨-, hclosed, ⟨disk', handle'⟩, hopen, heq⟩ := hmove
      cases heq
      rw [Option.isNone_iff_eq_none.1 hclosed] at hrecords
      obtain ⟨records', hfollows, -⟩ := Survives.opened hrecords hopen
      refine ⟨records', hfollows.openable, ?_⟩
      rw [hfollows.2]
      exact .refl _
  | diesOpening clock death =>
      simp only [OperationLedger.move, bind_eq_ok, require_eq_ok, pure_eq_ok] at hmove
      obtain ⟨-, hclosed, heq⟩ := hmove
      cases heq
      rw [Option.isNone_iff_eq_none.1 hclosed] at hrecords
      obtain ⟨records', hsurvives, -⟩ := Survives.diesOpening hrecords clock death
      exact ⟨records', hsurvives⟩
  | close =>
      simp only [OperationLedger.move, pure_eq_ok] at hmove
      cases hmove
      refine ⟨records, ?_⟩
      cases hhandle : s.handle with
      | none =>
          rw [hhandle] at hrecords
          exact hrecords
      | some handle =>
          rw [hhandle] at hrecords
          exact hrecords.1.survives
  | operate operation now fate =>
      simp only [OperationLedger.move, bind_eq_ok, orRaise_eq_ok] at hmove
      obtain ⟨handle, hhandle, entry, hentry, hmove⟩ := hmove
      have hfound : Openable P s.disk records ∧ Kept handle.entries (entriesOf records) := by
        rw [hhandle] at hrecords
        exact hrecords
      obtain ⟨hopenable, hkept⟩ := hfound
      cases entry with
      | none =>
          rw [pure_eq_ok] at hmove
          cases hmove
          refine ⟨records, ?_⟩
          rw [hhandle]
          exact ⟨hopenable, hkept⟩
      | some entry =>
          obtain ⟨hbelieved, htears⟩ := hharmless handle entry hhandle hentry
          cases fate with
          | returns =>
              have hpos : 0 < (appendPayload handle ⟨entry, now⟩).length := by
                unfold appendPayload
                split <;> simp [Written.line]
              have happended := (hopenable.follows (hbelieved hpos)).append ⟨entry, now⟩
              rw [pure_eq_ok] at hmove
              cases hmove
              refine ⟨records ++ [Written.mk entry now], happended.openable, ?_⟩
              rw [entriesOf_append_singleton]
              exact hkept.set_both entry
          | raises written =>
              obtain ⟨records', hkept', hends⟩ := ends_kept now hopenable hkept hentry hbelieved
              rw [pure_eq_ok] at hmove
              cases hmove
              refine ⟨records', ?_⟩
              rw [hhandle]
              rcases hends with hends | ⟨-, hsidecar, htorn⟩
              · exact ⟨hends, hkept'⟩
              · exact absurd htorn (htears written rfl hsidecar)
          | dies written =>
              obtain ⟨records', hkept', hends⟩ := ends_kept now hopenable hkept hentry hbelieved
              rw [pure_eq_ok] at hmove
              cases hmove
              refine ⟨records', ?_⟩
              rcases hends with hends | ⟨hrefused, -, -⟩
              · exact hends.survives
              · exact .refused hrefused

variable (P) in
/-- The harmless steps. -/
def Cautious : System → Move × Outcome → System → Prop :=
  restrict (Commits (move P)) fun s event => Harmless P s event.1

/-! ## Runs in which nothing raises -/

variable (P) in
/-- The object, if one is open, follows the records on the disk. -/
def Tracks (s : System) : Prop :=
  ∃ records, match s.handle with
    | some handle => Follows P s.disk handle records
    | none => Survives P s.disk records

/-- Whether an append raises in this step. -/
def Move.raises : Move → Bool
  | .operate _ _ (.raises _) => true
  | _ => false

theorem Tracks.harmless (h : Tracks P s) {move : Move} (hmove : move.raises = false) :
    Harmless P s move := by
  obtain ⟨records, hrecords⟩ := h
  cases move with
  | operate operation now fate =>
      intro handle entry hhandle hentry
      rw [hhandle] at hrecords
      refine ⟨fun _ => hrecords.believed, fun written hfate => ?_⟩
      subst hfate
      cases hmove
  | «open» clock => trivial
  | diesOpening clock death => trivial
  | close => trivial

theorem Tracks.step {move : Move} (h : Tracks P s) (hraises : move.raises = false)
    (hmove : OperationLedger.move P s move = .ok (s', outcome)) : Tracks P s' := by
  obtain ⟨records, hrecords⟩ := h
  cases move with
  | «open» clock =>
      simp only [OperationLedger.move, bind_eq_ok, require_eq_ok, pure_eq_ok] at hmove
      obtain ⟨-, hclosed, ⟨disk', handle'⟩, hopen, heq⟩ := hmove
      cases heq
      rw [Option.isNone_iff_eq_none.1 hclosed] at hrecords
      obtain ⟨records', hfollows, -⟩ := Survives.opened hrecords hopen
      exact ⟨records', hfollows⟩
  | diesOpening clock death =>
      simp only [OperationLedger.move, bind_eq_ok, require_eq_ok, pure_eq_ok] at hmove
      obtain ⟨-, hclosed, heq⟩ := hmove
      cases heq
      rw [Option.isNone_iff_eq_none.1 hclosed] at hrecords
      obtain ⟨records', hsurvives, -⟩ := Survives.diesOpening hrecords clock death
      exact ⟨records', hsurvives⟩
  | close =>
      simp only [OperationLedger.move, pure_eq_ok] at hmove
      cases hmove
      refine ⟨records, ?_⟩
      cases hhandle : s.handle with
      | none =>
          rw [hhandle] at hrecords
          exact hrecords
      | some handle =>
          rw [hhandle] at hrecords
          exact hrecords.survives
  | operate operation now fate =>
      simp only [OperationLedger.move, bind_eq_ok, orRaise_eq_ok] at hmove
      obtain ⟨handle, hhandle, entry, hentry, hmove⟩ := hmove
      have hfollows : Follows P s.disk handle records := by
        rw [hhandle] at hrecords
        exact hrecords
      cases entry with
      | none =>
          rw [pure_eq_ok] at hmove
          cases hmove
          exact ⟨records, hrecords⟩
      | some entry =>
          cases fate with
          | returns =>
              rw [pure_eq_ok] at hmove
              cases hmove
              exact ⟨records ++ [Written.mk entry now], hfollows.append _⟩
          | raises written => cases hraises
          | dies written =>
              rw [pure_eq_ok] at hmove
              cases hmove
              exact ⟨_, hfollows.dies (Written.mk entry now) written⟩

/-- Where nothing raises, every step is harmless, whatever the process dies in. -/
theorem cautious_of_not_raises {events : List (Move × Outcome)}
    (h : History (Commits (move P)) System.initial events s)
    (hraises : ∀ event ∈ events, event.1.raises = false) :
    History (Cautious P) System.initial events s ∧ Tracks P s := by
  induction h with
  | nil => exact ⟨.nil, [], .held (.terminated [])⟩
  | cons _ hstep ih =>
      obtain ⟨hrun, htracks⟩ := ih fun event hevent => hraises event (.tail _ hevent)
      have hraise := hraises _ (.head _)
      exact ⟨hrun.cons ⟨hstep, htracks.harmless hraise⟩, htracks.step hraise hstep⟩

/-! ## What returned -/

/-- The ledger knows that the operation began, or what became of it. -/
def Shows (entries : Entries) : Operation → Prop
  | .begin operationId _ requestDigest =>
      (status entries operationId).state ≠ none ∧
        (status entries operationId).requestDigest = some requestDigest
  | .finish operationId outcome resultDigest =>
      (status entries operationId).state = (outcomeOf outcome).map Subtype.val ∧
        (status entries operationId).resultDigest = some resultDigest

def Outcome.returned : Outcome → Bool
  | .duplicate => true
  | .recorded => true
  | _ => false

/-- The calls that leave the object open. -/
def Move.onObject : Move → Bool
  | .operate _ _ .returns => true
  | .operate _ _ (.raises _) => true
  | _ => false

theorem Shows.kept {entries later : Entries} {operation : Operation}
    (h : Shows entries operation) (hkept : Kept entries later) : Shows later operation := by
  cases operation with
  | begin operationId kind requestDigest =>
      simp only [Shows, status] at h ⊢
      cases hget : entries.get? operationId with
      | none =>
          rw [hget] at h
          exact absurd rfl h.1
      | some entry =>
          rw [hget] at h
          obtain ⟨entry', hget', hdigest, -⟩ := hkept operationId entry hget
          rw [hget']
          refine ⟨by simp [Entry.status], ?_⟩
          rw [← h.2]
          simp [Entry.status, hdigest]
  | finish operationId outcome resultDigest =>
      simp only [Shows, status] at h ⊢
      cases hget : entries.get? operationId with
      | none =>
          rw [hget] at h
          exact absurd h.2 (by simp [OperationStatus.unknown])
      | some entry =>
          rw [hget] at h
          obtain ⟨entry', hget', -, hfinal⟩ := hkept operationId entry hget
          -- It has a result, so its phase is final.
          have hresult : entry.resultDigest.isSome = true := by
            have hsome := h.2
            simp only [Entry.status, Option.map_eq_some_iff] at hsome
            obtain ⟨digest, hdigest, -⟩ := hsome
            rw [hdigest]
            rfl
          rw [hget', hfinal (entry.result_iff.1 hresult)]
          exact h

/-- A restart keeps every operation. -/
theorem kept_settled {entries later : Entries}
    (h : ∀ operationId, later.get? operationId =
      (entries.get? operationId).map Entry.settled) : Kept entries later := by
  intro operationId entry hget
  refine ⟨entry.settled, by rw [h, hget]; rfl, ?_, fun hfinal => ?_⟩
  · unfold Entry.settled
    split <;> rfl
  · have hphase : entry.phase ≠ .inProgress := by
      intro hphase
      rw [hphase] at hfinal
      simp [Phase.final] at hfinal
    rw [Entry.settled, if_neg hphase]

private theorem shows_duplicate {operation : Operation} {entries : Entries}
    (h : operation.entry entries = .ok none) : Shows entries operation := by
  cases operation with
  | begin operationId kind requestDigest =>
      simp only [Operation.entry, beginEntry, bind_eq_ok] at h
      obtain ⟨⟨operationId', kind', digest⟩, hvalid, h⟩ := h
      obtain ⟨hoperation, hdigest⟩ := validateIdentity_ok hvalid
      dsimp only at hoperation hdigest h
      split at h
      · rename_i existing hget
        simp only [bind_eq_ok, require_eq_ok, pure_eq_ok] at h
        obtain ⟨-, hsame, -⟩ := h
        rw [hoperation] at hget
        simp only [Shows, status, hget, Entry.status]
        exact ⟨by simp, by rw [hsame, hdigest]⟩
      · rw [pure_eq_ok] at h
        cases h
  | finish operationId outcome resultDigest =>
      simp only [Operation.entry, bind_eq_ok, pure_eq_ok, reduceCtorEq, and_false,
        exists_false] at h

private theorem shows_recorded {operation : Operation} {entries : Entries} {entry : Entry}
    (h : operation.entry entries = .ok (some entry)) : Shows (entries.set entry) operation := by
  cases operation with
  | begin operationId kind requestDigest =>
      simp only [Operation.entry, beginEntry, bind_eq_ok] at h
      obtain ⟨⟨operationId', kind', digest⟩, hvalid, h⟩ := h
      obtain ⟨hoperation, hdigest⟩ := validateIdentity_ok hvalid
      dsimp only at hoperation hdigest h
      split at h
      · simp only [bind_eq_ok, pure_eq_ok, reduceCtorEq, and_false, exists_false] at h
      · rw [pure_eq_ok] at h
        cases h
        subst hoperation
        subst hdigest
        simp [Shows, status, Dict.get?_set, Entry.key, Entry.status]
  | finish operationId outcome resultDigest =>
      simp only [Operation.entry, finishEntry, bind_eq_ok, orRaise_eq_ok, require_eq_ok,
        pure_eq_ok] at h
      obtain ⟨entry', ⟨outcome', houtcome, digest, hdigest, before, hbefore, -, -, rfl⟩,
        hentry⟩ := h
      cases hentry
      have hkey : before.operationId.val = operationId := (Dict.get?_eq_some.1 hbefore).2
      have hvalue : digest.val = resultDigest := (checked_eq_some.1 hdigest).symm
      simp [Shows, status, Dict.get?_set, Entry.key, Entry.status, hkey, houtcome, hvalue]

/-- A call on an open object leaves it open; it loses nothing, and shows what returned. -/
theorem move_onObject {move : Move} (hobject : move.onObject = true)
    (hhandle : s.handle = some handle)
    (hmove : OperationLedger.move P s move = .ok (s', outcome)) :
    ∃ handle', s'.handle = some handle' ∧ Kept handle.entries handle'.entries ∧
      ∀ operation now fate, move = .operate operation now fate → outcome.returned = true →
        Shows handle'.entries operation := by
  cases move with
  | operate operation now fate =>
      simp only [OperationLedger.move, bind_eq_ok, orRaise_eq_ok] at hmove
      obtain ⟨handle₁, hhandle₁, entry, hentry, hmove⟩ := hmove
      rw [hhandle] at hhandle₁
      cases hhandle₁
      cases entry with
      | none =>
          rw [pure_eq_ok] at hmove
          cases hmove
          refine ⟨handle, hhandle, .refl _, fun operation' now' fate' hsame _ => ?_⟩
          cases hsame
          exact shows_duplicate hentry
      | some entry =>
          cases fate with
          | returns =>
              rw [pure_eq_ok] at hmove
              cases hmove
              refine ⟨_, rfl, (Kept.refl _).set hentry, fun operation' now' fate' hsame _ => ?_⟩
              cases hsame
              exact shows_recorded hentry
          | raises written =>
              rw [pure_eq_ok] at hmove
              cases hmove
              exact ⟨handle, hhandle, .refl _, fun _ _ _ _ hreturned => by cases hreturned⟩
          | dies written => cases hobject
  | «open» clock => cases hobject
  | diesOpening clock death => cases hobject
  | close => cases hobject

theorem live_run {events : List (Move × Outcome)}
    (h : History (Cautious P) System.initial events s) : Live P s :=
  h.invariant Live.initial fun hlive hstep => hlive.step hstep.1 hstep.2

/-- What an object shows after a run of calls on it. -/
theorem shows_run {s₀ : System} {later : List (Move × Outcome)}
    (h : History (Cautious P) s₀ later s) (hopen : s₀.handle ≠ none)
    (hobject : ∀ event ∈ later, event.1.onObject = true) :
    ∃ handle, s.handle = some handle ∧
      ∀ operation now fate outcome, (.operate operation now fate, outcome) ∈ later →
        outcome.returned = true → Shows handle.entries operation := by
  induction h with
  | nil =>
      obtain ⟨handle, hhandle⟩ := Option.ne_none_iff_exists'.1 hopen
      exact ⟨handle, hhandle, fun _ _ _ _ hmem => by cases hmem⟩
  | cons _ hstep ih =>
      obtain ⟨handle, hhandle, hshows⟩ := ih fun event hevent => hobject event (.tail _ hevent)
      obtain ⟨handle', hhandle', hkept, hreturns⟩ :=
        move_onObject (hobject _ (.head _)) hhandle hstep.1
      refine ⟨handle', hhandle', fun operation now fate outcome hmem hreturned => ?_⟩
      rcases List.mem_cons.1 hmem with heq | hmem
      · subst heq
        exact hreturns operation now fate rfl hreturned
      · exact (hshows operation now fate outcome hmem hreturned).kept hkept

/-- After an append that raised, whatever part of it was written: when every append that
writes something finds the file as the object believes, the ledger can be opened again and
shows every call that returned. -/
theorem returned_visible {s₀ : System} {earlier later : List (Move × Outcome)}
    (hreach : History (Cautious P) System.initial earlier s₀) (hopen : s₀.handle ≠ none)
    (hlater : History (Cautious P) s₀ later s)
    (hobject : ∀ event ∈ later, event.1.onObject = true) (clock : ℕ → Monotonic) :
    ∃ disk handle,
      move P { s with handle := none } (.open clock) = .ok (⟨disk, some handle⟩, .opened) ∧
      ∀ operation now fate outcome, (.operate operation now fate, outcome) ∈ later →
        outcome.returned = true → Shows handle.entries operation := by
  obtain ⟨handle, hhandle, hshows⟩ := shows_run hlater hopen hobject
  obtain ⟨records, hrecords⟩ := live_run (hreach.append hlater)
  rw [hhandle] at hrecords
  obtain ⟨hopenable, hkept⟩ := hrecords
  obtain ⟨disk', handle', hopens, hget⟩ := hopenable.opened clock
  refine ⟨disk', handle', ?_, fun operation now fate outcome hmem hreturned => ?_⟩
  · simp only [move, require, hopens, ok_bind]
    rfl
  · have hlast := hkept.trans (kept_settled hget)
    exact (hshows operation now fate outcome hmem hreturned).kept hlast

/-! ## An append that raises -/

def firstBegin : Operation :=
  .begin "op-1".toList "install".toList (List.replicate 64 'a')

def secondBegin : Operation :=
  .begin "op-2".toList "install".toList (List.replicate 64 'b')

/-- A new ledger. -/
def newLedger : System := ⟨⟨[], none⟩, some ⟨.empty, false, false⟩⟩

private theorem newLedger_opened (clock : ℕ → Monotonic) :
    move asciiPlatform .initial (.open clock) = .ok (newLedger, .opened) := rfl

private theorem firstId : isOperationId "op-1".toList = true := by decide

private theorem secondId : isOperationId "op-2".toList = true := by decide

private theorem installKind : isKind "install".toList = true := by decide

private theorem firstDigest : isSha256 (List.replicate 64 'a') = true := by decide

private theorem secondDigest : isSha256 (List.replicate 64 'b') = true := by decide

private theorem noResult : (none : Option Sha256).isSome = true ↔ Phase.inProgress.final := by
  simp [Phase.final]

def firstEntry : Entry :=
  ⟨⟨_, firstId⟩, ⟨_, installKind⟩, .inProgress, ⟨_, firstDigest⟩, none, noResult⟩

def secondEntry : Entry :=
  ⟨⟨_, secondId⟩, ⟨_, installKind⟩, .inProgress, ⟨_, secondDigest⟩, none, noResult⟩

private theorem firstBegin_entry : firstBegin.entry .empty = .ok (some firstEntry) :=
  beginEntry_checked .empty ⟨_, firstId⟩ ⟨_, installKind⟩ ⟨_, firstDigest⟩

private theorem secondBegin_entry : secondBegin.entry .empty = .ok (some secondEntry) :=
  beginEntry_checked .empty ⟨_, secondId⟩ ⟨_, installKind⟩ ⟨_, secondDigest⟩

private theorem firstBegin_raises (written : ℕ) :
    move asciiPlatform newLedger (.operate firstBegin default (.raises written)) =
      .ok ({ newLedger with
        disk := diesAppending newLedger.disk ⟨.empty, false, false⟩ ⟨firstEntry, default⟩
          written }, .raised) := by
  simp only [move, newLedger, orRaise, ok_bind, firstBegin_entry]
  rfl

/-- The state after a second `begin`, behind what the first one left. -/
private def secondRecorded (ledger : Bytes) : System :=
  let (disk, handle) := append ⟨ledger, none⟩ ⟨.empty, false, false⟩ ⟨secondEntry, default⟩
  ⟨disk, some handle⟩

private theorem secondBegin_recorded (ledger : Bytes) :
    move asciiPlatform ⟨⟨ledger, none⟩, some ⟨.empty, false, false⟩⟩
      (.operate secondBegin default .returns) = .ok (secondRecorded ledger, .recorded) := by
  simp only [move, orRaise, ok_bind, secondBegin_entry]
  rfl

/-- Nothing of the first record was written. -/
theorem returned_visible_unwritten :
    ∃ s disk handle, History (Cautious asciiPlatform) newLedger
        [(.operate secondBegin default .returns, .recorded),
          (.operate firstBegin default (.raises 0), .raised)] s ∧
      move asciiPlatform { s with handle := none } (.open fun _ => default) =
        .ok (⟨disk, some handle⟩, .opened) ∧
      Shows handle.entries secondBegin := by
  have hbelieved : Believed asciiPlatform newLedger.disk ⟨.empty, false, false⟩ :=
    ⟨⟨.empty, false, false⟩, rfl, rfl⟩
  have hreach : History (Cautious asciiPlatform) System.initial
      [(.open fun _ => default, .opened)] newLedger :=
    .cons .nil ⟨newLedger_opened _, trivial⟩
  have hlater : History (Cautious asciiPlatform) newLedger
      [(.operate secondBegin default .returns, .recorded),
        (.operate firstBegin default (.raises 0), .raised)] (secondRecorded []) := by
    refine .cons (.cons .nil ⟨firstBegin_raises 0, ?_⟩) ⟨secondBegin_recorded [], ?_⟩
    · intro handle entry hhandle hentry
      exact ⟨fun hwritten => absurd hwritten (Nat.lt_irrefl 0), fun _ _ hsidecar => by cases hsidecar⟩
    · intro handle entry hhandle hentry
      cases hhandle
      exact ⟨fun _ => hbelieved, fun _ hfate => by cases hfate⟩
  obtain ⟨disk, handle, hopens, hshows⟩ := returned_visible hreach (Option.some_ne_none _) hlater
    (by decide) fun _ => default
  exact ⟨_, disk, handle, hlater, hopens, hshows secondBegin default .returns .recorded
    (.head _) rfl⟩

/-- Behind the first byte of another record, the record of a `begin` that returned makes a line
that no `open` accepts. -/
theorem raised_poisons :
    ∃ s, History (Commits (move asciiPlatform)) System.initial
        [(.operate secondBegin default .returns, .recorded),
          (.operate firstBegin default (.raises 1), .raised),
          (.open fun _ => default, .opened)] s ∧
      ∀ clock, move asciiPlatform { s with handle := none } (.open clock) =
        .error (.unavailable "ledger contains a malformed non-quarantined line") := by
  have hraises : move asciiPlatform newLedger (.operate firstBegin default (.raises 1)) =
      .ok (⟨⟨[123], none⟩, some ⟨.empty, false, false⟩⟩, .raised) := by
    rw [firstBegin_raises]
    rfl
  have hreplay : (match replay asciiPlatform (secondRecorded [123]).disk.ledger with
      | .error error => some error
      | .ok _ => none) =
        some (.unavailable "ledger contains a malformed non-quarantined line") := by
    decide +kernel
  refine ⟨secondRecorded [123], .cons (.cons (.cons .nil (newLedger_opened _)) hraises)
    (secondBegin_recorded [123]), fun clock => ?_⟩
  have hsidecar : (secondRecorded [123]).disk.sidecar = none := rfl
  split at hreplay
  · rename_i error hrefused
    cases hreplay
    simp only [move, openLedger, loadQuarantine, replayData, require, hsidecar, hrefused, ok_bind]
    rfl
  · cases hreplay

end Cortex.OperationLedger
