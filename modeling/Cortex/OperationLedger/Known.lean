import Cortex.OperationLedger.Deaths

/-!
# What the ledger knows

`Knows P s r`: the ledger, open or as deaths left it, knows the operations of `r`
with the digests they began under.  There is one lemma for each call and each
death; only a `begin` of an operation that is not known adds one.
-/

namespace Cortex.OperationLedger

open Control (Text)
open Transaction

variable {P : Platform} {s s' : System} {r : Text → Option Text} {reply : Reply}

/-- The ledger knows these operations, with the digests they began under. -/
def Knows (P : Platform) (s : System) (r : Text → Option Text) : Prop :=
  ∃ records, digests records = r ∧
    match s.handle with
    | some handle => Follows P s.disk handle records
    | none => Survives P s.disk records

theorem knows_initial : Knows P .initial fun _ => none :=
  ⟨[], rfl, .held (.terminated [])⟩

theorem Knows.dropped (h : Knows P s r) : Knows P { s with handle := none } r := by
  obtain ⟨records, hr, hstored⟩ := h
  refine ⟨records, hr, ?_⟩
  cases hhandle : s.handle with
  | none =>
      rw [hhandle] at hstored
      exact hstored
  | some handle =>
      rw [hhandle] at hstored
      exact hstored.survives

/-- What an open ledger remembers of an operation. -/
theorem Knows.remembers (h : Knows P s r) {handle : Handle} (hhandle : s.handle = some handle)
    (operationId : Text) :
    (handle.entries.get? operationId).map (fun entry => entry.requestDigest.val) =
      r operationId := by
  obtain ⟨records, rfl, hstored⟩ := h
  rw [hhandle] at hstored
  rw [digests, ← hstored.2]

/-! ## Entries -/

theorem beginEntry_checked (entries : Entries) (operationId : OperationId) (kind : Kind)
    (requestDigest : Sha256) :
    beginEntry entries operationId.val kind.val requestDigest.val =
      match entries.get? operationId.val with
      | some existing => do
          require (existing.requestDigest = requestDigest)
            (.conflict "operation identifier has a different request digest")
          pure none
      | none =>
          pure (some
            { operationId, kind, requestDigest
              phase := .inProgress
              resultDigest := none
              result_iff := by simp [Phase.final] }) := by
  simp only [beginEntry, validateIdentity, checked_val, orRaise, ok_bind]
  rfl

private theorem beginEntry_known {entries : Entries} {operationId : OperationId} {kind : Kind}
    {requestDigest : Sha256} {entry : Option Entry}
    (h : beginEntry entries operationId.val kind.val requestDigest.val = .ok entry) :
    match entry with
    | some entry => entry.key = operationId.val ∧ entry.requestDigest = requestDigest ∧
        entries.get? operationId.val = none
    | none => (entries.get? operationId.val).map (fun entry => entry.requestDigest.val) =
        some requestDigest.val := by
  rw [beginEntry_checked] at h
  cases hget : entries.get? operationId.val with
  | some existing =>
      rw [hget] at h
      simp only [bind_eq_ok, require_eq_ok, pure_eq_ok] at h
      obtain ⟨-, hdigest, rfl⟩ := h
      exact congrArg (fun digest => some digest.val) hdigest
  | none =>
      rw [hget] at h
      obtain rfl := pure_eq_ok.1 h
      exact ⟨rfl, rfl, rfl⟩

private theorem finishEntry_known {entries : Entries} {operationId outcome resultDigest : Text}
    {entry : Entry} (h : finishEntry entries operationId outcome resultDigest = .ok entry) :
    (entries.get? entry.key).map (fun entry => entry.requestDigest.val) =
      some entry.requestDigest.val := by
  simp only [finishEntry, bind_eq_ok, orRaise_eq_ok, require_eq_ok, pure_eq_ok] at h
  obtain ⟨final, -, digest, -, existing, hexisting, -, -, rfl⟩ := h
  have hkey : existing.key = operationId := (Dict.get?_eq_some.1 hexisting).2
  change (entries.get? existing.key).map _ = _
  rw [hkey, hexisting]
  rfl

/-! ## Calls -/

/-- A record is appended: it says what its entry says. -/
private theorem Knows.performs (h : Knows P s r) {handle : Handle}
    (hhandle : s.handle = some handle) (record : Written) (reply : Reply) :
    Knows P (perform s handle record reply).1
      (Function.update r record.entry.key (some record.entry.requestDigest.val)) := by
  obtain ⟨records, rfl, hstored⟩ := h
  rw [hhandle] at hstored
  exact ⟨records ++ [record], digests_concat record, hstored.append record⟩

/-- A process dies in an append. -/
private theorem Knows.crashes (h : Knows P s r) {handle : Handle}
    (hhandle : s.handle = some handle) (record : Written) (written : ℕ) :
    ∃ whole : Bool, (crash s handle record written).2 = .crashed whole ∧
      (crash s handle record written).1.handle = none ∧
      Knows P (crash s handle record written).1
        (if whole = true then
          Function.update r record.entry.key (some record.entry.requestDigest.val) else r) := by
  obtain ⟨records, rfl, hstored⟩ := h
  rw [hhandle] at hstored
  have hdies := hstored.dies record written
  refine ⟨_, rfl, rfl, _, ?_, hdies⟩
  rw [withRecord]
  by_cases hwhole : (appendPayload handle record).length ≤ written + 1
  · rw [if_pos hwhole, if_pos (decide_eq_true hwhole), digests_concat]
  · rw [if_neg hwhole, if_neg (by simpa using hwhole)]

section Begin

variable {operationId : OperationId} {kind : Kind} {requestDigest : Sha256} {now : Monotonic}

/-- A `begin` that is answered. -/
theorem Knows.begins (h : Knows P s r)
    (hexec : exec P s (.begin operationId.val kind.val requestDigest.val now) = .ok (s', reply)) :
    (reply = .accepted ∧ r operationId.val = none ∧ s'.handle.isSome = true ∧
      Knows P s' (Function.update r operationId.val (some requestDigest.val))) ∨
    (reply = .duplicate ∧ s' = s ∧ r operationId.val = some requestDigest.val) := by
  simp only [exec, bind_eq_ok, orRaise_eq_ok] at hexec
  obtain ⟨handle, hhandle, entry, hentry, hexec⟩ := hexec
  have hknown := beginEntry_known hentry
  have hremembers := h.remembers hhandle operationId.val
  cases entry with
  | some entry =>
      obtain ⟨hkey, hdigest, hnone⟩ := hknown
      rw [hnone] at hremembers
      have hperforms := h.performs hhandle ⟨entry, now⟩ .accepted
      rw [show Written.entry ⟨entry, now⟩ = entry from rfl, hkey, hdigest] at hperforms
      rw [pure_eq_ok] at hexec
      rw [hexec] at hperforms
      exact .inl ⟨(congrArg Prod.snd hexec).symm, hremembers.symm,
        (congrArg (fun result => result.1.handle.isSome) hexec).symm, hperforms⟩
  | none =>
      obtain ⟨rfl, rfl⟩ := Prod.mk.inj (pure_eq_ok.1 hexec)
      exact .inr ⟨rfl, rfl, hremembers.symm.trans hknown⟩

/-- A `begin` of a known operation under another digest. -/
theorem Knows.conflict (h : Knows P s r) (hhandle : s.handle.isSome = true) {digest : Text}
    (hknown : r operationId.val = some digest) (hne : digest ≠ requestDigest.val) :
    ∃ message, exec P s (.begin operationId.val kind.val requestDigest.val now) =
      .error (.conflict message) := by
  obtain ⟨handle, hsome⟩ := Option.isSome_iff_exists.1 hhandle
  have hremembers := h.remembers hsome operationId.val
  rw [hknown] at hremembers
  obtain ⟨existing, hexisting, rfl⟩ := Option.map_eq_some_iff.1 hremembers
  refine ⟨"operation identifier has a different request digest", ?_⟩
  have hdiffer : ¬existing.requestDigest = requestDigest := fun heq => hne (congrArg Subtype.val heq)
  simp only [exec, hsome, orRaise, ok_bind, beginEntry_checked, hexisting, require,
    if_neg hdiffer, error_bind]

/-- A process that dies in a `begin`. -/
theorem Knows.crashInBegin {written : ℕ} (h : Knows P s r)
    (hexec : exec P s (.crashInBegin operationId.val kind.val requestDigest.val now written) =
      .ok (s', reply)) :
    ∃ whole, reply = .crashed whole ∧ s'.handle = none ∧
      (whole = true → r operationId.val = none) ∧
      Knows P s' (if whole = true then
        Function.update r operationId.val (some requestDigest.val) else r) := by
  simp only [exec, bind_eq_ok, orRaise_eq_ok] at hexec
  obtain ⟨handle, hhandle, entry, hentry, hexec⟩ := hexec
  have hknown := beginEntry_known hentry
  have hremembers := h.remembers hhandle operationId.val
  cases entry with
  | some entry =>
      obtain ⟨hkey, hdigest, hnone⟩ := hknown
      rw [hnone] at hremembers
      obtain ⟨whole, hreply, hclosed, hknows⟩ := h.crashes hhandle ⟨entry, now⟩ written
      rw [pure_eq_ok] at hexec
      rw [hexec] at hreply hclosed hknows
      rw [show Written.entry ⟨entry, now⟩ = entry from rfl, hkey, hdigest] at hknows
      exact ⟨whole, hreply, hclosed, fun _ => hremembers.symm, hknows⟩
  | none =>
      obtain ⟨rfl, rfl⟩ := Prod.mk.inj (pure_eq_ok.1 hexec)
      exact ⟨false, rfl, rfl, fun hwhole => (by cases hwhole), h.dropped⟩

end Begin

section Finish

variable {operationId outcome resultDigest : Text} {now : Monotonic}

/-- The entry of a `finish` says nothing new about the digest. -/
private theorem Knows.finish_same (h : Knows P s r) {handle : Handle}
    (hhandle : s.handle = some handle) {entry : Entry}
    (hentry : finishEntry handle.entries operationId outcome resultDigest = .ok entry) :
    Function.update r entry.key (some entry.requestDigest.val) = r := by
  have hremembers := h.remembers hhandle entry.key
  rw [finishEntry_known hentry] at hremembers
  rw [hremembers, Function.update_eq_self]

theorem Knows.finishes (h : Knows P s r)
    (hexec : exec P s (.finish operationId outcome resultDigest now) = .ok (s', reply)) :
    s'.handle.isSome = true ∧ Knows P s' r := by
  simp only [exec, bind_eq_ok, orRaise_eq_ok, pure_eq_ok] at hexec
  obtain ⟨handle, hhandle, entry, hentry, hexec⟩ := hexec
  have hperforms := h.performs hhandle ⟨entry, now⟩ .finished
  rw [show Written.entry ⟨entry, now⟩ = entry from rfl, h.finish_same hhandle hentry, hexec]
    at hperforms
  exact ⟨(congrArg (fun result => result.1.handle.isSome) hexec).symm, hperforms⟩

theorem Knows.crashInFinish {written : ℕ} (h : Knows P s r)
    (hexec : exec P s (.crashInFinish operationId outcome resultDigest now written) =
      .ok (s', reply)) :
    s'.handle = none ∧ Knows P s' r := by
  simp only [exec, bind_eq_ok, orRaise_eq_ok, pure_eq_ok] at hexec
  obtain ⟨handle, hhandle, entry, hentry, hexec⟩ := hexec
  obtain ⟨whole, -, hclosed, hknows⟩ := h.crashes hhandle ⟨entry, now⟩ written
  rw [show Written.entry ⟨entry, now⟩ = entry from rfl, h.finish_same hhandle hentry, ite_self,
    hexec] at hknows
  rw [hexec] at hclosed
  exact ⟨hclosed, hknows⟩

end Finish

theorem Knows.opens {clock : ℕ → Monotonic} (h : Knows P s r)
    (hexec : exec P s (.open clock) = .ok (s', reply)) :
    s'.handle.isSome = true ∧ Knows P s' r := by
  simp only [exec, bind_eq_ok, require_eq_ok, pure_eq_ok, Prod.mk.injEq] at hexec
  obtain ⟨-, hclosed, ⟨disk, handle⟩, hopen, rfl, -⟩ := hexec
  obtain ⟨records, rfl, hstored⟩ := h
  rw [Option.isNone_iff_eq_none.1 hclosed] at hstored
  obtain ⟨records', hfollows, hsame⟩ := hstored.opened hopen
  exact ⟨rfl, records', hsame, hfollows⟩

theorem Knows.diesOpening (h : Knows P s r) (hclosed : s.handle = none) (clock : ℕ → Monotonic)
    (death : OpenDeath) : Knows P ⟨diesOpening P s.disk clock death, none⟩ r := by
  obtain ⟨records, rfl, hstored⟩ := h
  rw [hclosed] at hstored
  obtain ⟨records', hsurvives, hsame⟩ := hstored.diesOpening clock death
  exact ⟨records', hsame, hsurvives⟩

end Cortex.OperationLedger
