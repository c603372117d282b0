import Cortex.OperationLedger.Disk
import Cortex.OperationLedger.Register

/-!
# Durability

The ledger on its disk simulates the register of operations: whatever is called
and wherever the process dies once in an append, the disk holds records that say
what the register says, and an open ledger says the same (`simulation`).  The
guarantees for callers are then the laws of the register.
-/

namespace Cortex.OperationLedger

open Control (Text)
open Transaction

variable {P : Platform}

/-- What a call did to the operations; a call that died did it if its record is whole. -/
def effect : Call × Reply → Effect
  | (.open _, .opened) => .settled
  | (.begin operationId _ requestDigest _, .accepted) => .begun operationId requestDigest
  | (.crashInBegin operationId _ requestDigest _ _, .crashed true) =>
      .begun operationId requestDigest
  | (.finish operationId outcome resultDigest _, .finished) =>
      .finished operationId outcome resultDigest
  | (.crashInFinish operationId outcome resultDigest _ _, .crashed true) =>
      .finished operationId outcome resultDigest
  | _ => .nothing

/-- The records say what the register says. -/
def Says (records : List Written) (r : Register) : Prop :=
  ∀ operationId, status (entriesOf records) operationId = r operationId

/-- The ledger simulates the register.  Before the first crash the disk is the records and
nothing else. -/
def Refines (P : Platform) (events : List (Call × Reply)) (s : System) (r : Register) : Prop :=
  ∃ records, Says records r ∧
    (crashes events = 0 → s.disk = ⟨encodeAll records, none⟩ ∧
      ∀ handle, s.handle = some handle → handle.needsNewline = false) ∧
    match s.handle with
    | some handle => Opened P s.disk handle records
    | none => Left P s.disk records

/-! ## Entries and the register -/

private theorem status_eq {entries : Entries} {operationId : Text} :
    status entries operationId =
      ((entries.get? operationId).map Entry.status).getD .unknown := by
  unfold status
  cases entries.get? operationId <;> rfl

private theorem Entry.status_settled (entry : Entry) : entry.settled.status = entry.status.settled := by
  unfold settled OperationStatus.settled
  by_cases h : entry.phase = .inProgress
  · have hresult : entry.resultDigest = none := by
      rw [← Option.not_isSome_iff_eq_none, entry.result_iff, h]
      rintro (h | h) <;> contradiction
    have hstate : entry.status.state = some .inProgress := congrArg some h
    rw [if_pos h, if_pos hstate]
    simp [Entry.status, Entry.uncertain, hresult]
  · have hstate : entry.status.state ≠ some .inProgress := fun hs => h (Option.some.inj hs)
    rw [if_neg h, if_neg hstate]

private theorem Says.concat {records : List Written} {r : Register} (h : Says records r)
    (record : Written) :
    Says (records ++ [record]) (Function.update r record.entry.key record.entry.status) := by
  intro operationId
  rw [entriesOf_append_singleton, status_eq, Dict.get?_set]
  by_cases heq : operationId = record.entry.key
  · rw [if_pos heq, heq, Function.update_self]
    rfl
  · rw [if_neg heq, Function.update_of_ne heq, ← status_eq, h operationId]

theorem Says.settled {records records' : List Written} {r : Register} (h : Says records r)
    (hget : ∀ operationId, (entriesOf records').get? operationId =
      ((entriesOf records).get? operationId).map Entry.settled) :
    Says records' (r.apply .settled) := by
  intro operationId
  have hr : (r.apply .settled) operationId = (r operationId).settled := rfl
  rw [hr, ← h operationId, status_eq, status_eq, hget]
  cases (entriesOf records).get? operationId with
  | none => rfl
  | some entry => exact entry.status_settled

/-- The entry, once appended, has the effect. -/
def Realises (entry : Entry) (r : Register) (effect : Effect) : Prop :=
  r.Allows effect ∧ r.apply effect = Function.update r entry.key entry.status

private theorem validateIdentity_eq_ok {operationId kind requestDigest : Text}
    {identity : OperationId × Kind × Sha256}
    (h : validateIdentity operationId kind requestDigest = .ok identity) :
    identity.1.val = operationId ∧ identity.2.1.val = kind ∧
      identity.2.2.val = requestDigest := by
  simp only [validateIdentity, bind_eq_ok, orRaise_eq_ok, checked_eq_some, pure_eq_ok] at h
  obtain ⟨_, rfl, _, rfl, _, rfl, rfl⟩ := h
  exact ⟨rfl, rfl, rfl⟩

private theorem beginEntry_realises {entries : Entries} {operationId kind requestDigest : Text}
    {entry : Entry} {r : Register} (hr : ∀ operationId, status entries operationId = r operationId)
    (h : beginEntry entries operationId kind requestDigest = .ok (some entry)) :
    Realises entry r (.begun operationId requestDigest) := by
  simp only [beginEntry, bind_eq_ok] at h
  obtain ⟨⟨id, kind', digest⟩, hidentity, h⟩ := h
  obtain ⟨rfl, rfl, rfl⟩ := validateIdentity_eq_ok hidentity
  cases hget : entries.get? id.val with
  | some existing =>
      simp only [hget, bind_eq_ok, pure_eq_ok, reduceCtorEq, and_false, exists_false] at h
  | none =>
      simp only [hget, pure_eq_ok, Option.some.injEq] at h
      subst h
      refine ⟨?_, rfl⟩
      rw [Register.Allows, ← hr, status_eq, hget]
      rfl

private theorem finishEntry_realises {entries : Entries} {operationId outcome resultDigest : Text}
    {entry : Entry} {r : Register} (hr : ∀ operationId, status entries operationId = r operationId)
    (h : finishEntry entries operationId outcome resultDigest = .ok entry) :
    Realises entry r (.finished operationId outcome resultDigest) := by
  simp only [finishEntry, bind_eq_ok, orRaise_eq_ok, checked_eq_some, require_eq_ok,
    pure_eq_ok] at h
  obtain ⟨final, hfinal, digest, rfl, existing, hexisting, _, hopen, rfl⟩ := h
  have hkey : existing.key = operationId := (Dict.get?_eq_some.1 hexisting).2
  have hbefore : r operationId = existing.status := by
    rw [← hr, status_eq, hexisting]
    rfl
  refine ⟨⟨?_, by simp [hfinal]⟩, ?_⟩
  · rw [hbefore]
    simpa [Entry.status] using hopen
  · rw [Register.apply, hbefore, hfinal, ← hkey]
    rfl

/-! ## Steps -/

section Steps

variable {events : List (Call × Reply)} {s s' : System} {r : Register} {call : Call}
  {reply : Reply} {handle : Handle}

private theorem crashes_cons_of_not {call : Call} (h : call.isCrash = false) (reply : Reply)
    (events : List (Call × Reply)) : crashes ((call, reply) :: events) = crashes events := by
  rw [crashes, List.countP_cons, if_neg (by simp [h])]
  rfl

private theorem crashes_cons_of_crash {call : Call} (h : call.isCrash = true) (reply : Reply)
    (events : List (Call × Reply)) : crashes ((call, reply) :: events) = crashes events + 1 := by
  rw [crashes, List.countP_cons, if_pos h]
  rfl

theorem Refines.agrees (h : Refines P events s r) (hhandle : s.handle = some handle)
    (operationId : Text) : status handle.entries operationId = r operationId := by
  obtain ⟨records, hsays, -, hstored⟩ := h
  simp only [hhandle] at hstored
  rw [hstored.2]
  exact hsays operationId

/-- A disk that ends with a newline and has no sidecar is its records. -/
private theorem Holds.eq_terminated {disk : Disk} {records : List Written}
    (h : Holds P disk records false) (hsidecar : disk.sidecar = none) :
    disk = ⟨encodeAll records, none⟩ := by
  cases h with
  | terminated => rfl
  | quarantined => contradiction

private theorem recordUncertain_frame (disk : Disk) (handle : Handle) (clock : ℕ → Monotonic)
    (entries : List Entry) :
    (recordUncertain disk handle clock entries).1.sidecar = disk.sidecar ∧
      (handle.needsNewline = false →
        (recordUncertain disk handle clock entries).2.needsNewline = false) := by
  induction entries generalizing disk handle clock with
  | nil => exact ⟨rfl, id⟩
  | cons entry entries ih =>
      unfold recordUncertain
      split
      · obtain ⟨hsidecar, hneeds⟩ := ih (append disk handle ⟨entry.uncertain, clock 0⟩).1
          (append disk handle ⟨entry.uncertain, clock 0⟩).2 fun n => clock (n + 1)
        exact ⟨hsidecar, fun _ => hneeds rfl⟩
      · exact ih disk handle clock

theorem Refines.opens (h : Refines P events s r) (hhandle : s.handle = none)
    (clock : ℕ → Monotonic) :
    ∃ s', exec P s (.open clock) = .ok (s', .opened) ∧
      Refines P ((.open clock, .opened) :: events) s' (r.apply .settled) := by
  obtain ⟨records, hsays, hclean, hleft⟩ := h
  simp only [hhandle] at hleft
  obtain ⟨disk', handle', records', hopen, hopened, hget⟩ : ∃ disk' handle' records',
      openLedger P s.disk clock = .ok (disk', handle') ∧ Opened P disk' handle' records' ∧
      ∀ operationId, handle'.entries.get? operationId =
        ((entriesOf records).get? operationId).map Entry.settled := by
    rcases hleft with ⟨needsNewline, hholds⟩ | htorn
    · exact hholds.opened clock
    · exact htorn.opened clock
  refine ⟨⟨disk', some handle'⟩, ?_, records', hsays.settled ?_, ?_, hopened⟩
  · simp [exec, hhandle, hopen, require, bind, Except.bind, pure, Except.pure]
  · intro operationId
    rw [← hopened.2]
    exact hget operationId
  · intro hcrashes
    rw [crashes_cons_of_not rfl] at hcrashes
    obtain ⟨hdisk, -⟩ := hclean hcrashes
    have hload : loadQuarantine P none = .ok none := rfl
    have hdata : replayData P (encodeAll records) none = .ok (encodeAll records) := rfl
    rw [hdisk, openLedger_replayed hload hdata (replay_encodeAll records) rfl clock,
      Except.ok.injEq] at hopen
    obtain ⟨hsidecar, hneeds⟩ := recordUncertain_frame ⟨encodeAll records, none⟩
      { entries := entriesOf records, quarantined := false, needsNewline := false } clock
      (entriesOf records).values
    have hneeds' : handle'.needsNewline = false := by
      rw [← hneeds rfl]
      exact (congrArg (fun p => p.2.needsNewline) hopen).symm
    have hsidecar' : disk'.sidecar = none :=
      (congrArg (fun p => p.1.sidecar) hopen).symm.trans hsidecar
    refine ⟨Holds.eq_terminated (P := P) ?_ hsidecar', ?_⟩
    · rw [← hneeds']
      exact hopened.1
    · rintro _ ⟨⟩
      exact hneeds'

private theorem Refines.performs (h : Refines P events s r) (hhandle : s.handle = some handle)
    {entry : Entry} {effect : Effect} (hrealises : Realises entry r effect) (now : Monotonic)
    (hcall : call.isCrash = false) :
    Refines P ((call, reply) :: events) (perform s handle ⟨entry, now⟩ reply).1
      (r.apply effect) := by
  obtain ⟨records, hsays, hclean, hopened⟩ := h
  simp only [hhandle] at hopened
  refine ⟨records ++ [Written.mk entry now], ?_, ?_, hopened.append ⟨entry, now⟩⟩
  · rw [hrealises.2]
    exact hsays.concat ⟨entry, now⟩
  · intro hcrashes
    rw [crashes_cons_of_not hcall] at hcrashes
    obtain ⟨hdisk, hneeds⟩ := hclean hcrashes
    refine ⟨?_, ?_⟩
    · have hpayload : appendPayload handle ⟨entry, now⟩ = Written.line ⟨entry, now⟩ := by
        simp [appendPayload, hneeds handle hhandle]
      simp only [perform, append, hdisk, hpayload, encodeAll_concat]
    · rintro _ ⟨⟩
      rfl

variable (call reply) in
/-- A crash before which there was none: the effect took place, or nothing did. -/
private theorem Refines.crashes_in (h : Refines P events s r) (hhandle : s.handle = some handle)
    {entry : Entry} {effect : Effect} (hrealises : Realises entry r effect) (now : Monotonic)
    (written : ℕ) (hcall : call.isCrash = true) (hcrashes : crashes events = 0) :
    (crash s handle ⟨entry, now⟩ written).2 = .crashed true ∧
        Refines P ((call, reply) :: events) (crash s handle ⟨entry, now⟩ written).1
          (r.apply effect) ∨
      (crash s handle ⟨entry, now⟩ written).2 = .crashed false ∧
        Refines P ((call, reply) :: events) (crash s handle ⟨entry, now⟩ written).1 r := by
  obtain ⟨records, hsays, hclean, -⟩ := h
  obtain ⟨hdisk, hneeds⟩ := hclean hcrashes
  have hlater : crashes ((call, reply) :: events) = 0 → False := by
    rw [crashes_cons_of_crash hcall]
    exact Nat.succ_ne_zero _
  obtain ⟨hclosed, hleft⟩ :=
    crash_left (P := P) hdisk (hneeds handle hhandle) ⟨entry, now⟩ written
  rcases hleft with ⟨hreply, hleft⟩ | ⟨hreply, hleft⟩
  · refine .inl ⟨hreply, records ++ [Written.mk entry now], ?_, fun hzero => (hlater hzero).elim, hleft⟩
    rw [hrealises.2]
    exact hsays.concat ⟨entry, now⟩
  · exact .inr ⟨hreply, records, hsays, fun hzero => (hlater hzero).elim, hleft⟩

/-- Nothing but the handle is lost, and no disk changes. -/
theorem Refines.dropped (h : Refines P events s r)
    (hcrashes : crashes ((call, reply) :: events) = 0 → crashes events = 0) :
    Refines P ((call, reply) :: events) { s with handle := none } r := by
  obtain ⟨records, hsays, hclean, hstored⟩ := h
  refine ⟨records, hsays, fun hzero => ⟨(hclean (hcrashes hzero)).1, fun _ h => absurd h (by simp)⟩, ?_⟩
  cases hhandle : s.handle with
  | some handle =>
      simp only [hhandle] at hstored
      exact .inl ⟨_, hstored.1⟩
  | none =>
      simp only [hhandle] at hstored
      exact hstored

theorem Refines.unchanged (h : Refines P events s r) (hcall : call.isCrash = false) :
    Refines P ((call, reply) :: events) s r := by
  obtain ⟨records, hsays, hclean, hstored⟩ := h
  refine ⟨records, hsays, fun hzero => hclean ?_, hstored⟩
  rwa [crashes_cons_of_not hcall] at hzero

private theorem crashes_cons_le (event : Call × Reply) (events : List (Call × Reply)) :
    crashes events ≤ crashes (event :: events) :=
  (List.sublist_cons_self event events).countP_le

/-- One call, with at most one crash so far. -/
theorem Refines.step (h : Refines P events s r) (hexec : exec P s call = .ok (s', reply))
    (hcrashes : crashes ((call, reply) :: events) ≤ 1) :
    r.Allows (effect (call, reply)) ∧
      Refines P ((call, reply) :: events) s' (r.apply (effect (call, reply))) := by
  have hbefore := (crashes_cons_le (call, reply) events).trans hcrashes
  cases call with
  | «open» clock =>
      have hhandle : s.handle = none := by
        simp only [exec, bind_eq_ok, require_eq_ok, Option.isNone_iff_eq_none] at hexec
        obtain ⟨-, h, -⟩ := hexec
        exact h
      obtain ⟨s₁, hopens, hrefines⟩ := h.opens hhandle clock
      rw [hopens, Except.ok.injEq, Prod.mk.injEq] at hexec
      obtain ⟨rfl, rfl⟩ := hexec
      exact ⟨trivial, hrefines⟩
  | begin operationId kind requestDigest now =>
      simp only [exec, bind_eq_ok, orRaise_eq_ok] at hexec
      obtain ⟨handle, hhandle, entry, hentry, hexec⟩ := hexec
      cases entry with
      | some entry =>
          simp only [pure_eq_ok] at hexec
          have hrealises := beginEntry_realises (h.agrees hhandle) hentry
          obtain ⟨rfl, rfl⟩ : (perform s handle ⟨entry, now⟩ .accepted).1 = s' ∧
              Reply.accepted = reply := by rw [hexec]; exact ⟨rfl, congrArg Prod.snd hexec⟩
          exact ⟨hrealises.1, h.performs hhandle hrealises now rfl⟩
      | none =>
          simp only [pure_eq_ok, Prod.mk.injEq] at hexec
          obtain ⟨rfl, rfl⟩ := hexec
          exact ⟨trivial, h.unchanged rfl⟩
  | finish operationId outcome resultDigest now =>
      simp only [exec, bind_eq_ok, orRaise_eq_ok, pure_eq_ok] at hexec
      obtain ⟨handle, hhandle, entry, hentry, hexec⟩ := hexec
      have hrealises := finishEntry_realises (h.agrees hhandle) hentry
      obtain ⟨rfl, rfl⟩ : (perform s handle ⟨entry, now⟩ .finished).1 = s' ∧
          Reply.finished = reply := by rw [hexec]; exact ⟨rfl, congrArg Prod.snd hexec⟩
      exact ⟨hrealises.1, h.performs hhandle hrealises now rfl⟩
  | status operationId =>
      simp only [exec, bind_eq_ok, orRaise_eq_ok, pure_eq_ok, Prod.mk.injEq] at hexec
      obtain ⟨handle, hhandle, rfl, rfl⟩ := hexec
      exact ⟨trivial, h.unchanged rfl⟩
  | close =>
      simp only [exec, pure_eq_ok, Prod.mk.injEq] at hexec
      obtain ⟨rfl, rfl⟩ := hexec
      exact ⟨trivial, h.dropped fun hzero => by rwa [crashes_cons_of_not rfl] at hzero⟩
  | crashInBegin operationId kind requestDigest now written =>
      rw [crashes_cons_of_crash rfl] at hcrashes
      simp only [exec, bind_eq_ok, orRaise_eq_ok] at hexec
      obtain ⟨handle, hhandle, entry, hentry, hexec⟩ := hexec
      cases entry with
      | some entry =>
          simp only [pure_eq_ok] at hexec
          have hrealises := beginEntry_realises (h.agrees hhandle) hentry
          rcases h.crashes_in (.crashInBegin operationId kind requestDigest now written) reply hhandle hrealises now written rfl (by omega) with
            ⟨hreply, hrefines⟩ | ⟨hreply, hrefines⟩
          all_goals
            rw [hexec] at hreply hrefines
            subst hreply
          · exact ⟨hrealises.1, hrefines⟩
          · exact ⟨trivial, hrefines⟩
      | none =>
          simp only [pure_eq_ok, Prod.mk.injEq] at hexec
          obtain ⟨rfl, rfl⟩ := hexec
          exact ⟨trivial, h.dropped fun hzero => by omega⟩
  | crashInFinish operationId outcome resultDigest now written =>
      rw [crashes_cons_of_crash rfl] at hcrashes
      simp only [exec, bind_eq_ok, orRaise_eq_ok, pure_eq_ok] at hexec
      obtain ⟨handle, hhandle, entry, hentry, hexec⟩ := hexec
      have hrealises := finishEntry_realises (h.agrees hhandle) hentry
      rcases h.crashes_in (.crashInFinish operationId outcome resultDigest now written) reply hhandle hrealises now written rfl (by omega) with
        ⟨hreply, hrefines⟩ | ⟨hreply, hrefines⟩
      all_goals
        rw [hexec] at hreply hrefines
        subst hreply
      · exact ⟨hrealises.1, hrefines⟩
      · exact ⟨trivial, hrefines⟩

end Steps

/-! ## Runs -/

section Runs

variable {events later earlier : List (Call × Reply)} {s m : System} {r : Register}

/-- From a state that simulates the register, every run with at most one crash does. -/
private theorem simulation_from (hm : Refines P earlier m r)
    (h : History (Commits (exec P)) m later s) (hcrashes : crashes (later ++ earlier) ≤ 1) :
    ∃ r', History Register.Step r (later.map effect) r' ∧ Refines P (later ++ earlier) s r' := by
  induction h with
  | nil => exact ⟨r, .nil, hm⟩
  | @cons later s s' event _ hexec ih =>
      obtain ⟨r₁, hrun, hrefines⟩ := ih ((crashes_cons_le event _).trans hcrashes)
      obtain ⟨hallows, hrefines'⟩ := hrefines.step hexec hcrashes
      exact ⟨_, hrun.cons ⟨hallows, rfl⟩, hrefines'⟩

private theorem refines_initial : Refines P [] System.initial Register.initial :=
  ⟨[], fun _ => rfl, fun _ => ⟨rfl, fun _ h => absurd h (Option.some_ne_none _).symm⟩, .inl ⟨false, .terminated []⟩⟩

/-- The ledger simulates the register. -/
private theorem simulation (h : History (Commits (exec P)) System.initial events s)
    (hcrashes : crashes events ≤ 1) :
    ∃ r, History Register.Step Register.initial (events.map effect) r ∧ Refines P events s r := by
  have hinitial : Refines P [] System.initial Register.initial := refines_initial
  have hsimulation := simulation_from hinitial h (by rwa [List.append_nil])
  rwa [List.append_nil] at hsimulation

/-- What `status` answers. -/
def Reads (P : Platform) (s : System) (operationId : Text) (status : OperationStatus) : Prop :=
  exec P s (.status operationId) = .ok (s, .status status)

theorem Refines.reads (h : Refines P events s r) {handle : Handle}
    (hhandle : s.handle = some handle) {operationId : Text} {status : OperationStatus} :
    Reads P s operationId status ↔ status = r operationId := by
  simp only [Reads, exec, bind_eq_ok, orRaise_eq_ok, pure_eq_ok, Prod.mk.injEq, hhandle,
    Option.some.injEq, exists_eq_left', Reply.status.injEq, true_and, h.agrees hhandle]
  exact eq_comm

/-- The operation began: its `begin` was accepted, or died when its record was whole. -/
def Begun (events : List (Call × Reply)) (operationId requestDigest : Text) : Prop :=
  Effect.begun operationId requestDigest ∈ events.map effect

/-- The operation has an outcome: its `finish` returned, or died when its record was whole. -/
def Finished (events : List (Call × Reply)) (operationId outcome resultDigest : Text) : Prop :=
  Effect.finished operationId outcome resultDigest ∈ events.map effect

/-- Whether a call was a `begin` of the operation that answered `"accepted"`. -/
def accepts (operationId : Text) : Call × Reply → Bool
  | (.begin operationId' _ _ _, .accepted) => operationId' = operationId
  | _ => false

private theorem countP_accepts_le (events : List (Call × Reply)) (operationId : Text) :
    events.countP (accepts operationId) ≤
      (events.map effect).countP (Effect.begins operationId) := by
  rw [List.countP_map]
  refine List.countP_mono_left fun event _ haccepts => ?_
  unfold accepts at haccepts
  split at haccepts
  · exact haccepts
  · contradiction

/-- A later `begin` of an operation that began is a duplicate, or a conflict. -/
private theorem Refines.begin_again (h : Refines P events s r) {handle : Handle}
    (hhandle : s.handle = some handle) {operationId requestDigest : Text}
    (hbegun : (r operationId).state ≠ none ∧ (r operationId).requestDigest = some requestDigest)
    (kind requestDigest' : Text) (now : Monotonic) :
    (isKind kind = true →
      exec P s (.begin operationId kind requestDigest now) = .ok (s, .duplicate)) ∧
    (requestDigest' ≠ requestDigest → ∃ message,
      exec P s (.begin operationId kind requestDigest' now) = .error (.conflict message)) := by
  have hstatus := h.agrees hhandle operationId
  rw [status_eq] at hstatus
  cases hget : handle.entries.get? operationId with
  | none =>
      rw [hget] at hstatus
      exact absurd (congrArg OperationStatus.state hstatus).symm hbegun.1
  | some existing =>
      have hdigest : existing.requestDigest.val = requestDigest := by
        have := congrArg OperationStatus.requestDigest hstatus
        rw [hget, hbegun.2] at this
        exact Option.some.inj this
      have hkey : existing.operationId.val = operationId := (Dict.get?_eq_some.1 hget).2
      subst hkey hdigest
      constructor
      · intro hkind
        have hchecked : checked isKind kind = some ⟨kind, hkind⟩ := dif_pos hkind
        simp [exec, hhandle, beginEntry, validateIdentity, hchecked, hget, bind, Except.bind,
          orRaise, require, pure, Except.pure]
      · intro hne
        simp only [exec, hhandle, beginEntry, validateIdentity, checked_val, orRaise, bind,
          Except.bind]
        cases checked isKind kind with
        | none => exact ⟨_, rfl⟩
        | some kind =>
            cases hchecked : checked isSha256 requestDigest' with
            | none => exact ⟨_, rfl⟩
            | some digest =>
                have hdiffer : existing.requestDigest ≠ digest := by
                  rintro rfl
                  exact hne (checked_eq_some.1 hchecked)
                simp only [hget, require, if_neg hdiffer, pure, Except.pure]
                exact ⟨_, rfl⟩

/-- With at most one death in an append, the ledger can be opened again, and reads what
happened. -/
theorem durable (h : History (Commits (exec P)) System.initial events s)
    (hcrashes : crashes events ≤ 1) :
    (s.handle = none → ∀ clock, ∃ s', exec P s (.open clock) = .ok (s', .opened)) ∧
    (∀ operationId, events.countP (accepts operationId) ≤ 1) ∧
    (s.handle ≠ none →
      (∀ operationId requestDigest, Begun events operationId requestDigest →
        (∃ status, Reads P s operationId status ∧ status.state ≠ none ∧
          status.requestDigest = some requestDigest) ∧
        ∀ kind requestDigest' now,
          (isKind kind = true →
            exec P s (.begin operationId kind requestDigest now) = .ok (s, .duplicate)) ∧
          (requestDigest' ≠ requestDigest → ∃ message,
            exec P s (.begin operationId kind requestDigest' now) =
              .error (.conflict message))) ∧
      (∀ operationId outcome resultDigest, Finished events operationId outcome resultDigest →
        ∃ status, Reads P s operationId status ∧ status.Final ∧
          status.state = (outcomeOf outcome).map Subtype.val ∧
          status.resultDigest = some resultDigest) ∧
      (∀ later clock earlier operationId requestDigest,
        events = later ++ (.open clock, .opened) :: earlier →
        Begun earlier operationId requestDigest →
        (∀ outcome resultDigest, ¬Finished events operationId outcome resultDigest) →
        Reads P s operationId ⟨some .uncertain, some requestDigest, none⟩) ∧
      (∀ later earlier m operationId status, events = later ++ earlier →
        History (Commits (exec P)) System.initial earlier m →
        History (Commits (exec P)) m later s →
        Reads P m operationId status → status.Final → Reads P s operationId status)) := by
  obtain ⟨r, hrun, hrefines⟩ := simulation h hcrashes
  refine ⟨fun hhandle clock => ?_, fun operationId => ?_, fun hopen => ?_⟩
  · obtain ⟨s', hopens, -⟩ := hrefines.opens hhandle clock
    exact ⟨s', hopens⟩
  · exact (countP_accepts_le events operationId).trans (Register.begins_le_one hrun operationId).1
  obtain ⟨handle, hhandle⟩ := Option.ne_none_iff_exists'.1 hopen
  refine ⟨?_, ?_, ?_, ?_⟩
  · intro operationId requestDigest hbegun
    have hknown := Register.begun_known hrun hbegun
    exact ⟨⟨r operationId, (hrefines.reads hhandle).2 rfl, hknown⟩,
      hrefines.begin_again hhandle hknown⟩
  · intro operationId outcome resultDigest hfinished
    exact ⟨r operationId, (hrefines.reads hhandle).2 rfl, Register.finished_final hrun hfinished⟩
  · intro later clock earlier operationId requestDigest heq hbegun hunfinished
    rw [hrefines.reads hhandle]
    have heffects : events.map effect = later.map effect ++ .settled :: earlier.map effect := by
      rw [heq, List.map_append]
      rfl
    rw [heffects] at hrun
    refine (Register.unfinished_uncertain hrun hbegun fun effect' heffect => ?_).symm
    cases effect' with
    | finished operationId' outcome resultDigest =>
        refine decide_eq_false ?_
        rintro rfl
        refine hunfinished outcome resultDigest ?_
        rw [Finished, heffects]
        exact heffect
    | _ => rfl
  · intro later earlier m operationId status heq hearlier hlater hreads hfinal
    subst heq
    have hle : crashes earlier ≤ crashes (later ++ earlier) :=
      (List.sublist_append_right later earlier).countP_le
    obtain ⟨r₁, -, hrefines₁⟩ := simulation hearlier (hle.trans hcrashes)
    obtain ⟨r₂, hrun₂, hrefines₂⟩ := simulation_from hrefines₁ hlater hcrashes
    have hmhandle : m.handle ≠ none := by
      intro hnone
      simp [Reads, exec, hnone, orRaise, bind, Except.bind] at hreads
    obtain ⟨mhandle, hmhandle⟩ := Option.ne_none_iff_exists'.1 hmhandle
    rw [hrefines₁.reads hmhandle] at hreads
    rw [hrefines₂.reads hhandle, hreads]
    rw [hreads] at hfinal
    exact (Register.final_stays hrun₂ hfinal).symm

/-- A process that dies one byte into the record of an outcome. -/
theorem durable_tornFinish :
    ∃ s', exec asciiPlatform
      (runCalls (exec asciiPlatform) System.initial
        [.crashInFinish "op-1".toList "committed".toList (List.replicate 64 'b') default 1,
          .begin "op-1".toList "install".toList (List.replicate 64 'a') default,
          .open fun _ => default]).2
      (.open fun _ => default) = .ok (s', .opened) :=
  (durable (history_runCalls (exec asciiPlatform) System.initial _) (by decide +kernel)).1 rfl _

end Runs

end Cortex.OperationLedger
