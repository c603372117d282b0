import Cortex.Runs.Store
import Cortex.Library.Growth

/-!
# What the parts of a command leave alone

Every command is about one run, its subject.  The relations here say what may
happen to a row while the command runs: a pending row is settled and never the
other way round, an attempt keeps its identity, its binding and its checkpoint,
and rows of other runs stay as they are.  Each part of a command respects them,
and so does, by transitivity, the command.
-/

namespace Cortex.Runs

open Control Time Transaction

/-! ## Work that waits for somebody -/

/-- Rows that are pending until somebody settles them, for an attempt of a run.  What a row asks
for is its `content`. -/
class WorkRow (ρ : Type) where
  runId : ρ → ℕ
  attemptId : ρ → ℕ
  isPending : ρ → Prop
  Content : Type
  content : ρ → Content

instance : WorkRow Decision :=
  ⟨Decision.runId, Decision.attemptId, fun d => d.state = .pending, Text × List DecisionOption,
    fun d => (d.prompt, d.options)⟩
instance : WorkRow SourceIntent :=
  ⟨SourceIntent.runId, SourceIntent.attemptId, fun i => i.state = .pending, Unit, fun _ => ()⟩
instance : WorkRow RuntimeAction :=
  ⟨RuntimeAction.runId, RuntimeAction.attemptId, fun a => a.state = .pending, Unit, fun _ => ()⟩

section Work

variable {ρ : Type} [WorkRow ρ]

/-- The row stays with its attempt, and what was settled is not pending again. -/
structure WorkKept (r r' : ρ) : Prop where
  runId : WorkRow.runId r' = WorkRow.runId r
  attemptId : WorkRow.attemptId r' = WorkRow.attemptId r
  pending : WorkRow.isPending r' → WorkRow.isPending r
  content : WorkRow.content r' = WorkRow.content r

/-- A new row is for an attempt of the subject, where the command may add one. -/
structure WorkAdded (subject : ℕ) (own : ℕ → Prop) (adds : Prop) (r : ρ) : Prop where
  adds : adds
  runId : WorkRow.runId r = subject
  attemptId : own (WorkRow.attemptId r)

theorem WorkKept.refl (r : ρ) : WorkKept r r := ⟨rfl, rfl, id, rfl⟩

theorem WorkKept.trans {r m r' : ρ} (h : WorkKept r m) (h' : WorkKept m r') : WorkKept r r' :=
  ⟨h'.runId.trans h.runId, h'.attemptId.trans h.attemptId, fun hp => h.pending (h'.pending hp),
    h'.content.trans h.content⟩

theorem WorkAdded.kept {subject : ℕ} {own : ℕ → Prop} {adds : Prop} {r r' : ρ}
    (h : WorkAdded subject own adds r) (hk : WorkKept r r') : WorkAdded subject own adds r' :=
  ⟨h.adds, hk.runId.trans h.runId, hk.attemptId ▸ h.attemptId⟩

end Work

/-- A release that was settled had been claimed. -/
def PinRelease.WasClaimed (r : PinRelease) : Prop := r.state = .pending ∨ 1 ≤ r.claim.epoch

/-- A release stays with its attempt and its pin, and is not claimed again. -/
structure ReleaseKept (r r' : PinRelease) : Prop where
  runId : r'.runId = r.runId
  attemptId : r'.attemptId = r.attemptId
  identity : r'.identity = r.identity
  epoch : r'.claim.epoch = r.claim.epoch
  claimed : r.WasClaimed → r'.WasClaimed

/-- A new release is for an attempt of the subject, and nobody has claimed it. -/
structure ReleaseAdded (subject : ℕ) (own : ℕ → Prop) (r : PinRelease) : Prop where
  runId : r.runId = subject
  attemptId : own r.attemptId
  epoch : r.claim.epoch = 0
  claimed : r.WasClaimed

theorem ReleaseKept.refl (r : PinRelease) : ReleaseKept r r := ⟨rfl, rfl, rfl, rfl, id⟩

theorem ReleaseKept.trans {r m r' : PinRelease} (h : ReleaseKept r m) (h' : ReleaseKept m r') :
    ReleaseKept r r' :=
  ⟨h'.runId.trans h.runId, h'.attemptId.trans h.attemptId, h'.identity.trans h.identity,
    h'.epoch.trans h.epoch, fun hc => h'.claimed (h.claimed hc)⟩

theorem ReleaseAdded.kept {subject : ℕ} {own : ℕ → Prop} {r r' : PinRelease}
    (h : ReleaseAdded subject own r) (hk : ReleaseKept r r') : ReleaseAdded subject own r' :=
  ⟨hk.runId.trans h.runId, hk.attemptId ▸ h.attemptId, hk.epoch.trans h.epoch,
    hk.claimed h.claimed⟩

/-! ## Attempts -/

/-- An attempt with a checkpoint is bound to a runtime of complete identity. -/
def Attempt.CheckpointIsBound (a : Attempt) : Prop :=
  isSet a.checkpointUri → a.runtimeBindingId.isSome ∧ ∃ i ∈ a.identity, i.isComplete

/-- What an attempt keeps: its lineage, its runtime identity, its binding and its checkpoint. -/
structure AttemptKept (subject : ℕ) (a a' : Attempt) : Prop where
  runId : a'.runId = a.runId
  number : a'.number = a.number
  sourceAttemptId : a'.sourceAttemptId = a.sourceAttemptId
  sourceCheckpointUri : a'.sourceCheckpointUri = a.sourceCheckpointUri
  identity : ∀ i, a.identity = some i → a'.identity = some i
  binding : ∀ b, a.runtimeBindingId = some b → a'.runtimeBindingId = some b
  checkpoint : isSet a.checkpointUri → isSet a'.checkpointUri
  bound : a.CheckpointIsBound → a'.CheckpointIsBound
  others : a.runId = subject ∨ a' = a

theorem AttemptKept.refl {subject : ℕ} (a : Attempt) : AttemptKept subject a a :=
  ⟨rfl, rfl, rfl, rfl, fun _ h => h, fun _ h => h, id, id, .inr rfl⟩

theorem AttemptKept.trans {subject : ℕ} {a m a' : Attempt} (h : AttemptKept subject a m)
    (h' : AttemptKept subject m a') : AttemptKept subject a a' where
  runId := h'.runId.trans h.runId
  number := h'.number.trans h.number
  sourceAttemptId := h'.sourceAttemptId.trans h.sourceAttemptId
  sourceCheckpointUri := h'.sourceCheckpointUri.trans h.sourceCheckpointUri
  identity i hi := h'.identity i (h.identity i hi)
  binding b hb := h'.binding b (h.binding b hb)
  checkpoint hc := h'.checkpoint (h.checkpoint hc)
  bound hb := h'.bound (h.bound hb)
  others := by
    rcases h.others with hrun | rfl
    · exact .inl hrun
    · exact h'.others

/-- A change of an attempt that only moves its state, its dispatch lease and its dates. -/
def MovesAttempt (f : Attempt → Attempt) : Prop :=
  ∀ a, f a = { a with
    state := (f a).state, dispatchOwner := (f a).dispatchOwner
    dispatchExpiresAt := (f a).dispatchExpiresAt, startedAt := (f a).startedAt
    finishedAt := (f a).finishedAt }

theorem MovesAttempt.kept {subject : ℕ} {f : Attempt → Attempt} (hf : MovesAttempt f) {a : Attempt}
    (hrun : a.runId = subject) : AttemptKept subject a (f a) := by
  rw [hf a]
  exact ⟨rfl, rfl, rfl, rfl, fun _ h => h, fun _ h => h, id, id, .inl hrun⟩

/-! ## Runs and threads -/

/-- A run that is not the subject keeps its state and its active attempt. -/
structure RunKept (subject : ℕ) (r r' : Run) : Prop where
  id : r'.id = r.id
  threadId : r'.threadId = r.threadId
  others : r.id = subject ∨ r'.state = r.state ∧ r'.activeAttemptId = r.activeAttemptId

theorem RunKept.refl {subject : ℕ} (r : Run) : RunKept subject r r := ⟨rfl, rfl, .inr ⟨rfl, rfl⟩⟩

theorem RunKept.trans {subject : ℕ} {r m r' : Run} (h : RunKept subject r m)
    (h' : RunKept subject m r') : RunKept subject r r' where
  id := h'.id.trans h.id
  threadId := h'.threadId.trans h.threadId
  others := by
    rcases h.others with hr | ⟨hstate, hactive⟩
    · exact .inl hr
    · rcases h'.others with hm | ⟨hstate', hactive'⟩
      · exact .inl (h.id.symm.trans hm)
      · exact .inr ⟨hstate'.trans hstate, hactive'.trans hactive⟩

/-- Every run keeps its state and its active attempt. -/
structure RunSame (r r' : Run) : Prop where
  threadId : r'.threadId = r.threadId
  state : r'.state = r.state
  activeAttemptId : r'.activeAttemptId = r.activeAttemptId

theorem RunSame.refl (r : Run) : RunSame r r := ⟨rfl, rfl, rfl⟩

/-- A thread keeps its active run, and stays archived or not. -/
structure ThreadKept (t t' : Thread) : Prop where
  activeRunId : t'.activeRunId = t.activeRunId
  archivedAt : t'.archivedAt = t.archivedAt

theorem ThreadKept.refl (t : Thread) : ThreadKept t t := ⟨rfl, rfl⟩

theorem ThreadKept.trans {t m t' : Thread} (h : ThreadKept t m) (h' : ThreadKept m t') :
    ThreadKept t t' :=
  ⟨h'.activeRunId.trans h.activeRunId, h'.archivedAt.trans h.archivedAt⟩

/-- A thread may let go of the subject. -/
structure ThreadDetached (subject : ℕ) (t t' : Thread) : Prop where
  archivedAt : t'.archivedAt = t.archivedAt
  activeRunId : t'.activeRunId = t.activeRunId ∨
    t.activeRunId = some subject ∧ t'.activeRunId = none

/-- One thread takes the subject, every other thread keeps its active run. -/
structure ThreadAttached (threadId subject : ℕ) (t t' : Thread) : Prop where
  archivedAt : t'.archivedAt = t.archivedAt
  activeRunId : t'.activeRunId = if t.id = threadId then some subject else t.activeRunId

/-! ## Ledgers -/

/-- The identifiers of the attempts of a run. -/
def Ledger.HasAttempt (s : Ledger) (runId attemptId : ℕ) : Prop :=
  ∃ a ∈ s.attempts, a.id = attemptId ∧ a.runId = runId

/-- What a command does to the rows that wait for somebody, and to the releases. -/
structure WorkFrame (subject : ℕ) (own : ℕ → Prop) (adds : Prop) (s s' : Ledger) : Prop where
  decisions : s.decisions.Grows WorkKept (WorkAdded subject own adds) s'.decisions
  intents : s.intents.Grows WorkKept (WorkAdded subject own adds) s'.intents
  actions : s.actions.Grows WorkKept (WorkAdded subject own adds) s'.actions
  releases : s.releases.Grows ReleaseKept (ReleaseAdded subject own) s'.releases

/-- The attempts of a step that adds none. -/
abbrev AttemptsKept (subject : ℕ) (s s' : Ledger) : Prop :=
  s.attempts.Grows (AttemptKept subject) (fun _ => False) s'.attempts

/-- What a command does to the attempts, the work and the releases. -/
structure Frame (subject : ℕ) (own : ℕ → Prop) (adds : Prop) (s s' : Ledger) : Prop where
  attempts : AttemptsKept subject s s'
  work : WorkFrame subject own adds s s'

section Frame

variable {subject : ℕ} {own : ℕ → Prop} {adds adds' : Prop} {s m s' : Ledger}

theorem WorkFrame.refl : WorkFrame subject own adds s s :=
  ⟨.refl .refl, .refl .refl, .refl .refl, .refl .refl⟩

/-- A part that touches none of the four tables. -/
theorem WorkFrame.same
    (h : (s'.decisions, s'.intents, s'.actions, s'.releases) =
      (s.decisions, s.intents, s.actions, s.releases)) : WorkFrame subject own adds s s' := by
  simp only [Prod.mk.injEq] at h
  obtain ⟨hdecisions, hintents, hactions, hreleases⟩ := h
  refine ⟨?_, ?_, ?_, ?_⟩
  · rw [hdecisions]
    exact .refl .refl
  · rw [hintents]
    exact .refl .refl
  · rw [hactions]
    exact .refl .refl
  · rw [hreleases]
    exact .refl .refl

theorem WorkFrame.trans (h : WorkFrame subject own adds s m)
    (h' : WorkFrame subject own adds m s') : WorkFrame subject own adds s s' where
  decisions := h.decisions.trans (fun _ _ _ => .trans) (fun _ _ => .kept) h'.decisions
  intents := h.intents.trans (fun _ _ _ => .trans) (fun _ _ => .kept) h'.intents
  actions := h.actions.trans (fun _ _ _ => .trans) (fun _ _ => .kept) h'.actions
  releases := h.releases.trans (fun _ _ _ => .trans) (fun _ _ => .kept) h'.releases

theorem WorkFrame.mono (h : WorkFrame subject own adds s s') (hadds : adds → adds') :
    WorkFrame subject own adds' s s' where
  decisions := h.decisions.mono (fun _ _ _ hr => hr) fun _ hr => { hr with adds := hadds hr.adds }
  intents := h.intents.mono (fun _ _ _ hr => hr) fun _ hr => { hr with adds := hadds hr.adds }
  actions := h.actions.mono (fun _ _ _ hr => hr) fun _ hr => { hr with adds := hadds hr.adds }
  releases := h.releases

theorem Frame.refl : Frame subject own adds s s := ⟨.refl .refl, .refl⟩

theorem Frame.trans (h : Frame subject own adds s m) (h' : Frame subject own adds m s') :
    Frame subject own adds s s' :=
  ⟨h.attempts.trans (fun _ _ _ => .trans) (fun _ _ => False.elim) h'.attempts,
    h.work.trans h'.work⟩

theorem Frame.mono (h : Frame subject own adds s s') (hadds : adds → adds') :
    Frame subject own adds' s s' := ⟨h.attempts, h.work.mono hadds⟩

/-- No attempt comes or goes. -/
theorem AttemptsKept.hasAttempt_iff (h : AttemptsKept subject s s') {runId attemptId : ℕ} :
    s'.HasAttempt runId attemptId ↔ s.HasAttempt runId attemptId := by
  constructor
  · rintro ⟨a', ha', rfl, rfl⟩
    obtain ⟨a, ha, hkey, hkept⟩ := h.source ha'
    exact ⟨a, ha, hkey.symm, hkept.runId.symm⟩
  · rintro ⟨a, ha, rfl, rfl⟩
    obtain ⟨a', ha', hkey, hkept⟩ := h.kept a ha
    exact ⟨a', ha', hkey, hkept.runId⟩

end Frame

/-! ## The parts -/

namespace Ledger

variable {s s' : Ledger} {subject : ℕ} {own : ℕ → Prop} {adds : Prop}

theorem workFrame_failPendingRuntimeActions {runId attemptId : ℕ} {now : Stamp} :
    WorkFrame subject own adds s (s.failPendingRuntimeActions runId attemptId now) :=
  { WorkFrame.refl with
    actions := .update (by intro; rfl) (fun r _ _ => .refl r) fun _ _ _ => ⟨rfl, rfl, (by intro h; cases h), rfl⟩ }

theorem workFrame_expireDecisionsWhere {p : Decision → Prop} [DecidablePred p] {now : Stamp} :
    WorkFrame subject own adds s (s.expireDecisionsWhere p now) :=
  { WorkFrame.refl with
    decisions := .update (by intro; rfl) (fun r _ _ => .refl r) fun _ _ _ => ⟨rfl, rfl, (by intro h; cases h), rfl⟩ }

theorem workFrame_closeSourceWorkForRun {runId : ℕ} {now : Stamp} :
    WorkFrame subject own adds s (s.closeSourceWorkForRun runId now) :=
  { WorkFrame.refl with
    intents := .update (by intro; rfl) (fun r _ _ => .refl r) fun _ _ _ => ⟨rfl, rfl, (by intro h; cases h), rfl⟩
    decisions := .update (by intro; rfl) (fun r _ _ => .refl r) fun _ _ _ => ⟨rfl, rfl, (by intro h; cases h), rfl⟩ }

theorem workFrame_settleDecision {decision : Decision} {resolution : Resolution} {now : Stamp} :
    WorkFrame subject own adds s (s.settleDecision decision resolution now) :=
  { WorkFrame.refl with
    decisions := .update (by intro; rfl) (fun r _ _ => .refl r) fun _ _ _ => ⟨rfl, rfl, (by intro h; cases h), rfl⟩ }

/-- A change of an attempt of the subject that only moves it. -/
theorem attempts_moved {attemptId : ℕ} {f : Attempt → Attempt}
    (hown : s.HasAttempt subject attemptId) (hf : MovesAttempt f)
    (hid : ∀ a, (f a).id = a.id) :
    s.attempts.Grows (AttemptKept subject) (fun _ => False)
      (s.attempts.update (fun a => a.id = attemptId) f hid) := by
  apply Table.Grows.update hid
  · exact fun a _ _ => .refl a
  · intro a ha hkey
    obtain ⟨a₀, ha₀, hid₀, hrun⟩ := hown
    obtain rfl : a = a₀ := Table.eq_of_key ha ha₀ (hkey.trans hid₀.symm)
    exact hf.kept hrun

/-- A control action is added for an attempt of the subject, or nothing happens. -/
theorem workFrame_insertControlRuntimeAction {newId attemptId : ℕ} {kind : ActionKind}
    {now : Stamp} (hown : own attemptId) (hadds : adds)
    (h : s.insertControlRuntimeAction newId subject attemptId kind now = .ok s') :
    ∃ actions, s' = { s with actions } ∧ WorkFrame subject own adds s s' := by
  simp only [insertControlRuntimeAction, bind_eq_ok] at h
  obtain ⟨attempt, -, h⟩ := h
  split at h
  · simp only [bind_eq_ok, orRaise_eq_ok, pure_eq_ok] at h
    obtain ⟨actions, hinsert, rfl⟩ := h
    exact ⟨actions, rfl, { WorkFrame.refl with
      actions := .insert hinsert (fun r _ => .refl r) ⟨hadds, rfl, hown⟩ }⟩
  · simp only [pure_eq_ok] at h
    subst h
    exact ⟨s.actions, rfl, .refl⟩

/-- A release is queued for an attempt of the subject, or found queued. -/
theorem workFrame_insertPinRelease {newId : ℕ} {attempt : Attempt} {now : Stamp}
    (hown : own attempt.id) (h : s.insertPinRelease newId subject attempt now = .ok s') :
    ∃ releases, s' = { s with releases } ∧ WorkFrame subject own False s s' := by
  simp only [insertPinRelease, bind_eq_ok, orRaise_eq_ok] at h
  obtain ⟨-, -, identity, -, h⟩ := h
  split at h
  · simp only [bind_eq_ok, require_eq_ok, pure_eq_ok] at h
    obtain ⟨-, -, rfl⟩ := h
    exact ⟨s.releases, rfl, .refl⟩
  · simp only [bind_eq_ok, orRaise_eq_ok, pure_eq_ok] at h
    obtain ⟨releases, hinsert, rfl⟩ := h
    exact ⟨releases, rfl, { WorkFrame.refl with
      releases := .insert hinsert (fun r _ => .refl r) ⟨rfl, hown, rfl, .inl rfl⟩ }⟩

theorem workFrame_releasePin {newId : ℕ} {attempt : Attempt} {now : Stamp}
    (hown : own attempt.id) (h : s.releasePin newId subject attempt now = .ok s') :
    ∃ releases, s' = { s with releases } ∧ WorkFrame subject own False s s' := by
  unfold releasePin at h
  split at h
  · exact workFrame_insertPinRelease hown h
  · injection h with h
    subst h
    exact ⟨s.releases, rfl, .refl⟩

end Ledger

end Cortex.Runs
