import Cortex.Fallback.OnceOnly
import Cortex.Feed.Tasks
import Cortex.Library.Trace
import Mathlib.Tactic.Linarith

/-!
# Bounded attempts and fenced records

The life of a task is the list of what was done to it.  `Lives` relates that list
to the row: the row counts the claims that were not released since the last reset,
its state and its revision are those that the last act left, and each act is one
that may follow those before it (`Act.Follows`).  Handlers write to other tasks
while a task is recorded or given up; what they may do is `Written`.

The claim loop ends because every turn but the last gives up a task that has lost
its last lease, and handlers never make such a task.
-/

namespace Cortex.Feed

open Control Time Transaction
open Fallback (TaskState noonOf)

variable {ρ : Type} {handlers : Handlers ρ} {q q' q'' : Queue ρ} {t t' : Task}
  {acts earlier : List Act} {act : Act}

/-! ## The life of a task -/

/-- The claims since the last reset. -/
def claims : List Act → ℕ
  | [] => 0
  | .reset :: _ => 0
  | .claimed _ :: earlier => claims earlier + 1
  | _ :: earlier => claims earlier

/-- The releases since the last reset. -/
def releases : List Act → ℕ
  | [] => 0
  | .reset :: _ => 0
  | .released :: earlier => releases earlier + 1
  | _ :: earlier => releases earlier

/-- The act leaves the task pending. -/
def Act.waits : Act → Bool
  | created | released | backedOff | reset => true
  | _ => false

/-- The act may follow those before it. -/
def Act.Follows : Act → List Act → Prop
  | created, earlier => earlier = []
  | claimed revision, earlier =>
      (∃ act ∈ earlier.head?, act.waits = true ∨ ∃ r, act = claimed r) ∧
        ∀ r, claimed r ∈ earlier → r < revision
  | released, earlier | completed, earlier | backedOff, earlier | failed, earlier
  | expired, earlier => ∃ r, earlier.head? = some (claimed r)
  | dropped, earlier => ∃ act ∈ earlier.head?, act.waits = true
  | reset, earlier => ∀ r, earlier.head? ≠ some (claimed r)

/-- The row as the act leaves it. -/
def Act.Leaves : Act → Task → Prop
  | created, t | released, t | backedOff, t | reset, t => t.state = .pending ∧ t.attempts ≤ 3
  | claimed revision, t => t.state = .running ∧ t.revision = revision ∧ 1 ≤ t.attempts
  | completed, t => t.state = .done
  | failed, t | dropped, t => t.state = .failed
  | expired, t => t.state = .failed ∧ t.lastError = some outcomeUnknown

/-- What was done to a task, and its row. -/
structure Lives (acts : List Act) (t : Task) : Prop where
  last : ∃ act earlier, acts = act :: earlier ∧ act.Leaves t
  counted : t.attempts + releases acts = claims acts
  bounded : t.attempts ≤ 4
  tokens : ∀ r, .claimed r ∈ acts → r ≤ t.revision
  lawful : Along (fun act earlier => act.Follows earlier ∧
    claims (act :: earlier) ≤ releases (act :: earlier) + 4) acts

/-- The row is running only after a claim, and its revision is the token. -/
theorem Lives.claimed_of_running (h : Lives acts t) (hstate : t.state = .running) :
    acts.head? = some (.claimed t.revision) ∧ 1 ≤ t.attempts := by
  obtain ⟨act, earlier, rfl, hleaves⟩ := h.last
  cases act with
  | claimed r =>
      rw [hleaves.2.1]
      exact ⟨rfl, hleaves.2.2⟩
  | created => exact absurd (hstate.symm.trans hleaves.1) (by decide)
  | released => exact absurd (hstate.symm.trans hleaves.1) (by decide)
  | completed => exact absurd (hstate.symm.trans hleaves) (by decide)
  | backedOff => exact absurd (hstate.symm.trans hleaves.1) (by decide)
  | failed => exact absurd (hstate.symm.trans hleaves) (by decide)
  | expired => exact absurd (hstate.symm.trans hleaves.1) (by decide)
  | dropped => exact absurd (hstate.symm.trans hleaves) (by decide)
  | reset => exact absurd (hstate.symm.trans hleaves.1) (by decide)

/-- The row is pending only after an act that leaves it so, with an attempt left. -/
theorem Lives.waits_of_pending (h : Lives acts t) (hstate : t.state = .pending) :
    (∃ act ∈ acts.head?, act.waits = true) ∧ t.attempts ≤ 3 := by
  obtain ⟨act, earlier, rfl, hleaves⟩ := h.last
  cases act with
  | created => exact ⟨⟨_, rfl, rfl⟩, hleaves.2⟩
  | released => exact ⟨⟨_, rfl, rfl⟩, hleaves.2⟩
  | backedOff => exact ⟨⟨_, rfl, rfl⟩, hleaves.2⟩
  | reset => exact ⟨⟨_, rfl, rfl⟩, hleaves.2⟩
  | claimed r => exact absurd (hstate.symm.trans hleaves.1) (by decide)
  | completed => exact absurd (hstate.symm.trans hleaves) (by decide)
  | failed => exact absurd (hstate.symm.trans hleaves) (by decide)
  | expired => exact absurd (hstate.symm.trans hleaves.1) (by decide)
  | dropped => exact absurd (hstate.symm.trans hleaves) (by decide)

theorem Lives.not_claimed (h : Lives acts t) (hstate : t.state ≠ .running) (r : ℕ) :
    acts.head? ≠ some (.claimed r) := by
  obtain ⟨act, earlier, rfl, hleaves⟩ := h.last
  rintro ⟨⟩
  exact hstate hleaves.1

/-- One more act. -/
theorem Lives.next (h : Lives acts t) (hfollows : act.Follows acts) (hleaves : act.Leaves t')
    (hcounted : t'.attempts + releases (act :: acts) = claims (act :: acts))
    (hbounded : t'.attempts ≤ 4) (hrevision : t'.revision = t.revision + 1)
    (htoken : ∀ r, act = .claimed r → r = t'.revision) : Lives (act :: acts) t' where
  last := ⟨act, acts, rfl, hleaves⟩
  counted := hcounted
  bounded := hbounded
  tokens r hr := by
    rcases List.mem_cons.1 hr with heq | hr
    · exact le_of_eq (htoken r heq.symm)
    · rw [hrevision]
      exact Nat.le_succ_of_le (h.tokens r hr)
  lawful := ⟨⟨hfollows, by omega⟩, h.lawful⟩

/-! ## Rows and their acts -/

namespace Queue

theorem acts_cons (id k : ℕ) (act : Act) (tasks : Table Task) :
    ({ q with tasks, log := (id, act) :: q.log } : Queue ρ).acts k =
      if id = k then act :: q.acts k else q.acts k := by
  unfold acts
  by_cases hk : id = k
  · simp [hk]
  · simp [hk]

theorem acts_put (id k : ℕ) (f : Task → Task) (act : Act) :
    (q.put id f act).acts k = if id = k then act :: q.acts k else q.acts k :=
  acts_cons id k act _

theorem get?_put (id k : ℕ) (f : Task → Task) (act : Act) :
    (q.put id f act).tasks.get? k = (q.tasks.get? k).map fun t =>
      if t.id = id then t.revised f else t := by
  have htasks : (q.put id f act).tasks =
      q.tasks.update (fun t => t.id = id) (Task.revised f) (Task.key_revised f) := rfl
  rw [htasks, Table.get?_update]

theorem mem_put {id : ℕ} {f : Task → Task} {act : Act} (h : t' ∈ (q.put id f act).tasks) :
    ∃ t ∈ q.tasks, (t.id = id ∧ t' = t.revised f) ∨
      (t.id ≠ id ∧ t' = t) := by
  have hmem : t' ∈ q.tasks.update (fun t => t.id = id) (Task.revised f) (Task.key_revised f) := h
  obtain ⟨t, ht, rfl⟩ := Table.mem_update.1 hmem
  by_cases hid : t.id = id
  · exact ⟨t, ht, .inl ⟨hid, if_pos hid⟩⟩
  · exact ⟨t, ht, .inr ⟨hid, if_neg hid⟩⟩

end Queue

/-- Every row is as the acts on it left it. -/
structure Sound (q : Queue ρ) : Prop where
  lives : ∀ t ∈ q.tasks, Lives (q.acts t.id) t
  absent : ∀ id, q.tasks.get? id = none → q.acts id = []

/-- The failures of the claims were told. -/
def Told (q : Queue ρ) : Prop :=
  ∀ t ∈ q.tasks, (q.acts t.id).head? = some .expired → (t, outcomeUnknown) ∈ q.told

theorem Sound.put {f : Task → Task} (hq : Sound q) (ht : t ∈ q.tasks)
    (h : Lives (act :: q.acts t.id) (t.revised f)) :
    Sound (q.put t.id f act) where
  lives t' ht' := by
    obtain ⟨t₀, ht₀, ⟨hid, rfl⟩ | ⟨hid, rfl⟩⟩ := Queue.mem_put ht'
    · obtain rfl : t₀ = t := Table.eq_of_key ht₀ ht hid
      rw [Queue.acts_put, if_pos (by rfl)]
      exact h
    · rw [Queue.acts_put, if_neg (Ne.symm hid)]
      exact hq.lives t' ht₀
  absent id hid := by
    rw [Queue.get?_put, Option.map_eq_none_iff] at hid
    have hne : t.id ≠ id := by
      rintro rfl
      exact Table.get?_eq_none.1 hid t ht rfl
    rw [Queue.acts_put, if_neg hne]
    exact hq.absent id hid

theorem Told.put {f : Task → Task} {id : ℕ} (hq : Told q) (hact : act ≠ .expired) :
    Told (q.put id f act) := by
  intro t' ht' hhead
  obtain ⟨t, ht, ⟨hid, rfl⟩ | ⟨hid, rfl⟩⟩ := Queue.mem_put ht'
  · rw [Queue.acts_put, if_pos (by exact hid.symm)] at hhead
    exact absurd (Option.some.inj hhead) hact
  · rw [Queue.acts_put, if_neg (Ne.symm hid)] at hhead
    exact hq t' ht hhead

/-! ## What handlers write -/

/-- A running task stays as it is, and nothing becomes running or is given up. -/
structure Written (q q' : Queue ρ) : Prop where
  row : ∀ id, (q'.tasks.get? id = q.tasks.get? id ∧ q'.acts id = q.acts id) ∨
    ((∀ t, q.tasks.get? id = some t → t.state ≠ .running) ∧
      ∃ t act earlier, q'.tasks.get? id = some t ∧ t.state ≠ .running ∧
        q'.acts id = act :: earlier ∧ act ≠ .expired)
  log : ∃ new, q'.log = new ++ q.log
  told : q'.told = q.told
  spent : ∀ kinds now, q'.spent kinds now = q.spent kinds now
  sound : Sound q → Sound q'

namespace Written

theorem refl (q : Queue ρ) : Written q q where
  row _ := .inl ⟨rfl, rfl⟩
  log := ⟨[], rfl⟩
  told := rfl
  spent _ _ := rfl
  sound h := h

theorem trans (h : Written q q') (h' : Written q' q'') : Written q q'' where
  row id := by
    rcases h'.row id with ⟨hrow', hacts'⟩ | ⟨hrow', hnew'⟩
    · rw [hrow', hacts']
      exact h.row id
    · rcases h.row id with ⟨hrow, -⟩ | ⟨hrow, -⟩
      · rw [hrow] at hrow'
        exact .inr ⟨hrow', hnew'⟩
      · exact .inr ⟨hrow, hnew'⟩
  log := by
    obtain ⟨new, hnew⟩ := h.log
    obtain ⟨new', hnew'⟩ := h'.log
    exact ⟨new' ++ new, by rw [hnew', hnew, List.append_assoc]⟩
  told := h'.told.trans h.told
  spent kinds now := (h'.spent kinds now).trans (h.spent kinds now)
  sound hq := h'.sound (h.sound hq)

/-- Other rows that tasks work on say nothing about the tasks. -/
theorem withRows (q : Queue ρ) (rows : ρ) : Written q { q with rows } where
  row _ := .inl ⟨rfl, rfl⟩
  log := ⟨[], rfl⟩
  told := rfl
  spent _ _ := rfl
  sound h := ⟨h.lives, h.absent⟩

/-- A running row is still there. -/
theorem mem_of_running (h : Written q q') (ht : t ∈ q.tasks) (hstate : t.state = .running) :
    t ∈ q'.tasks := by
  have hget : q.tasks.get? t.id = some t := Table.get?_key ht
  rcases h.row t.id with ⟨hrow, -⟩ | ⟨hrow, -⟩
  · rw [hget] at hrow
    exact (Table.get?_eq_some.1 hrow).1
  · exact absurd hstate (hrow t hget)

theorem told_of (h : Written q q') (hq : Told q) : Told q' := by
  intro t ht hhead
  have hget : q'.tasks.get? t.id = some t := Table.get?_key ht
  rw [h.told]
  rcases h.row t.id with ⟨hrow, hacts⟩ | ⟨-, _, act, earlier, -, -, hacts, hne⟩
  · rw [hrow] at hget
    rw [hacts] at hhead
    exact hq t (Table.get?_eq_some.1 hget).1 hhead
  · rw [hacts] at hhead
    exact absurd (Option.some.inj hhead) hne

/-- A write to a row that does not run, which leaves it so. -/
theorem put {f : Task → Task} (ht : t ∈ q.tasks) (hstate : t.state ≠ .running)
    (hstate' : (f t).state ≠ .running) (hact : act ≠ .expired)
    (hlives : Lives (q.acts t.id) t →
      Lives (act :: q.acts t.id) (t.revised f)) :
    Written q (q.put t.id f act) where
  row id := by
    by_cases hid : t.id = id
    · subst hid
      have hget : q.tasks.get? t.id = some t := Table.get?_key ht
      refine .inr ⟨fun t₀ ht₀ => ?_, t.revised f, act, q.acts t.id, ?_, hstate', ?_, hact⟩
      · obtain rfl : t = t₀ := Option.some.inj (hget.symm.trans ht₀)
        exact hstate
      · rw [Queue.get?_put, hget, Option.map_some, if_pos rfl]
      · rw [Queue.acts_put, if_pos rfl]
    · refine .inl ⟨?_, by rw [Queue.acts_put, if_neg hid]⟩
      rw [Queue.get?_put]
      cases hget : q.tasks.get? id with
      | none => rfl
      | some t₀ =>
          have hid₀ : t₀.id ≠ t.id := fun heq =>
            hid (heq.symm.trans (Table.get?_eq_some.1 hget).2)
          rw [Option.map_some, if_neg hid₀]
  log := ⟨[(t.id, act)], rfl⟩
  told := rfl
  spent kinds now := by
    unfold Queue.spent
    simp only [Queue.put, Table.update, List.countP_map]
    refine List.countP_congr fun t₀ ht₀ => ?_
    simp only [Function.comp_apply, decide_eq_true_eq]
    split
    · rename_i hid
      obtain rfl : t₀ = t := Table.eq_of_key ht₀ ht hid
      exact iff_of_false (fun hspent => hstate' hspent.2.1) (fun hspent => hstate hspent.2.1)
    · exact Iff.rfl
  sound hq := hq.put ht (hlives (hq.lives t ht))

end Written

open Queue

theorem bySubject_eq_some {subjectKey : Text} (h : q.bySubject subjectKey = some t) :
    t ∈ q.tasks :=
  List.mem_of_find?_eq_some h

theorem createTask_written {id : ℕ} {kind : TaskKind} {subjectKey payload : Text} {now : Stamp}
    {fresh : Bool} (h : q.createTask id kind subjectKey payload now = .ok (q', t, fresh)) :
    Written q q' := by
  simp only [createTask, bind_eq_ok] at h
  obtain ⟨-, -, payload, -, h⟩ := h
  split at h
  · rw [pure_eq_ok, Prod.mk.injEq] at h
    obtain ⟨rfl, -⟩ := h
    exact .refl q
  · simp only [bind_eq_ok, orRaise_eq_ok, pure_eq_ok, Prod.mk.injEq] at h
    obtain ⟨tasks, hinsert, rfl, -⟩ := h
    have hfresh : q.tasks.get? id = none := Table.get?_eq_none.2 (Table.rows_insert hinsert).2
    refine
      { row := fun k => ?_
        log := ⟨[(id, .created)], rfl⟩
        told := rfl
        spent := fun kinds now => ?_
        sound := fun hq => ⟨fun t' ht' => ?_, fun k hk => ?_⟩ }
    · rw [acts_cons]
      by_cases hk : id = k
      · subst hk
        refine .inr ⟨fun t ht => ?_, _, .created, q.acts id,
          (Table.get?_insert hinsert id).trans (if_pos rfl), ?_, if_pos rfl, by decide⟩
        · rw [hfresh] at ht
          cases ht
        · exact TaskState.noConfusion
      · refine .inl ⟨?_, if_neg hk⟩
        exact (Table.get?_insert hinsert k).trans (if_neg (Ne.symm hk))
    · unfold Queue.spent
      rw [(Table.rows_insert hinsert).1, List.countP_append, List.countP_cons, List.countP_nil]
      simp [Task.IsSpent]
    · rw [acts_cons]
      rcases (Table.mem_insert hinsert).1 ht' with ht' | rfl
      · rw [if_neg fun hid => (Table.rows_insert hinsert).2 t' ht' hid.symm]
        exact hq.lives t' ht'
      · rw [if_pos rfl, hq.absent id hfresh]
        exact
          { last := ⟨.created, [], rfl, rfl, Nat.zero_le 3⟩
            counted := rfl
            bounded := Nat.zero_le 4
            tokens := by simp
            lawful := ⟨⟨rfl, Nat.zero_le _⟩, trivial⟩ }
    · rw [acts_cons]
      have hget := (Table.get?_insert hinsert k).symm.trans hk
      by_cases hid : k = id
      · rw [if_pos (by exact hid)] at hget
        cases hget
      · rw [if_neg (by exact hid)] at hget
        rw [if_neg (Ne.symm hid)]
        exact hq.absent k hget

theorem resetTask_written {subjectKey : Text} {payload : Option Text} {now : Stamp}
    (h : q.resetTask subjectKey payload now = .ok q') : Written q q' := by
  unfold Queue.resetTask at h
  simp only [bind_eq_ok, orRaise_eq_ok, require_eq_ok] at h
  obtain ⟨t, hsubject, -, hstate, h⟩ := h
  split at h
  · rw [pure_eq_ok] at h
    exact h ▸ .refl q
  · simp only [bind_eq_ok, pure_eq_ok] at h
    obtain ⟨payload, -, rfl⟩ := h
    refine Written.put (bySubject_eq_some hsubject) hstate TaskState.noConfusion
      Act.noConfusion fun hlives => ?_
    exact hlives.next (fun r => hlives.not_claimed hstate r) ⟨rfl, Nat.zero_le 3⟩ rfl
      (Nat.zero_le 4) rfl (by rintro r ⟨⟩)

theorem dropTask_written (q : Queue ρ) (id : ℕ) : Written q (q.dropTask id) := by
  unfold dropTask
  split
  · rename_i hpending
    obtain ⟨t, ht, hboth⟩ := List.any_eq_true.1 hpending
    obtain ⟨rfl, hstate⟩ := of_decide_eq_true hboth
    refine Written.put ht (by rw [hstate]; decide) TaskState.noConfusion Act.noConfusion
      fun hlives => ?_
    exact hlives.next (hlives.waits_of_pending hstate).1 rfl hlives.counted hlives.bounded rfl
      (by rintro r ⟨⟩)
  · exact .refl q

theorem write_written {w : Write} (h : q.write w = .ok q') : Written q q' := by
  cases w with
  | create id kind subjectKey payload now =>
      simp only [Queue.write, bind_eq_ok, pure_eq_ok] at h
      obtain ⟨⟨q₁, t, fresh⟩, hcreate, rfl⟩ := h
      exact createTask_written hcreate
  | reset subjectKey payload now => exact resetTask_written h
  | drop id =>
      simp only [Queue.write, pure_eq_ok] at h
      exact h ▸ dropTask_written q id

theorem writeAll_written {writes : List Write} (h : q.writeAll writes = .ok q') :
    Written q q' := by
  induction writes generalizing q with
  | nil =>
      rw [writeAll, List.foldlM_nil, pure_eq_ok] at h
      exact h ▸ .refl q
  | cons w rest ih =>
      rw [writeAll, List.foldlM_cons, bind_eq_ok] at h
      obtain ⟨q₁, hw, h⟩ := h
      exact (write_written hw).trans (ih h)

/-! ## The lease owner's records -/

theorem runningTask_eq_ok {id : ℕ} {expectedRevision : ℤ} {target : String}
    (h : q.runningTask id expectedRevision target = .ok t) :
    t ∈ q.tasks ∧ t.id = id ∧ (t.revision : ℤ) = expectedRevision ∧ t.state = .running := by
  simp only [runningTask, Queue.task, bind_eq_ok, orRaise_eq_ok, expectRevision_eq_ok,
    require_eq_ok, pure_eq_ok] at h
  obtain ⟨t, hget, -, hrevision, -, hstate, rfl⟩ := h
  obtain ⟨hmem, hid⟩ := Table.get?_eq_some.1 hget
  exact ⟨hmem, hid, hrevision, hstate⟩

/-- A record ends the claim that last leased the task. -/
structure Recorded (q q' : Queue ρ) (id : ℕ) (token : ℤ) : Prop where
  owner : ∃ t ∈ q.tasks, t.id = id ∧ (t.revision : ℤ) = token ∧ t.state = .running
  sound : Sound q → Sound q'
  told : Told q → Told q'

theorem Recorded.written {id : ℕ} {token : ℤ} (h : Recorded q q' id token)
    (h' : Written q' q'') : Recorded q q'' id token where
  owner := h.owner
  sound hq := h'.sound (h.sound hq)
  told hq := h'.told_of (h.told hq)

/-- The owner's update of the row that it holds. -/
theorem Recorded.put {f : Task → Task} {token : ℤ} (ht : t ∈ q.tasks)
    (htoken : (t.revision : ℤ) = token) (hstate : t.state = .running) (hact : act ≠ .expired)
    (hfollows : (∃ r, (q.acts t.id).head? = some (.claimed r)) → act.Follows (q.acts t.id))
    (hleaves : t.attempts ≤ 4 → act.Leaves (t.revised f))
    (hcounted : t.attempts + releases (q.acts t.id) = claims (q.acts t.id) → 1 ≤ t.attempts →
      (f t).attempts + releases (act :: q.acts t.id) = claims (act :: q.acts t.id))
    (hbounded : t.attempts ≤ 4 → (f t).attempts ≤ 4) (hclaim : ∀ r, act ≠ .claimed r) :
    Recorded q (q.put t.id f act) t.id token where
  owner := ⟨t, ht, rfl, htoken, hstate⟩
  sound hq := by
    have hlives := hq.lives t ht
    obtain ⟨hhead, hpos⟩ := hlives.claimed_of_running hstate
    exact hq.put ht (hlives.next (hfollows ⟨_, hhead⟩) (hleaves hlives.bounded)
      (hcounted hlives.counted hpos) (hbounded hlives.bounded) rfl
      fun r hr => absurd hr (hclaim r))
  told hq := hq.put hact

theorem taskTransition_eq_ok {id : ℕ} {token : ℤ} {state : TaskState}
    {nextAttemptAt : Option Stamp} {lastError result : Option Text}
    (h : q.taskTransition id token state nextAttemptAt lastError result act = .ok (q', t')) :
    ∃ f : Task → Task, q' = q.put id f act ∧ t' ∈ q'.tasks ∧ t'.id = id ∧
      ∀ t, (f t).state = state ∧ (f t).attempts = t.attempts := by
  simp only [taskTransition, Queue.task, bind_eq_ok, require_eq_ok, orRaise_eq_ok, pure_eq_ok,
    Prod.mk.injEq] at h
  obtain ⟨-, -, t, hget, rfl, rfl⟩ := h
  obtain ⟨hmem, hid⟩ := Table.get?_eq_some.1 hget
  exact ⟨_, rfl, hmem, hid, fun _ => ⟨rfl, rfl⟩⟩

/-- A transition of the row that its owner holds. -/
theorem Recorded.transition {id : ℕ} {token : ℤ} {state : TaskState}
    {nextAttemptAt : Option Stamp} {lastError result : Option Text} (ht : t ∈ q.tasks)
    (hid : t.id = id) (htoken : (t.revision : ℤ) = token) (hstate : t.state = .running)
    (h : q.taskTransition id token state nextAttemptAt lastError result act = .ok (q', t'))
    (hact : (act = .completed ∧ state = .done) ∨ (act = .failed ∧ state = .failed) ∨
      (act = .backedOff ∧ state = .pending ∧ t.attempts ≤ 3)) :
    Recorded q q' id token := by
  obtain ⟨f, rfl, -, -, hf⟩ := taskTransition_eq_ok h
  subst hid
  refine Recorded.put ht htoken hstate ?_ ?_ (fun _ => ?_) ?_ ?_ ?_
  · rintro rfl
    simp at hact
  · intro hhead
    rcases hact with ⟨rfl, -⟩ | ⟨rfl, -⟩ | ⟨rfl, -⟩
    · exact hhead
    · exact hhead
    · exact hhead
  · rcases hact with ⟨rfl, rfl⟩ | ⟨rfl, rfl⟩ | ⟨rfl, rfl, hle⟩
    · exact (hf t).1
    · exact (hf t).1
    · exact ⟨(hf t).1, (hf t).2.trans_le hle⟩
  · intro hcounted _
    rw [(hf t).2]
    rcases hact with ⟨rfl, -⟩ | ⟨rfl, -⟩ | ⟨rfl, -⟩
    · exact hcounted
    · exact hcounted
    · exact hcounted
  · exact fun hle => (hf t).2.trans_le hle
  · rintro r rfl
    simp at hact

theorem completeTask_recorded {id : ℕ} {token : ℤ} {result : Text}
    (h : q.completeTask id token result = .ok (q', t')) : Recorded q q' id token := by
  simp only [completeTask, bind_eq_ok] at h
  obtain ⟨_, -, t, hrunning, h⟩ := h
  obtain ⟨ht, hid, htoken, hstate⟩ := runningTask_eq_ok hrunning
  exact .transition ht hid htoken hstate h (.inl ⟨rfl, rfl⟩)

theorem failTask_recorded {id : ℕ} {token : ℤ} {category : Text} {now : Civil}
    (h : q.failTask id token category now = .ok (q', t')) : Recorded q q' id token := by
  simp only [failTask, bind_eq_ok] at h
  obtain ⟨-, -, t, hrunning, h⟩ := h
  obtain ⟨ht, hid, htoken, hstate⟩ := runningTask_eq_ok hrunning
  split at h
  · rename_i seconds hseconds
    simp only [bind_eq_ok] at h
    obtain ⟨_, -, h⟩ := h
    have hretry : t.attempts - 1 < retryBackoffSeconds.length := by
      split at hseconds
      · exact (List.getElem?_eq_some_iff.1 hseconds).1
      · cases hseconds
    have hle : t.attempts ≤ 3 := by
      simp only [retryBackoffSeconds, List.length_cons, List.length_nil] at hretry
      omega
    exact .transition ht hid htoken hstate h (.inr (.inr ⟨rfl, rfl, hle⟩))
  · exact .transition ht hid htoken hstate h (.inr (.inl ⟨rfl, rfl⟩))

theorem releaseTask_recorded {id : ℕ} {token : ℤ} {notBefore : Option Text}
    {delaySeconds : Option ℤ} {now : Civil}
    (h : q.releaseTask id token notBefore delaySeconds now = .ok q') :
    Recorded q q' id token := by
  simp only [releaseTask, bind_eq_ok, pure_eq_ok] at h
  obtain ⟨t, hrunning, -, -, nextAttemptAt, -, rfl⟩ := h
  obtain ⟨ht, rfl, htoken, hstate⟩ := runningTask_eq_ok hrunning
  refine Recorded.put ht htoken hstate Act.noConfusion (fun hhead => hhead) ?_ ?_ ?_
    fun r => Act.noConfusion
  · intro hle
    exact ⟨rfl, Nat.sub_le_of_le_add hle⟩
  · intro hcounted hpos
    change t.attempts - 1 + (releases (q.acts t.id) + 1) = claims (q.acts t.id)
    omega
  · exact fun hle => (Nat.sub_le _ _).trans hle

theorem tell_eq_ok {category : Text} (h : q.tell handlers t category = .ok q') :
    ∃ q₁, Written q q₁ ∧ q' = { q₁ with told := (t, category) :: q.told } := by
  simp only [Queue.tell, bind_eq_ok, pure_eq_ok] at h
  obtain ⟨⟨writes, rows⟩, -, q₁, hwrites, rfl⟩ := h
  have hwritten := (Written.withRows q rows).trans (writeAll_written hwrites)
  exact ⟨q₁, hwritten, by rw [hwritten.told]⟩

/-! ## Claims -/

private theorem mem_due {kinds : List TaskKind} {now : Stamp} :
    t ∈ Keyset.orderBy Task.place (q.tasks.rows.filter fun t => t.IsDue kinds now) ↔
      t ∈ q.tasks ∧ t.IsDue kinds now := by
  rw [Keyset.mem_orderBy, List.mem_filter, decide_eq_true_iff]
  rfl

theorem dueTask_eq_some {kinds : List TaskKind} {now : Stamp} (h : q.dueTask kinds now = some t) :
    t ∈ q.tasks ∧ t.IsDue kinds now ∧ ∀ t' ∈ q.tasks, t'.IsDue kinds now → t.place ≤ t'.place := by
  obtain ⟨ht, hdue⟩ := mem_due.1 (List.mem_of_mem_head? h)
  refine ⟨ht, hdue, fun t' ht' hdue' => ?_⟩
  have hmem := mem_due.2 ⟨ht', hdue'⟩
  have hsorted := Keyset.pairwise_orderBy Task.place
    (q.tasks.rows.filter fun t => t.IsDue kinds now)
  obtain ⟨rest, hrest⟩ := List.head?_eq_some_iff.1 h
  rw [hrest] at hmem hsorted
  rcases List.mem_cons.1 hmem with rfl | hmem
  · exact le_rfl
  · exact (List.pairwise_cons.1 hsorted).1 t' hmem

theorem dueTask_eq_none {kinds : List TaskKind} {now : Stamp} (h : q.dueTask kinds now = none)
    (ht : t ∈ q.tasks) : ¬t.IsDue kinds now := by
  intro hdue
  have hmem := mem_due.2 ⟨ht, hdue⟩
  rw [List.head?_eq_none_iff.1 h] at hmem
  cases hmem

/-- A turn of the claim loop gives the task up and tells its rows. -/
structure GivenUp (q q' : Queue ρ) (t : Task) : Prop where
  mem : t ∈ q.tasks
  left : ∃ q₁, Written (q.put t.id Task.giveUp .expired) q₁ ∧
    q' = { q₁ with told := (t.expired, outcomeUnknown) :: q.told }

theorem expireTask_eq_ok (ht : t ∈ q.tasks) (h : q.expireTask handlers t = .ok q') :
    GivenUp q q' t := by
  simp only [expireTask, Queue.task, bind_eq_ok, orRaise_eq_ok] at h
  obtain ⟨row, hrow, h⟩ := h
  have hget : q.tasks.get? t.id = some t := Table.get?_key ht
  rw [get?_put, hget, Option.map_some, if_pos rfl, Option.some.injEq] at hrow
  subst hrow
  exact ⟨ht, tell_eq_ok h⟩

namespace GivenUp

theorem log (h : GivenUp q q' t) : ∃ new, q'.log = new ++ (t.id, .expired) :: q.log := by
  obtain ⟨q₁, hwritten, rfl⟩ := h.left
  exact hwritten.log

theorem told (h : GivenUp q q' t) : q'.told = (t.expired, outcomeUnknown) :: q.told := by
  obtain ⟨q₁, -, rfl⟩ := h.left
  rfl

/-- Another task that runs still does. -/
theorem mem_of_running (h : GivenUp q q' t) (ht' : t' ∈ q.tasks) (hstate : t'.state = .running)
    (hne : t'.id ≠ t.id) : t' ∈ q'.tasks := by
  obtain ⟨q₁, hwritten, rfl⟩ := h.left
  refine hwritten.mem_of_running ?_ hstate
  exact Table.mem_update_of_neg (Task.key_revised Task.giveUp) ht' hne

/-- One task less is spent. -/
theorem spent {kinds : List TaskKind} {now : Stamp} (h : GivenUp q q' t)
    (hspent : t.IsSpent kinds now) : q'.spent kinds now + 1 = q.spent kinds now := by
  obtain ⟨q₁, hwritten, rfl⟩ := h.left
  have hcount := hwritten.spent kinds now
  obtain ⟨before, after, hrows, hrows'⟩ := Table.rows_update_of_unique
    (p := fun t' : Task => t'.id = t.id) (Task.key_revised Task.giveUp) h.mem
    fun t' ht' => ⟨Table.eq_of_key ht' h.mem, fun heq => heq ▸ rfl⟩
  have hnot : ¬(t.revised Task.giveUp).IsSpent kinds now := fun hspent' =>
    TaskState.noConfusion hspent'.2.1
  calc q₁.spent kinds now + 1
      = (before ++ t.revised Task.giveUp :: after).countP (fun t => t.IsSpent kinds now) + 1 := by
        rw [hcount, ← hrows']
        rfl
    _ = (before ++ t :: after).countP fun t => t.IsSpent kinds now := by
        rw [List.countP_append, List.countP_append, List.countP_cons, List.countP_cons]
        simp only [hspent, hnot, decide_true, decide_false, if_true, Bool.false_eq_true, if_false]
        omega
    _ = q.spent kinds now := by
        rw [← hrows]
        rfl

theorem sound (h : GivenUp q q' t) (hstate : t.state = .running) (hq : Sound q) : Sound q' := by
  obtain ⟨q₁, hwritten, rfl⟩ := h.left
  have hlives := hq.lives t h.mem
  have hput : Sound (q.put t.id Task.giveUp .expired) := hq.put h.mem <|
    hlives.next ⟨_, (hlives.claimed_of_running hstate).1⟩ ⟨rfl, rfl⟩ hlives.counted
      hlives.bounded rfl fun r => Act.noConfusion
  have hsound := hwritten.sound hput
  exact ⟨hsound.lives, hsound.absent⟩

theorem toldOf (h : GivenUp q q' t) (hq : Told q) : Told q' := by
  intro t' ht' hhead
  rw [h.told]
  obtain ⟨q₁, hwritten, rfl⟩ := h.left
  rcases hwritten.row t'.id with ⟨hrow, hacts⟩ | ⟨-, _, act, earlier, -, -, hacts, hne⟩
  · have hget : q₁.tasks.get? t'.id = some t' := Table.get?_key ht'
    rw [hrow] at hget
    change (q₁.acts t'.id).head? = _ at hhead
    rw [hacts, acts_put] at hhead
    obtain ⟨t₀, ht₀, ⟨hid, rfl⟩ | ⟨hid, rfl⟩⟩ := mem_put (Table.get?_eq_some.1 hget).1
    · obtain rfl : t₀ = t := Table.eq_of_key ht₀ h.mem hid
      exact List.mem_cons_self
    · rw [if_neg (Ne.symm hid)] at hhead
      exact List.mem_cons_of_mem _ (hq t' ht₀ hhead)
  · change (q₁.acts t'.id).head? = _ at hhead
    rw [hacts] at hhead
    exact absurd (Option.some.inj hhead) hne

end GivenUp

/-- The last turn of the claim loop leases the task. -/
theorem leaseTask_eq_ok {nowValue : Civil} {leaseSeconds : ℕ} {answer : Option Task}
    (ht : t ∈ q.tasks) (h : q.leaseTask t nowValue leaseSeconds = .ok (q', answer)) :
    ∃ f : Task → Task, q' = q.put t.id f (.claimed (t.revision + 1)) ∧
      answer = some (t.revised f) ∧ (∀ t, (f t).state = .running ∧
        (f t).attempts = t.attempts + 1 ∧ (t.revised f).place = t.place) := by
  simp only [leaseTask, Queue.task, bind_eq_ok, orRaise_eq_ok, pure_eq_ok, Prod.mk.injEq] at h
  obtain ⟨lease, -, row, hrow, rfl, rfl⟩ := h
  have hget : q.tasks.get? t.id = some t := Table.get?_key ht
  rw [get?_put, hget, Option.map_some, if_pos rfl, Option.some.injEq] at hrow
  subst hrow
  exact ⟨_, rfl, rfl, fun _ => ⟨rfl, rfl, rfl⟩⟩

/-- A pending task, or one whose lease expired with an attempt left, is leased. -/
theorem Sound.lease {f : Task → Task} (hq : Sound q) (ht : t ∈ q.tasks)
    (hstate : t.state = .pending ∨ (t.state = .running ∧ t.attempts ≤ 3))
    (hf : (f t).state = .running ∧ (f t).attempts = t.attempts + 1) :
    Sound (q.put t.id f (.claimed (t.revision + 1))) := by
  have hlives := hq.lives t ht
  have hcounted := hlives.counted
  have hfree : (∃ act ∈ (q.acts t.id).head?, act.waits = true ∨ ∃ r, act = .claimed r) ∧
      t.attempts ≤ 3 := by
    rcases hstate with hstate | ⟨hstate, hle⟩
    · obtain ⟨⟨act, hact, hwaits⟩, hle⟩ := hlives.waits_of_pending hstate
      exact ⟨⟨act, hact, .inl hwaits⟩, hle⟩
    · exact ⟨⟨_, (hlives.claimed_of_running hstate).1, .inr ⟨_, rfl⟩⟩, hle⟩
  have hattempts : (t.revised f).attempts = t.attempts + 1 := hf.2
  refine hq.put ht (hlives.next ⟨hfree.1, fun r hr => ?_⟩ ⟨hf.1, rfl, ?_⟩ ?_ ?_ rfl ?_)
  · exact Nat.lt_succ_of_le (hlives.tokens r hr)
  · rw [hattempts]
    exact Nat.le_add_left 1 _
  · rw [hattempts]
    change t.attempts + 1 + releases (q.acts t.id) = claims (q.acts t.id) + 1
    omega
  · rw [hattempts]
    exact Nat.succ_le_succ hfree.2
  · rintro r ⟨⟩
    rfl

/-- What a claim does: it gives up the spent tasks that are older than the one it leases, or
all of them, and tells their rows. -/
structure Claimed (q q' : Queue ρ) (kinds : List TaskKind) (now : Stamp) (answer : Option Task) :
    Prop where
  log : ∃ new, q'.log = new ++ q.log ∧ ∀ t ∈ q.tasks, t.IsSpent kinds now →
    (∀ a ∈ answer, t.place ≤ a.place) → (t.id, .expired) ∈ new
  told : ∀ entry ∈ q.told, entry ∈ q'.told
  toldSpent : ∀ t ∈ q.tasks, t.IsSpent kinds now → (∀ a ∈ answer, t.place ≤ a.place) →
    (t.expired, outcomeUnknown) ∈ q'.told
  token : ∀ a ∈ answer, (q'.acts a.id).head? = some (.claimed a.revision)
  sound : Sound q → Sound q'
  toldOf : Told q → Told q'

/-- The claim loop, after enough turns or not. -/
theorem claimLoop_eq_ok {kinds : List TaskKind} {nowValue : Civil} {leaseSeconds fuel : ℕ}
    {answer : Option Task}
    (h : claimLoop handlers kinds nowValue leaseSeconds fuel q = some (.ok (q', answer))) :
    Claimed q q' kinds (formatRegistryTime nowValue) answer := by
  induction fuel generalizing q with
  | zero => cases h
  | succ fuel ih =>
      simp only [claimLoop] at h
      split at h
      · rename_i hnone
        simp only [Option.some.injEq, pure_eq_ok, Prod.mk.injEq] at h
        obtain ⟨rfl, rfl⟩ := h
        exact
          { log := ⟨[], rfl, fun t ht hspent => absurd hspent.1 (dueTask_eq_none hnone ht)⟩
            told := fun entry hentry => hentry
            toldSpent := fun t ht hspent => absurd hspent.1 (dueTask_eq_none hnone ht)
            token := by simp
            sound := id
            toldOf := id }
      · rename_i t hdue
        obtain ⟨ht, hisDue, holdest⟩ := dueTask_eq_some hdue
        split at h
        · -- the turn gives up the oldest task, the others are left to the turns to come
          rename_i hspent
          split at h
          · cases h
          · rename_i q₁ hexpire
            have hgiven := expireTask_eq_ok ht hexpire
            have hclaimed := ih h
            have hstill : ∀ t' ∈ q.tasks, t'.IsSpent kinds (formatRegistryTime nowValue) →
                t'.id ≠ t.id → t' ∈ q₁.tasks :=
              fun t' ht' hspent' hne => hgiven.mem_of_running ht' hspent'.2.1 hne
            obtain ⟨new₁, hnew₁⟩ := hgiven.log
            obtain ⟨new, hnew, hlogged⟩ := hclaimed.log
            refine
              { log := ⟨new ++ new₁ ++ [(t.id, .expired)], ?_, fun t' ht' hspent' holder => ?_⟩
                told := fun entry hentry => hclaimed.told entry ?_
                toldSpent := fun t' ht' hspent' holder => ?_
                token := hclaimed.token
                sound := fun hq => hclaimed.sound (hgiven.sound hspent.1 hq)
                toldOf := fun hq => hclaimed.toldOf (hgiven.toldOf hq) }
            · rw [hnew, hnew₁]
              simp
            · by_cases hid : t'.id = t.id
              · rw [hid]
                simp
              · have := hlogged t' (hstill t' ht' hspent' hid) hspent' holder
                simp [this]
            · rw [hgiven.told]
              exact List.mem_cons_of_mem _ hentry
            · by_cases hid : t'.id = t.id
              · obtain rfl : t' = t := Table.eq_of_key ht' ht hid
                refine hclaimed.told _ ?_
                rw [hgiven.told]
                exact List.mem_cons_self
              · exact hclaimed.toldSpent t' (hstill t' ht' hspent' hid) hspent' holder
        · rename_i hleft
          obtain ⟨f, rfl, rfl, hf⟩ := leaseTask_eq_ok ht (Option.some.inj h)
          -- a spent task is due, so it is younger than the task that is leased
          have hyounger : ∀ t' ∈ q.tasks, t'.IsSpent kinds (formatRegistryTime nowValue) →
              ¬∀ a ∈ some (t.revised f), t'.place ≤ a.place := by
            intro t' ht' hspent' holder
            have hle : t'.place ≤ t.place := (hf t).2.2 ▸ holder _ rfl
            have heq : t'.place = t.place := le_antisymm hle (holdest t' ht' hspent'.1)
            have hid : t'.id = t.id := congrArg (fun p => (ofLex p).2) heq
            obtain rfl : t' = t := Table.eq_of_key ht' ht hid
            exact hleft hspent'.2
          exact
            { log := ⟨[(t.id, .claimed (t.revision + 1))], rfl,
                fun t' ht' hspent' holder => absurd holder (hyounger t' ht' hspent')⟩
              told := fun entry hentry => hentry
              toldSpent := fun t' ht' hspent' holder => absurd holder (hyounger t' ht' hspent')
              token := by
                rintro a ⟨⟩
                rw [acts_put, if_pos (by rfl)]
                rfl
              sound := fun hq => by
                refine hq.lease ht ?_ ⟨(hf t).1, (hf t).2.1⟩
                rcases hisDue.2 with ⟨hstate, -⟩ | ⟨hstate, -⟩
                · exact .inl hstate
                · exact .inr ⟨hstate, not_lt.1 fun hlt => hleft ⟨hstate, hlt⟩⟩
              toldOf := fun hq => hq.put Act.noConfusion }

/-- More turns than there are spent tasks are turns enough, and further ones change nothing. -/
theorem claimLoop_of_spent_lt {kinds : List TaskKind} {nowValue : Civil} {leaseSeconds : ℕ}
    (bound : ℕ) (q : Queue ρ) (hspent : q.spent kinds (formatRegistryTime nowValue) ≤ bound) :
    ∃ outcome, ∀ fuel, bound < fuel →
      claimLoop handlers kinds nowValue leaseSeconds fuel q = some outcome := by
  -- it is enough to say what a loop with one turn more makes of the fuel that is left
  suffices hturn : ∃ outcome, ∀ fuel, bound ≤ fuel →
      claimLoop handlers kinds nowValue leaseSeconds (fuel + 1) q = some outcome by
    obtain ⟨outcome, houtcome⟩ := hturn
    refine ⟨outcome, fun fuel hfuel => ?_⟩
    obtain ⟨fuel, rfl⟩ := Nat.exists_eq_succ_of_ne_zero (Nat.zero_lt_of_lt hfuel).ne'
    exact houtcome fuel (Nat.le_of_lt_succ hfuel)
  induction bound using Nat.strong_induction_on generalizing q with
  | _ bound ih =>
      cases hdue : q.dueTask kinds (formatRegistryTime nowValue) with
      | none =>
          refine ⟨pure (q, none), fun fuel _ => ?_⟩
          simp only [claimLoop, hdue]
      | some t =>
          obtain ⟨ht, hisDue, -⟩ := dueTask_eq_some hdue
          by_cases hboth : t.state = .running ∧ retryBackoffSeconds.length < t.attempts
          · cases hexpire : q.expireTask handlers t with
            | error error =>
                refine ⟨.error error, fun fuel _ => ?_⟩
                simp only [claimLoop, hdue, if_pos hboth, hexpire]
            | ok q₁ =>
                have hless := (expireTask_eq_ok ht hexpire).spent ⟨hisDue, hboth⟩
                have hbound : 0 < bound := by omega
                obtain ⟨outcome, houtcome⟩ := ih (bound - 1) (by omega) q₁ (by omega)
                refine ⟨outcome, fun fuel hfuel => ?_⟩
                simp only [claimLoop, hdue, if_pos hboth, hexpire]
                obtain ⟨fuel, rfl⟩ := Nat.exists_eq_succ_of_ne_zero (hbound.trans_le hfuel).ne'
                exact houtcome fuel (Nat.sub_le_of_le_add hfuel)
          · refine ⟨q.leaseTask t nowValue leaseSeconds, fun fuel _ => ?_⟩
            simp only [claimLoop, hdue, if_neg hboth]

theorem claimTask_eq_ok {leaseSeconds : ℤ} {kinds : Option (List TaskKind)} {nowValue : Civil}
    {answer : Option Task}
    (h : q.claimTask handlers leaseSeconds kinds nowValue = .ok (q', answer)) :
    Claimed q q' (kinds.getD TaskKind.all) (formatRegistryTime nowValue) answer := by
  simp only [claimTask, bind_eq_ok, require_eq_ok] at h
  obtain ⟨-, -, -, -, h⟩ := h
  cases hloop : claimLoop handlers (kinds.getD TaskKind.all) nowValue leaseSeconds.toNat
      (q.tasks.rows.length + 1) q with
  | none =>
      rw [hloop, Option.getD_none, throw_eq_ok] at h
      exact h.elim
  | some outcome =>
      rw [hloop, Option.getD_some] at h
      subst h
      exact claimLoop_eq_ok hloop

/-! ## Runs -/

/-- A lease owner's command that commits records the end of a claim. -/
theorem perform_recorded {command : Command ρ} {id : ℕ} {token : ℤ} {answer : Option Task}
    (hlease : command.lease = some (id, token))
    (h : perform handlers q command = .ok (q', answer)) : Recorded q q' id token := by
  cases command with
  | claim => cases hlease
  | other => cases hlease
  | release =>
      cases hlease
      simp only [perform, bind_eq_ok, pure_eq_ok, Prod.mk.injEq] at h
      obtain ⟨_, hrelease, rfl, -⟩ := h
      exact releaseTask_recorded hrelease
  | complete =>
      cases hlease
      simp only [perform, bind_eq_ok, pure_eq_ok, Prod.mk.injEq] at h
      obtain ⟨_, hcomplete, rfl, -⟩ := h
      exact completeTask_recorded hcomplete
  | fail =>
      cases hlease
      simp only [perform, bind_eq_ok, pure_eq_ok, Prod.mk.injEq] at h
      obtain ⟨_, hfail, rfl, -⟩ := h
      exact failTask_recorded hfail
  | recordResult =>
      cases hlease
      simp only [perform, Queue.recordResult, bind_eq_ok, pure_eq_ok, Prod.mk.injEq] at h
      obtain ⟨_, ⟨t, hrunning, ⟨writes, rows, summary⟩, -, q₁, hwrites, hcomplete⟩, rfl, -⟩ := h
      have hwritten := (Written.withRows q rows).trans (writeAll_written hwrites)
      have hrecorded := completeTask_recorded hcomplete
      exact
        { owner := ⟨t, runningTask_eq_ok hrunning⟩
          sound := fun hq => hrecorded.sound (hwritten.sound hq)
          told := fun hq => hrecorded.told (hwritten.told_of hq) }
  | recordFailure id token category refund now =>
      cases hlease
      simp only [perform, Queue.recordFailure, bind_eq_ok, pure_eq_ok, Prod.mk.injEq] at h
      obtain ⟨⟨q₃, t₃⟩, ⟨⟨q₁, t⟩, hfail, q₂, htell, hrefund⟩, rfl, -⟩ := h
      have hrecorded := failTask_recorded hfail
      obtain ⟨q₄, hwritten, rfl⟩ := tell_eq_ok htell
      have hall := hrecorded.written hwritten
      have hrows : ∃ rows, q₃ = { q₄ with rows, told := (t, category) :: q₁.told } := by
        cases refund with
        | none =>
            simp only [pure_eq_ok, Prod.mk.injEq] at hrefund
            exact ⟨q₄.rows, hrefund.1.symm⟩
        | some refund =>
            simp only [bind_eq_ok, pure_eq_ok, Prod.mk.injEq] at hrefund
            obtain ⟨rows, -, heq, -⟩ := hrefund
            exact ⟨rows, heq.symm⟩
      obtain ⟨rows, rfl⟩ := hrows
      exact
        { owner := hall.owner
          sound := fun hq => ⟨(hall.sound hq).lives, (hall.sound hq).absent⟩
          told := fun hq t' ht' hhead =>
            List.mem_cons_of_mem _ (hwritten.told ▸ hall.told hq t' ht' hhead) }

theorem perform_kept {command : Command ρ} {answer : Option Task} (hq : Sound q ∧ Told q)
    (h : perform handlers q command = .ok (q', answer)) : Sound q' ∧ Told q' := by
  cases hlease : command.lease with
  | some lease =>
      have hrecorded := perform_recorded hlease h
      exact ⟨hrecorded.sound hq.1, hrecorded.told hq.2⟩
  | none =>
      cases command with
      | claim =>
          have hclaimed := claimTask_eq_ok h
          exact ⟨hclaimed.sound hq.1, hclaimed.toldOf hq.2⟩
      | other writes rows =>
          simp only [perform, bind_eq_ok, pure_eq_ok, Prod.mk.injEq] at h
          obtain ⟨_, hwrites, rfl, -⟩ := h
          have hwritten := (Written.withRows q rows).trans (writeAll_written hwrites)
          exact ⟨hwritten.sound hq.1, hwritten.told_of hq.2⟩
      | release => cases hlease
      | complete => cases hlease
      | fail => cases hlease
      | recordResult => cases hlease
      | recordFailure => cases hlease

theorem kept_of_history {rows : ρ} {events : List (Command ρ × Option Task)}
    (h : History (Step handlers) (Queue.new rows) events q) : Sound q ∧ Told q := by
  refine h.invariant (P := fun q => Sound q ∧ Told q) ?_ fun hq hstep => perform_kept hq hstep
  exact ⟨⟨fun t ht => absurd ht (Table.not_mem_empty t), fun _ _ => rfl⟩,
    fun t ht => absurd ht (Table.not_mem_empty t)⟩

/-- The acts on a task are in order, also on one without a row. -/
private theorem Sound.lawful (hq : Sound q) (id : ℕ) :
    Along (fun act earlier => act.Follows earlier ∧
      claims (act :: earlier) ≤ releases (act :: earlier) + 4) (q.acts id) := by
  cases hget : q.tasks.get? id with
  | none =>
      rw [hq.absent id hget]
      trivial
  | some t =>
      obtain ⟨ht, rfl⟩ := Table.get?_eq_some.1 hget
      exact (hq.lives t ht).lawful

/-- A record is made by the claim that last leased the task. -/
private theorem Sound.owner {command : Command ρ} {id : ℕ} {token : ℤ} {answer : Option Task}
    (hq : Sound q) (hlease : command.lease = some (id, token))
    (h : perform handlers q command = .ok (q', answer)) :
    ∃ r : ℕ, token = r ∧ (q.acts id).head? = some (.claimed r) := by
  obtain ⟨t, ht, rfl, rfl, hstate⟩ := (perform_recorded hlease h).owner
  exact ⟨t.revision, rfl, ((hq.lives t ht).claimed_of_running hstate).1⟩

/-- In every run of the queue: a task has at most four claims that were not released between two
resets; only the claim that last leased a task records its end, any other is refused; a task
that lost its fourth lease is failed, with its rows told, when a claim comes to it, and nothing
but a reset follows; and the loop of a claim ends, for every table. -/
theorem bounded_and_fenced {rows : ρ} {events : List (Command ρ × Option Task)}
    (h : History (Step handlers) (Queue.new rows) events q) :
    (∀ id earlier, earlier <:+ q.acts id → claims earlier ≤ releases earlier + 4) ∧
    (∀ t ∈ q.tasks, t.attempts + releases (q.acts t.id) = claims (q.acts t.id)) ∧
    (∀ (command : Command ρ) id token q' answer, command.lease = some (id, token) →
      perform handlers q command = .ok (q', answer) →
      ∃ r : ℕ, token = r ∧ (q.acts id).head? = some (.claimed r)) ∧
    (∀ (command : Command ρ) id (r : ℕ) later earlier, command.lease = some (id, (r : ℤ)) →
      q.acts id = later ++ .claimed r :: earlier → later ≠ [] →
      ∃ error, perform handlers q command = .error error) ∧
    (∀ leaseSeconds kinds now q' answer,
      perform handlers q (.claim leaseSeconds kinds now) = .ok (q', answer) →
      (∀ a ∈ answer, (q'.acts a.id).head? = some (.claimed a.revision)) ∧
      ∀ t ∈ q.tasks, t.state = .running → t.attempts = 4 →
        t.IsDue (kinds.getD TaskKind.all) (formatRegistryTime now) →
        (∀ a ∈ answer, t.place ≤ a.place) →
        (∃ new, q'.log = new ++ q.log ∧ (t.id, .expired) ∈ new) ∧
          (t.expired, outcomeUnknown) ∈ q'.told) ∧
    (∀ t ∈ q.tasks, (q.acts t.id).head? = some .expired →
      t.state = .failed ∧ t.lastError = some outcomeUnknown ∧ (t, outcomeUnknown) ∈ q.told) ∧
    (∀ id later act earlier, q.acts id = later ++ act :: .expired :: earlier → act = .reset) ∧
    (∀ (q : Queue ρ) kinds now leaseSeconds, ∃ outcome, ∀ fuel, q.tasks.rows.length < fuel →
      claimLoop handlers kinds now leaseSeconds fuel q = some outcome) := by
  obtain ⟨hsound, htold⟩ := kept_of_history h
  refine ⟨fun id earlier hsuffix => ?_, fun t ht => (hsound.lives t ht).counted,
    fun command id token q' answer hlease hperform => hsound.owner hlease hperform,
    fun command id r later earlier hlease hacts hlater => ?_,
    fun leaseSeconds kinds now q' answer hclaim => ?_, fun t ht hhead => ?_,
    fun id later act earlier hacts => ?_, fun q kinds now leaseSeconds => ?_⟩
  · obtain ⟨later, hlater⟩ := hsuffix
    cases earlier with
    | nil => exact Nat.zero_le _
    | cons act earlier => exact ((hsound.lawful id).at hlater.symm).2
  · cases hperform : perform handlers q command with
    | error error => exact ⟨error, rfl⟩
    | ok outcome =>
        -- the last claim has a greater token than this one
        obtain ⟨r', hr', hhead⟩ := hsound.owner hlease hperform
        obtain ⟨last, later, rfl⟩ := List.exists_cons_of_ne_nil hlater
        have hlawful := hsound.lawful id
        rw [hacts] at hlawful hhead
        obtain rfl : last = .claimed r' := Option.some.inj hhead
        have hlt : r < r' := hlawful.1.1.2 r (by simp)
        omega
  · have hclaimed := claimTask_eq_ok hclaim
    refine ⟨hclaimed.token, fun t ht hstate hattempts hdue holder => ?_⟩
    have hspent : t.IsSpent (kinds.getD TaskKind.all) (formatRegistryTime now) :=
      ⟨hdue, hstate, by rw [hattempts]; decide⟩
    obtain ⟨new, hnew, hlogged⟩ := hclaimed.log
    exact ⟨⟨new, hnew, hlogged t ht hspent holder⟩, hclaimed.toldSpent t ht hspent holder⟩
  · obtain ⟨act, earlier, hacts, hleaves⟩ := (hsound.lives t ht).last
    have hact : act = .expired := by
      rw [hacts] at hhead
      exact Option.some.inj hhead
    subst hact
    exact ⟨hleaves.1, hleaves.2, htold t ht hhead⟩
  · have hfollows := ((hsound.lawful id).at hacts).1
    cases act with
    | reset => rfl
    | created => cases hfollows
    | claimed r =>
        obtain ⟨⟨_, ⟨⟩, hwaits | ⟨_, ⟨⟩⟩⟩, -⟩ := hfollows
        cases hwaits
    | dropped =>
        obtain ⟨_, ⟨⟩, hwaits⟩ := hfollows
        cases hwaits
    | released => exact absurd (Option.some.inj hfollows.choose_spec) Act.noConfusion
    | completed => exact absurd (Option.some.inj hfollows.choose_spec) Act.noConfusion
    | backedOff => exact absurd (Option.some.inj hfollows.choose_spec) Act.noConfusion
    | failed => exact absurd (Option.some.inj hfollows.choose_spec) Act.noConfusion
    | expired => exact absurd (Option.some.inj hfollows.choose_spec) Act.noConfusion
  · exact claimLoop_of_spent_lt _ q List.countP_le_length

/-! ### A save that never comes back -/

/-- The `save` branch of `_xhs_apply_failure`, over the last error of each note: a task that
failed for good leaves its category with its note. -/
def lastErrors : Handlers (List (Text × Text)) where
  applyResult _ rows _ _ := pure ([], rows, "{}".toList)
  applyFailure _ rows task category :=
    pure ([], if task.state = .failed then (task.payload, category) :: rows else rows)
  refundUsage rows _ _ := pure rows

/-- Noon, so many days after the first of the month. -/
def noonAfter (days : ℕ) : Civil := noonOf (days % 5 + 1) ⟨by omega, by omega⟩

/-- A save is queued, and each noon the lease of the day before has run out. -/
def fiveNoons : List (Command (List (Text × Text))) :=
  [.claim 60 none (noonAfter 4), .claim 60 none (noonAfter 3), .claim 60 none (noonAfter 2),
    .claim 60 none (noonAfter 1), .claim 60 none (noonAfter 0),
    .other [.create 1 .save "save:7:1".toList "7".toList
      (formatRegistryTime (noonAfter 0))] []]

def unsaved : List (Command (List (Text × Text)) × Option Task) × Queue (List (Text × Text)) :=
  runCalls (perform lastErrors) (Queue.new []) fiveNoons

set_option maxRecDepth 8000 in
theorem bounded_and_fenced_unsaved :
    unsaved.2.acts 1 = [.expired, .claimed 4, .claimed 3, .claimed 2, .claimed 1, .created] ∧
      unsaved.2.rows = [("7".toList, outcomeUnknown)] ∧
      ∀ id earlier, earlier <:+ unsaved.2.acts id → claims earlier ≤ releases earlier + 4 :=
  ⟨by decide, by decide, (bounded_and_fenced (history_runCalls _ _ fiveNoons)).1⟩

end Cortex.Feed
