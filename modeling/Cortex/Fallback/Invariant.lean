import Cortex.Fallback.Runs

/-!
# What the items and runs of the fallback keep

Every command replaces items one at a time.  `ItemsKept` says, of the items, that
an input has at most one item whose model call counts, and that the calls begun
are those released and those that an item still accounts for; `RunsKept` says
when a run is running or completed.  Both are proved for one replacement and
carried through the commands from there.
-/

namespace Cortex.Fallback

open Control Time Transaction

variable {Digest : Type} [DecidableEq Digest] {platform : Platform Digest}

/-- The input that an item is about. -/
def Item.input (i : Item Digest) : ℕ × Digest := (i.recommendationId, i.inputSha256)

/-- The model call of the item may have been made. -/
def Item.IsCalled (i : Item Digest) : Prop := i.callState ≠ .notStarted

/-- The item keeps a later run from taking its input. -/
def Item.TakesInput (i : Item Digest) : Prop := ¬(i.state = .stale ∧ i.callState = .notStarted)

omit [DecidableEq Digest] in
instance (i : Item Digest) : Decidable i.IsCalled := by unfold Item.IsCalled; infer_instance

omit [DecidableEq Digest] in
instance (i : Item Digest) : Decidable i.TakesInput := by unfold Item.TakesInput; infer_instance

/-- The items of an input with a property. -/
def countItems (t : Tables Digest) (P : Item Digest → Prop) [DecidablePred P] (k : ℕ × Digest) :
    ℕ :=
  t.items.rows.countP fun i => i.input = k ∧ P i

structure ItemsKept (begun released : List (ℕ × Digest)) (t : Tables Digest) : Prop where
  checked : ∀ i ∈ t.items, i.Check
  shaped : ∀ i ∈ t.items, i.state = .deciding → i.callState ≠ .finished
  paid : ∀ k, begun.count k = released.count k + countItems t Item.IsCalled k
  once : ∀ k, countItems t Item.TakesInput k ≤ 1
  owned : ∀ i ∈ t.items, ∃ run ∈ t.runs, run.id = i.runId

structure RunsKept (t : Tables Digest) : Prop where
  completed : ∀ run ∈ t.runs, run.state = .completed ↔
    ∀ i ∈ t.items, i.runId = run.id → i.state.isOpen = false
  running : ∀ run ∈ t.runs, ∀ run' ∈ t.runs, run.state = .running → run'.state = .running →
    run = run'

/-! ## One replacement -/

/-- The table of items with one row replaced in its place, and nothing else of the runs. -/
structure Replaced (t t' : Tables Digest) (old new : Item Digest) : Prop where
  rows : ∃ before after, t.items.rows = before ++ old :: after ∧
    t'.items.rows = before ++ new :: after
  runs : t'.runs = t.runs

/-- What every replacement of an item keeps; an item that has ended is never replaced. -/
structure Turn (old new : Item Digest) : Prop where
  runId : new.runId = old.runId
  input : new.input = old.input
  fromOpen : old.state.isOpen = true
  checked : new.Check
  shaped : new.state = .deciding → new.callState ≠ .finished

/-- The call that an item accounts for. -/
def Item.owes (i : Item Digest) (k : ℕ × Digest) : ℕ := if i.input = k ∧ i.IsCalled then 1 else 0

section Replacement

variable {begun released begun' released' : List (ℕ × Digest)} {t t' : Tables Digest}
  {old new : Item Digest}

omit [DecidableEq Digest] in
private theorem Replaced.old_mem (h : Replaced t t' old new) : old ∈ t.items := by
  obtain ⟨before, after, hrows, -⟩ := h.rows
  rw [Table.mem_def, hrows]
  exact List.mem_append_right _ List.mem_cons_self

omit [DecidableEq Digest] in
theorem Replaced.mem (h : Replaced t t' old new) {i : Item Digest} (hi : i ∈ t'.items) :
    i = new ∨ i ∈ t.items := by
  obtain ⟨before, after, hrows, hrows'⟩ := h.rows
  rw [Table.mem_def, hrows'] at hi
  rw [Table.mem_def, hrows]
  simp only [List.mem_append, List.mem_cons] at hi ⊢
  rcases hi with hi | rfl | hi
  · exact .inr (.inl hi)
  · exact .inl rfl
  · exact .inr (.inr (.inr hi))

omit [DecidableEq Digest] in
theorem Replaced.mem_of_ne (h : Replaced t t' old new) {i : Item Digest} (hi : i ∈ t.items)
    (hne : i ≠ old) : i ∈ t'.items := by
  obtain ⟨before, after, hrows, hrows'⟩ := h.rows
  rw [Table.mem_def, hrows] at hi
  rw [Table.mem_def, hrows']
  simp only [List.mem_append, List.mem_cons] at hi ⊢
  rcases hi with hi | rfl | hi
  · exact .inl hi
  · exact absurd rfl hne
  · exact .inr (.inr hi)

omit [DecidableEq Digest] in
theorem Replaced.new_mem (h : Replaced t t' old new) : new ∈ t'.items := by
  obtain ⟨before, after, -, hrows'⟩ := h.rows
  rw [Table.mem_def, hrows']
  exact List.mem_append_right _ List.mem_cons_self

theorem Replaced.countItems (h : Replaced t t' old new) (P : Item Digest → Prop)
    [DecidablePred P] (k : ℕ × Digest) :
    countItems t' P k + (if old.input = k ∧ P old then 1 else 0) =
      countItems t P k + (if new.input = k ∧ P new then 1 else 0) := by
  obtain ⟨before, after, hrows, hrows'⟩ := h.rows
  simp only [Fallback.countItems, hrows, hrows', List.countP_append, List.countP_cons,
    decide_eq_true_eq]
  omega

theorem ItemsKept.replaced (hkept : ItemsKept begun released t) (h : Replaced t t' old new)
    (hturn : Turn old new)
    (hbalance : ∀ k, begun'.count k + released.count k + old.owes k =
      begun.count k + released'.count k + new.owes k) : ItemsKept begun' released' t' where
  checked i hi := by
    rcases h.mem hi with rfl | hi
    · exact hturn.checked
    · exact hkept.checked i hi
  shaped i hi := by
    rcases h.mem hi with rfl | hi
    · exact hturn.shaped
    · exact hkept.shaped i hi
  paid k := by
    have hcount := h.countItems Item.IsCalled k
    have hpaid := hkept.paid k
    have hbalance := hbalance k
    simp only [Item.owes] at hbalance
    omega
  once k := by
    -- the old item was open, so it took the input already
    have hcount := h.countItems Item.TakesInput k
    have honce := hkept.once k
    have hopen : old.TakesInput := by
      rintro ⟨hstale, -⟩
      have hfrom := hturn.fromOpen
      rw [hstale] at hfrom
      cases hfrom
    rw [hturn.input] at hcount
    by_cases hk : old.input = k
    · simp only [hk, hopen, and_self, if_true, true_and] at hcount
      split at hcount <;> omega
    · simp only [hk, false_and, if_false] at hcount
      omega
  owned i hi := by
    rw [h.runs]
    rcases h.mem hi with rfl | hi
    · rw [hturn.runId]
      exact hkept.owned old h.old_mem
    · exact hkept.owned i hi

omit [DecidableEq Digest] in
/-- A run with an open item is running. -/
private theorem RunsKept.running_of_open (hruns : RunsKept t) {run : Run} (hrun : run ∈ t.runs)
    {i : Item Digest} (hi : i ∈ t.items) (hid : i.runId = run.id) (hopen : i.state.isOpen = true) :
    run.state = .running := by
  cases hstate : run.state with
  | running => rfl
  | completed =>
      have hclosed := (hruns.completed run hrun).1 hstate i hi hid
      rw [hopen] at hclosed
      cases hclosed

omit [DecidableEq Digest] in
/-- An item that stays open leaves its run as it is. -/
theorem RunsKept.replaced (hruns : RunsKept t) (h : Replaced t t' old new) (hturn : Turn old new)
    (hopen : new.state.isOpen = true) : RunsKept t' where
  completed run hrun := by
    rw [h.runs] at hrun
    rw [hruns.completed run hrun]
    constructor
    · intro hclosed i hi hid
      rcases h.mem hi with rfl | hi
      · have := hclosed old h.old_mem (hturn.runId.symm.trans hid)
        rw [hturn.fromOpen] at this
        cases this
      · exact hclosed i hi hid
    · intro hclosed i hi hid
      by_cases hi' : i = old
      · have := hclosed new h.new_mem (hturn.runId.trans (hi' ▸ hid))
        rw [hopen] at this
        cases this
      · exact hclosed i (h.mem_of_ne hi hi') hid
  running := by
    rw [h.runs]
    exact hruns.running

omit [DecidableEq Digest] in
/-- What `_xhs_fallback_maybe_complete` does to the tables. -/
theorem maybeComplete_eq_ok {runId : ℕ} {now : Stamp} (h : maybeComplete t runId now = .ok t') :
    t'.items = t.items ∧ t'.library = t.library ∧ t'.usage = t.usage ∧
      ((t' = t ∧ (∃ i ∈ t.items, i.runId = runId ∧ i.state.isOpen = true)) ∨
        (∀ i ∈ t.items, i.runId = runId → i.state.isOpen = false) ∧
          ∃ run ∈ t.runs, run.id = runId ∧ ((run.state ≠ .running ∧ t' = t) ∨
            ∃ f : Run → Run, ∃ hf, t'.runs = t.runs.update (fun r => r.id = runId) f hf ∧
              ∀ r, (f r).state = .completed ∧ (f r).startedAt = r.startedAt)) := by
  unfold maybeComplete at h
  split at h
  · rename_i hopen
    simp only [pure_eq_ok] at h
    subst h
    exact ⟨rfl, rfl, rfl, .inl ⟨rfl, hopen⟩⟩
  · rename_i hclosed
    simp only [bind_eq_ok, orRaise_eq_ok] at h
    obtain ⟨run, hrun, h⟩ := h
    obtain ⟨hrun, hid⟩ := Table.get?_eq_some.1 hrun
    have hended : ∀ i ∈ t.items, i.runId = runId → i.state.isOpen = false := by
      intro i hi hid
      rw [← Bool.not_eq_true]
      exact fun hopen => hclosed ⟨i, hi, hid, hopen⟩
    split at h
    · rename_i hstate
      simp only [pure_eq_ok] at h
      subst h
      exact ⟨rfl, rfl, rfl, .inr ⟨hended, run, hrun, hid, .inl ⟨hstate, rfl⟩⟩⟩
    · simp only [pure_eq_ok] at h
      subst h
      refine ⟨rfl, rfl, rfl, .inr ⟨hended, run, hrun, hid, .inr ⟨_, ?_, rfl, fun r => ⟨rfl, rfl⟩⟩⟩⟩
      exact fun _ => rfl

theorem ItemsKept.maybeComplete {runId : ℕ} {now : Stamp} (hkept : ItemsKept begun released t)
    (h : maybeComplete t runId now = .ok t') : ItemsKept begun released t' := by
  obtain ⟨hitems, -, -, hruns⟩ := maybeComplete_eq_ok h
  have hcount : ∀ P : Item Digest → Prop, ∀ [DecidablePred P], ∀ k,
      Fallback.countItems t' P k = Fallback.countItems t P k := by
    intro P _ k
    rw [Fallback.countItems, Fallback.countItems, hitems]
  refine ⟨hitems ▸ hkept.checked, hitems ▸ hkept.shaped, fun k => ?_, fun k => ?_, ?_⟩
  · rw [hcount]
    exact hkept.paid k
  · rw [hcount]
    exact hkept.once k
  · rw [hitems]
    intro i hi
    obtain ⟨run, hrun, hid⟩ := hkept.owned i hi
    rcases hruns with ⟨rfl, -⟩ | ⟨-, _, -, -, ⟨-, rfl⟩ | ⟨f, hf, heq, -⟩⟩
    · exact ⟨run, hrun, hid⟩
    · exact ⟨run, hrun, hid⟩
    · rw [heq]
      by_cases hrunId : run.id = runId
      · exact ⟨f run, Table.mem_update.2 ⟨run, hrun, if_pos hrunId⟩, (hf run).trans hid⟩
      · exact ⟨run, Table.mem_update.2 ⟨run, hrun, if_neg hrunId⟩, hid⟩

/-- The end of an item completes its run if it was the last. -/
theorem RunsKept.ended {t₁ : Tables Digest} {now : Stamp} (hkept : ItemsKept begun released t)
    (hruns : RunsKept t) (h : Replaced t t₁ old new) (hturn : Turn old new)
    (hclosed : new.state.isOpen = false) (hcomplete : maybeComplete t₁ new.runId now = .ok t') :
    RunsKept t' := by
  obtain ⟨hitems, -, -, hcases⟩ := maybeComplete_eq_ok hcomplete
  obtain ⟨run, hrun, hid⟩ := hkept.owned old h.old_mem
  have hrunning := hruns.running_of_open hrun h.old_mem hid.symm hturn.fromOpen
  have hother : ∀ r ∈ t.runs, r ≠ run → (r.state = .completed ↔
      ∀ i ∈ t'.items, i.runId = r.id → i.state.isOpen = false) := by
    intro r hr hne
    have hids : r.id ≠ run.id := fun heq => hne (Table.eq_of_key hr hrun heq)
    rw [hruns.completed r hr, hitems]
    constructor
    · intro hended i hi hid'
      rcases h.mem hi with rfl | hi
      · exact hclosed
      · exact hended i hi hid'
    · intro hended i hi hid'
      refine hended i (h.mem_of_ne hi ?_) hid'
      rintro rfl
      exact hids (hid'.symm.trans hid.symm)
  rcases hcases with ⟨rfl, i, hi, hid', hopen⟩ | ⟨hended, run', hrun', hid', hcases⟩
  · refine ⟨fun r hr => ?_, by rw [h.runs]; exact hruns.running⟩
    rw [h.runs] at hr
    by_cases hr' : r = run
    · subst hr'
      constructor
      · intro hcompleted
        rw [hrunning] at hcompleted
        cases hcompleted
      · intro hclosed'
        rw [hclosed' i hi (hid'.trans (hturn.runId.trans hid.symm))] at hopen
        cases hopen
    · exact hother r hr hr'
  · have hsame : run' = run := by
      refine Table.eq_of_key (h.runs ▸ hrun') hrun ?_
      exact hid'.trans (hturn.runId.trans hid.symm)
    subst hsame
    rcases hcases with ⟨hstate, -⟩ | ⟨f, hf, heq, hf'⟩
    · exact absurd hrunning hstate
    · have hmem : ∀ r ∈ t'.runs, (r ∈ t.runs ∧ r ≠ run') ∨
          (r.state = .completed ∧ r.id = new.runId) := by
        intro r hr
        rw [heq, h.runs] at hr
        obtain ⟨r₀, hr₀, hr⟩ := Table.mem_update.1 hr
        split at hr
        · rename_i hr₀id
          subst hr
          exact .inr ⟨(hf' r₀).1, (hf r₀).trans hr₀id⟩
        · rename_i hr₀id
          subst hr
          refine .inl ⟨hr₀, ?_⟩
          rintro rfl
          exact hr₀id hid'
      refine ⟨fun r hr => ?_, fun r hr r' hr' hrun hrun' => ?_⟩
      · rcases hmem r hr with ⟨hr, hne⟩ | ⟨hstate, hrid⟩
        · exact hother r hr hne
        · rw [hstate, hrid, hitems]
          exact iff_of_true rfl hended
      · rcases hmem r hr with ⟨hr, -⟩ | ⟨hstate, -⟩
        · rcases hmem r' hr' with ⟨hr', -⟩ | ⟨hstate', -⟩
          · exact hruns.running r hr r' hr' hrun hrun'
          · rw [hstate'] at hrun'
            cases hrun'
        · rw [hstate] at hrun
          cases hrun

end Replacement

end Cortex.Fallback
