import Cortex.Fallback.Commands

/-!
# What a start keeps

A start takes only inputs that no earlier run took, so an input still has at most
one item whose model call counts; and it happens only when no run is running and a
week has passed since every start on record.
-/

namespace Cortex.Fallback

open Control Time Transaction

variable {Digest : Type} [DecidableEq Digest] {platform : Platform Digest}
  {begun released : List (ℕ × Digest)} {t t' : Tables Digest}

/-! ## The spacing of starts -/

/-- Seven days in microseconds. -/
def weekMicros : ℕ := runSpacingSeconds * 1000000

private theorem lastStarted_spec (rows : List Run) :
    (lastStarted rows = none → rows = []) ∧
      ∀ last, lastStarted rows = some last → ∀ run ∈ rows,
        run.startedAt.micros ≤ last.startedAt.micros := by
  induction rows with
  | nil => exact ⟨fun _ => rfl, by simp [lastStarted]⟩
  | cons run rest ih =>
      unfold lastStarted
      split
      · rename_i hnone
        refine ⟨by simp, fun last hlast r hr => ?_⟩
        rw [ih.1 hnone] at hr
        obtain rfl : r = run := by simpa using hr
        rw [Option.some.inj hlast]
      · rename_i last hlast
        have hrest := ih.2 last hlast
        split
        · rename_i hbefore
          refine ⟨by simp, fun last' hlast' r hr => ?_⟩
          obtain rfl : last = last' := Option.some.inj hlast'
          rcases List.mem_cons.1 hr with rfl | hr
          · rcases hbefore with hlt | ⟨heq, -⟩
            · exact le_of_lt ((formatRegistryTime_lt _ _).1 hlt)
            · exact le_of_eq heq
          · exact hrest r hr
        · rename_i hafter
          refine ⟨by simp, fun last' hlast' r hr => ?_⟩
          obtain rfl : run = last' := Option.some.inj hlast'
          have hle : last.startedAt.micros ≤ run.startedAt.micros := by
            by_contra hlt
            exact hafter (.inl ((formatRegistryTime_lt _ _).2 (not_le.1 hlt)))
          rcases List.mem_cons.1 hr with rfl | hr
          · exact le_rfl
          · exact (hrest r hr).trans hle

omit [DecidableEq Digest] in
/-- No refusal: a week has passed since every start on record, and no run is running. -/
private theorem startRefusal_eq_none {now : Civil} (h : startRefusal t now = .ok none) :
    (∀ run ∈ t.runs, run.startedAt.micros + weekMicros ≤ now.micros) ∧
      ∀ run ∈ t.runs, run.state ≠ .running := by
  unfold startRefusal at h
  obtain ⟨hempty, hlast⟩ := lastStarted_spec t.runs.rows
  split at h
  · rename_i hnone
    have hrows := hempty hnone
    refine ⟨fun run hrun => ?_, fun run hrun => ?_⟩
    · rw [Table.mem_def, hrows] at hrun
      cases hrun
    · rw [Table.mem_def, hrows] at hrun
      cases hrun
  · rename_i last hsome
    simp only [bind_eq_ok, orRaise_eq_ok] at h
    obtain ⟨next, hnext, h⟩ := h
    split at h
    · simp [pure_eq_ok] at h
    · rename_i hidle
      have hnotSoon : ¬now.micros < next.micros := by
        intro hsoon
        rw [if_pos hsoon] at h
        cases h
      refine ⟨fun run hrun => ?_, fun run hrun hrunning => hidle ⟨run, hrun, hrunning⟩⟩
      calc run.startedAt.micros + weekMicros
          ≤ last.startedAt.micros + weekMicros :=
            Nat.add_le_add_right (hlast last hsome run hrun) weekMicros
        _ = next.micros := (Civil.micros_addSeconds hnext).symm
        _ ≤ now.micros := not_lt.1 hnotSoon

/-! ## The items of a new run -/

theorem ItemsKept.inserted {readings : Readings} {runId ordinal : ℕ} {now : Stamp}
    {selected : List (Recommendation × Digest)} {items : Table (Item Digest)}
    (hkept : ItemsKept begun released t) (hrun : ∃ run ∈ t.runs, run.id = runId)
    (hfree : ∀ p ∈ selected, ∀ i ∈ t.items, i.input = (p.1.id, p.2) → i.TakesInput →
      i.runId = runId)
    (h : insertItems readings runId now ordinal selected t.items = .ok items) :
    ItemsKept begun released { t with items } ∧
      (∀ i ∈ items, i ∈ t.items ∨ i.runId = runId ∧ i.state.isOpen = true) ∧
      (∀ i ∈ t.items, i ∈ items) ∧
      (selected ≠ [] → ∃ i ∈ items, i.runId = runId ∧ i.state.isOpen = true) := by
  induction selected generalizing ordinal t with
  | nil =>
      simp only [insertItems, pure_eq_ok] at h
      subst h
      exact ⟨⟨hkept.checked, hkept.shaped, hkept.paid, hkept.once, hkept.owned⟩,
        fun i hi => .inl hi, fun i hi => hi, fun hne => absurd rfl hne⟩
  | cons entry rest ih =>
      obtain ⟨r, digest⟩ := entry
      simp only [insertItems, bind_eq_ok, require_eq_ok, orRaise_eq_ok] at h
      obtain ⟨-, hunique, items₁, hinsert, h⟩ := h
      obtain ⟨hrows, -⟩ := Table.rows_insert hinsert
      have hmem : ∀ {i}, i ∈ items₁ ↔ i ∈ t.items ∨ i = newItem readings runId ordinal r digest now :=
        Table.mem_insert hinsert
      have hcount : ∀ (P : Item Digest → Prop) [DecidablePred P] (k : ℕ × Digest),
          countItems { t with items := items₁ } P k = countItems t P k +
            if (r.id, digest) = k ∧ P (newItem readings runId ordinal r digest now) then 1 else 0 := by
        intro P _ k
        simp only [countItems, hrows, List.countP_append, List.countP_cons, List.countP_nil,
          decide_eq_true_eq, Nat.zero_add]
        rfl
      have hkept₁ : ItemsKept begun released { t with items := items₁ } := by
        refine ⟨fun i hi => ?_, fun i hi => ?_, fun k => ?_, fun k => ?_, fun i hi => ?_⟩
        · rcases hmem.1 hi with hi | rfl
          · exact hkept.checked i hi
          · simp [Item.Check, newItem]
        · rcases hmem.1 hi with hi | rfl
          · exact hkept.shaped i hi
          · simp [newItem]
        · rw [hcount, hkept.paid k]
          simp [newItem, Item.IsCalled]
        · rw [hcount]
          by_cases hk : k = (r.id, digest)
          · -- no item of the input takes it, in this run or in another
            have hzero : countItems t Item.TakesInput k = 0 := by
              refine List.countP_eq_zero.2 fun i hi hboth => ?_
              obtain ⟨hinput, htakes⟩ := of_decide_eq_true hboth
              have hsame := hfree _ List.mem_cons_self i hi (hinput.trans hk) htakes
              refine (hunique i hi hsame).1 ?_
              exact congrArg Prod.fst (hinput.trans hk)
            rw [hzero]
            split
            · exact le_rfl
            · exact Nat.zero_le _
          · rw [if_neg fun h => hk h.1.symm]
            exact hkept.once k
        · rcases hmem.1 hi with hi | rfl
          · exact hkept.owned i hi
          · exact hrun
      have hfree₁ : ∀ p ∈ rest, ∀ i ∈ items₁, i.input = (p.1.id, p.2) → i.TakesInput →
          i.runId = runId := by
        intro p hp i hi hinput htakes
        rcases hmem.1 hi with hi | rfl
        · exact hfree p (List.mem_cons_of_mem _ hp) i hi hinput htakes
        · rfl
      obtain ⟨hkept', hnew, hold, -⟩ := ih hkept₁ hrun hfree₁ h
      refine ⟨hkept', fun i hi => ?_, fun i hi => hold i (hmem.2 (.inl hi)),
        fun _ => ⟨_, hold _ (hmem.2 (.inr rfl)), rfl, rfl⟩⟩
      rcases hnew i hi with hi | hi
      · rcases hmem.1 hi with hi | rfl
        · exact .inl hi
        · exact .inr ⟨rfl, rfl⟩
      · exact .inr hi

/-- What a run selects was not taken by an earlier run. -/
private theorem fallbackSelection_free {cap reviewed : ℕ} {candidates : List Recommendation}
    {selected : List (Recommendation × Digest)}
    (h : fallbackSelection platform t cap candidates = .ok (selected, reviewed)) :
    ∀ p ∈ selected, ¬IsTaken t p.1.id p.2 := by
  induction candidates generalizing cap selected reviewed with
  | nil =>
      simp only [fallbackSelection, pure_eq_ok, Prod.mk.injEq] at h
      obtain ⟨rfl, -⟩ := h
      simp
  | cons r rest ih =>
      simp only [fallbackSelection, bind_eq_ok] at h
      obtain ⟨digest, -, h⟩ := h
      split at h
      · simp only [bind_eq_ok, pure_eq_ok, Prod.mk.injEq] at h
        obtain ⟨⟨selected', reviewed'⟩, hrest, rfl, -⟩ := h
        exact ih hrest
      · rename_i hfree
        cases cap with
        | zero => exact ih h
        | succ cap =>
            simp only [bind_eq_ok, pure_eq_ok, Prod.mk.injEq] at h
            obtain ⟨⟨selected', reviewed'⟩, hrest, rfl, -⟩ := h
            intro p hp
            rcases List.mem_cons.1 hp with rfl | hp
            · exact hfree
            · exact ih hrest p hp

theorem Kept.library (hkept : Kept begun released t) (library : Library) :
    Kept begun released { t with library } :=
  ⟨⟨hkept.items.checked, hkept.items.shaped, hkept.items.paid, hkept.items.once,
    hkept.items.owned⟩, ⟨hkept.runs.completed, hkept.runs.running⟩⟩

/-- A start creates no run, or one whose items are kept and which starts a week after every
other, as the clock read when the start was decided. -/
theorem startRun_eq_ok {readings : Readings} {trigger : Trigger} {itemCap : ℤ}
    {model effort : Text} {answer : StartAnswer} (hkept : Kept begun released t)
    (h : startRun platform t readings trigger itemCap model effort = .ok (t', answer)) :
    Kept begun released t' ∧
      ((t'.runs = t.runs ∧ answer.run = none) ∨
        ∃ run, answer.run = some run ∧ run.startedAt = readings.clock 2 ∧
          (∀ r ∈ t'.runs, r ∈ t.runs ∨ r = run) ∧
          ∀ r ∈ t.runs, r.startedAt.micros + weekMicros ≤ (readings.clock 0).micros) := by
  simp only [startRun, bind_eq_ok] at h
  obtain ⟨-, -, _, -, -, -, refusal, hrefusal, h⟩ := h
  cases refusal with
  | some refusal =>
      simp only [pure_eq_ok, Prod.mk.injEq] at h
      obtain ⟨rfl, rfl⟩ := h
      exact ⟨hkept, .inl ⟨rfl, rfl⟩⟩
  | none =>
      obtain ⟨hspaced, hidle⟩ := startRefusal_eq_none hrefusal
      simp only [bind_eq_ok] at h
      obtain ⟨library, -, ⟨selected, reviewed⟩, hselected, h⟩ := h
      have hkept := hkept.library library
      split at h
      · simp only [pure_eq_ok, Prod.mk.injEq] at h
        obtain ⟨rfl, rfl⟩ := h
        exact ⟨hkept, .inl ⟨rfl, rfl⟩⟩
      · rename_i hsome
        simp only [bind_eq_ok, require_eq_ok, orRaise_eq_ok, pure_eq_ok, Prod.mk.injEq] at h
        obtain ⟨-, -, runs, hruns, items, hitems, rfl, rfl⟩ := h
        have hmem : ∀ {r}, r ∈ runs ↔ r ∈ t.runs ∨ r = _ := Table.mem_insert hruns
        have hfresh : ∀ r ∈ t.runs, r.id ≠ readings.newId 0 := (Table.rows_insert hruns).2
        have hkept₁ : ItemsKept begun released { t with library, runs } :=
          ⟨hkept.items.checked, hkept.items.shaped, hkept.items.paid, hkept.items.once,
            fun i hi => by
              obtain ⟨r, hr, hid⟩ := hkept.items.owned i hi
              exact ⟨r, hmem.2 (.inl hr), hid⟩⟩
        obtain ⟨hkept', hnew, hold, hopen⟩ := hkept₁.inserted (by exact ⟨_, hmem.2 (.inr rfl), rfl⟩)
          (fun p hp i hi hinput htakes => absurd ⟨i, hi, congrArg Prod.fst hinput,
            congrArg Prod.snd hinput, htakes⟩ (fallbackSelection_free hselected p hp)) hitems
        refine ⟨⟨hkept', ?_, ?_⟩, .inr ⟨_, rfl, rfl, fun r hr => hmem.1 hr, hspaced⟩⟩
        · intro r hr
          rcases hmem.1 hr with hr | rfl
          · rw [hkept.runs.completed r hr]
            constructor
            · intro hclosed i hi hid
              rcases hnew i hi with hi | ⟨hrunId, -⟩
              · exact hclosed i hi hid
              · exact absurd (hid.symm.trans hrunId) (hfresh r hr)
            · intro hclosed i hi hid
              exact hclosed i (hold i hi) hid
          · obtain ⟨i, hi, hid, hisOpen⟩ := hopen hsome
            constructor
            · intro hcompleted
              cases hcompleted
            · intro hclosed
              rw [hclosed i hi hid] at hisOpen
              cases hisOpen
        · intro r hr r' hr' hrunning hrunning'
          rcases hmem.1 hr with hr | rfl
          · exact absurd hrunning (hidle r hr)
          · rcases hmem.1 hr' with hr' | rfl
            · exact absurd hrunning' (hidle r' hr')
            · rfl

end Cortex.Fallback
