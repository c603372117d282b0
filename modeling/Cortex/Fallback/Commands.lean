import Cortex.Fallback.Invariant
import Mathlib.Logic.Relation

/-!
# What the commands on the items keep

Each command on an item is taken apart into the one row it replaces.  `Decides`
says what a single decision does to the tables; a claim may decide several items
before it leases one, so a command is a chain of decisions.
-/

namespace Cortex.Fallback

open Control Time Transaction Relation

variable {Digest : Type} [DecidableEq Digest] {platform : Platform Digest}
  {begun released : List (ℕ × Digest)} {t t' : Tables Digest} {old item new : Item Digest}

structure Kept (begun released : List (ℕ × Digest)) (t : Tables Digest) : Prop where
  items : ItemsKept begun released t
  runs : RunsKept t

/-- The runs on record started when they did. -/
def SameStarts (t t' : Tables Digest) : Prop :=
  ∀ run' ∈ t'.runs, ∃ run ∈ t.runs, run.id = run'.id ∧ run.startedAt = run'.startedAt

/-- The other items are as they were, and nothing is counted or refunded. -/
structure OthersKept (t t' : Tables Digest) (item : Item Digest) : Prop where
  items : ∀ i ∈ t.items, i.id ≠ item.id → i ∈ t'.items
  usage : t'.usage = t.usage
  starts : SameStarts t t'

/-- One decision: it is applied to a recommendation that is still as the run selected it, or
the item becomes stale and the library stays as it is. -/
inductive Decides (platform : Platform Digest) (t t' : Tables Digest) : Prop
  | applied {item : Item Digest} {decision : Decision} {applied : Applied} {now : Stamp} :
      item ∈ t.items → isCurrent platform t item = .ok true →
      fallbackEffect platform t.library item.recommendationId item.runId decision now =
        .ok (t'.library, applied) →
      (∃ new ∈ t'.items, new.id = item.id ∧ new.state = .done ∧ new.applied = some applied) →
      OthersKept t t' item → Decides platform t t'
  | stale {item : Item Digest} :
      item ∈ t.items → isCurrent platform t item = .ok false → t'.library = t.library →
      (∃ new ∈ t'.items, new.id = item.id ∧ new.state = .stale) →
      OthersKept t t' item → Decides platform t t'
  | undecided : t'.library = t.library → t'.runs = t.runs → Decides platform t t'

/-! ## The parts of a command -/

omit [DecidableEq Digest] in
private theorem updateItem_eq_ok (hold : old ∈ t.items) (hid : item.id = old.id)
    (h : updateItem t item = .ok (t', new)) :
    new = { item with revision := item.revision + 1 } ∧ new.Check ∧ Replaced t t' old new ∧
      t'.library = t.library ∧ t'.usage = t.usage := by
  simp only [updateItem, bind_eq_ok, require_eq_ok, pure_eq_ok, Prod.mk.injEq] at h
  obtain ⟨-, hcheck, rfl, rfl⟩ := h
  refine ⟨rfl, hcheck, ⟨?_, rfl⟩, rfl, rfl⟩
  obtain ⟨before, after, hrows, hrows'⟩ := Table.rows_update_of_unique
    (p := fun i : Item Digest => i.id = item.id)
    (f := fun i => { item with id := i.id, revision := item.revision + 1 }) (fun _ => rfl) hold
    fun i hi => ⟨fun heq => Table.eq_of_key hi hold (heq.trans hid), fun heq => heq ▸ hid.symm⟩
  refine ⟨before, after, hrows, ?_⟩
  rw [hid]
  simp only [hid] at hrows'
  exact hrows'

omit [DecidableEq Digest] in
private theorem leasedItem_eq_ok {itemId : ℕ} {expectedRevision : ℤ} {states : List ItemState}
    (h : leasedItem t itemId expectedRevision states = .ok item) :
    item ∈ t.items ∧ item.id = itemId ∧ item.state ∈ states := by
  simp only [leasedItem, fallbackItem, bind_eq_ok, orRaise_eq_ok, require_eq_ok, pure_eq_ok] at h
  obtain ⟨_, hget, -, -, -, -, -, ⟨hstate, -⟩, rfl⟩ := h
  obtain ⟨hmem, hid⟩ := Table.get?_eq_some.1 hget
  exact ⟨hmem, hid, hstate⟩

omit [DecidableEq Digest] in
theorem Replaced.others (h : Replaced t t' old new) (husage : t'.usage = t.usage) :
    OthersKept t t' old where
  items := fun _ hi hne => h.mem_of_ne hi fun heq => hne (congrArg Item.id heq)
  usage := husage
  starts := by
    rw [SameStarts, h.runs]
    exact fun run hrun => ⟨run, hrun, rfl, rfl⟩

omit [DecidableEq Digest] in
theorem SameStarts.trans {t₁ : Tables Digest} (h : SameStarts t t₁) (h' : SameStarts t₁ t') :
    SameStarts t t' := by
  intro run' hrun'
  obtain ⟨run₁, hrun₁, hid₁, hstart₁⟩ := h' run' hrun'
  obtain ⟨run, hrun, hid, hstart⟩ := h run₁ hrun₁
  exact ⟨run, hrun, hid.trans hid₁, hstart.trans hstart₁⟩

omit [DecidableEq Digest] in
private theorem sameStarts_maybeComplete {runId : ℕ} {now : Stamp}
    (h : maybeComplete t runId now = .ok t') : SameStarts t t' := by
  obtain ⟨-, -, -, hcases⟩ := maybeComplete_eq_ok h
  intro run' hrun'
  rcases hcases with ⟨rfl, -⟩ | ⟨-, _, -, -, ⟨-, rfl⟩ | ⟨f, hf, heq, hf'⟩⟩
  · exact ⟨run', hrun', rfl, rfl⟩
  · exact ⟨run', hrun', rfl, rfl⟩
  · rw [heq] at hrun'
    obtain ⟨run, hrun, rfl⟩ := Table.mem_update.1 hrun'
    refine ⟨run, hrun, ?_⟩
    split
    · exact ⟨(hf run).symm, (hf' run).2.symm⟩
    · exact ⟨rfl, rfl⟩

private theorem Decides.sameStarts (h : Decides platform t t') : SameStarts t t' := by
  cases h with
  | applied _ _ _ _ hothers => exact hothers.starts
  | stale _ _ _ _ hothers => exact hothers.starts
  | undecided _ hruns =>
      rw [SameStarts, hruns]
      exact fun run hrun => ⟨run, hrun, rfl, rfl⟩

theorem sameStarts_of_chain (h : ReflTransGen (Decides platform) t t') : SameStarts t t' := by
  induction h with
  | refl => exact fun run hrun => ⟨run, hrun, rfl, rfl⟩
  | tail _ hstep ih => exact ih.trans hstep.sameStarts

private theorem owes_of_iff {k : ℕ × Digest} (hinput : new.input = old.input)
    (hcalled : new.IsCalled ↔ old.IsCalled) : new.owes k = old.owes k := by
  simp only [Item.owes, hinput, hcalled]

/-- A stage that does not end leaves everything kept. -/
theorem Kept.turned (hkept : Kept begun released t) (hreplaced : Replaced t t' old new)
    (hturn : Turn old new) (hopen : new.state.isOpen = true)
    (hcalled : new.IsCalled ↔ old.IsCalled) : Kept begun released t' where
  items := hkept.items.replaced hreplaced hturn fun k => by
    rw [owes_of_iff hturn.input hcalled]
  runs := hkept.runs.replaced hreplaced hturn hopen

/-- The end of an item, with the completion of its run. -/
theorem Kept.ended {t₁ : Tables Digest} {now : Stamp} (hkept : Kept begun released t)
    (hreplaced : Replaced t t₁ old new) (hturn : Turn old new)
    (hclosed : new.state.isOpen = false) (hcalled : new.IsCalled ↔ old.IsCalled)
    (hcomplete : maybeComplete t₁ new.runId now = .ok t') : Kept begun released t' where
  items := (hkept.items.replaced hreplaced hturn fun k => by
    rw [owes_of_iff hturn.input hcalled]).maybeComplete hcomplete
  runs := hkept.runs.ended hkept.items hreplaced hturn hclosed hcomplete

/-- The item of a decision with other columns that do not matter to its call. -/
structure SameCall (old item : Item Digest) : Prop where
  id : item.id = old.id
  runId : item.runId = old.runId
  input : item.input = old.input
  called : item.IsCalled ↔ old.IsCalled

private theorem endItem_eq_ok {now : Stamp} (hkept : Kept begun released t) (hold : old ∈ t.items)
    (hopen : old.state.isOpen = true) (hsame : SameCall old item)
    (hclosed : item.state.isOpen = false) {t₁ : Tables Digest}
    (hupdate : updateItem t item = .ok (t₁, new))
    (hcomplete : maybeComplete t₁ new.runId now = .ok t') :
    Kept begun released t' ∧ t'.library = t.library ∧ OthersKept t t' old ∧
      new ∈ t'.items ∧ new.id = old.id ∧ new.state = item.state ∧ new.applied = item.applied := by
  obtain ⟨rfl, hcheck, hreplaced, hlibrary, husage⟩ := updateItem_eq_ok hold hsame.id hupdate
  obtain ⟨hitems, hlibrary', husage', -⟩ := maybeComplete_eq_ok hcomplete
  have hturn : Turn old { item with revision := item.revision + 1 } :=
    { runId := hsame.runId, input := hsame.input, fromOpen := hopen, checked := hcheck
      shaped := fun hstate => by
        simp only at hstate
        rw [hstate] at hclosed
        cases hclosed }
  have hothers := hreplaced.others husage
  refine ⟨hkept.ended hreplaced hturn hclosed hsame.called hcomplete, hlibrary'.trans hlibrary,
    ⟨fun i hi hne => hitems ▸ hothers.items i hi hne, husage'.trans husage,
      hothers.starts.trans (sameStarts_maybeComplete hcomplete)⟩,
    hitems ▸ hreplaced.new_mem, hsame.id, rfl, rfl⟩

private theorem staleItem_eq_ok {now : Stamp} (hkept : Kept begun released t) (hold : old ∈ t.items)
    (hopen : old.state.isOpen = true) (hsame : SameCall old item)
    (hcurrent : isCurrent platform t old = .ok false)
    (h : staleItem t item now = .ok (t', new)) :
    Kept begun released t' ∧ Decides platform t t' ∧ new.id = old.id ∧ new.state = .stale ∧
      t'.library = t.library ∧ OthersKept t t' old := by
  simp only [staleItem, bind_eq_ok, pure_eq_ok, Prod.mk.injEq] at h
  obtain ⟨⟨t₁, updated⟩, hupdate, t₂, hcomplete, rfl, rfl⟩ := h
  obtain ⟨hkept', hlibrary, hothers, hmem, hid, hstate, -⟩ := endItem_eq_ok hkept hold hopen
    (by exact ⟨hsame.id, hsame.runId, hsame.input, hsame.called⟩) (by rfl) hupdate hcomplete
  exact ⟨hkept', .stale hold hcurrent hlibrary ⟨_, hmem, hid, hstate⟩ hothers, hid, hstate,
    hlibrary, hothers⟩

omit [DecidableEq Digest] in
/-- The columns of an ended item: a begun call stays begun. -/
private theorem endedColumns_eq_ok {decision : Decision} {ending : Ending}
    (hcall : old.state = .deciding → old.callState = .mayHaveStarted)
    (h : endedColumns old decision ending = .ok item) : SameCall old item := by
  simp only [endedColumns, bind_eq_ok, pure_eq_ok] at h
  obtain ⟨_, -, _, -, _, -, rfl⟩ := h
  refine ⟨rfl, rfl, rfl, ?_⟩
  simp only [Item.IsCalled]
  by_cases hstate : old.state = .deciding
  · rw [if_pos hstate, hcall hstate]
    refine iff_of_true ?_ (by decide)
    split <;> split <;> decide
  · rw [if_neg hstate]

/-- A conclusion is applied to a current recommendation, or the item becomes stale. -/
private theorem concludeItem_eq_ok {decision : Decision} {ending : Ending} {now : Stamp}
    (hkept : Kept begun released t) (hold : old ∈ t.items) (hopen : old.state.isOpen = true)
    (hcall : old.state = .deciding → old.callState = .mayHaveStarted)
    (h : concludeItem platform t old decision ending now = .ok (t', new)) :
    Kept begun released t' ∧ Decides platform t t' ∧ new.id = old.id ∧
      ((isCurrent platform t old = .ok true ∧ new.state = .done) ∨
        (isCurrent platform t old = .ok false ∧ new.state = .stale ∧ t'.library = t.library ∧
          OthersKept t t' old)) := by
  simp only [concludeItem, bind_eq_ok] at h
  obtain ⟨decision, -, ended, hended, current, hcurrent, h⟩ := h
  have hsame := endedColumns_eq_ok hcall hended
  cases current with
  | true =>
      simp only [if_true, bind_eq_ok, pure_eq_ok, Prod.mk.injEq] at h
      obtain ⟨⟨library, applied⟩, heffect, ⟨t₁, updated⟩, hupdate, t₂, hcomplete, rfl, rfl⟩ := h
      have hkept' : Kept begun released { t with library } :=
        ⟨⟨hkept.items.checked, hkept.items.shaped, hkept.items.paid, hkept.items.once,
          hkept.items.owned⟩, ⟨hkept.runs.completed, hkept.runs.running⟩⟩
      have hrunId : updated.runId = old.runId := by
        obtain ⟨rfl, -⟩ := updateItem_eq_ok (by exact hold) (by exact hsame.id) hupdate
        exact hsame.runId
      rw [← hrunId] at hcomplete
      obtain ⟨hkept', hlibrary, hothers, hmem, hid, hstate, happlied⟩ := endItem_eq_ok hkept'
        (by exact hold) hopen (by exact ⟨hsame.id, hsame.runId, hsame.input, hsame.called⟩) (by rfl)
        hupdate hcomplete
      have heffect : fallbackEffect platform t.library old.recommendationId old.runId decision now =
          .ok (t₂.library, applied) := by
        rw [hlibrary]
        exact heffect
      refine ⟨hkept', .applied hold hcurrent heffect ⟨_, hmem, hid, hstate, happlied⟩
        ⟨hothers.items, hothers.usage, hothers.starts⟩, hid, .inl ⟨hcurrent, hstate⟩⟩
  | false =>
      simp only [Bool.false_eq_true, if_false] at h
      obtain ⟨hkept', hdecides, hid, hstate, hlibrary, hothers⟩ :=
        staleItem_eq_ok hkept hold hopen hsame hcurrent h
      exact ⟨hkept', hdecides, hid, .inr ⟨hcurrent, hstate, hlibrary, hothers⟩⟩

/-! ## The commands -/

/-- An item that is leased, or due, has not ended. -/
private theorem ItemsKept.open_of_due {now : Stamp} (hkept : ItemsKept begun released t)
    (h : dueItem t now = some item) : item ∈ t.items ∧ item.state.isOpen = true := by
  have hmem := List.mem_of_mem_head? h
  obtain ⟨hitem, hdue⟩ := List.mem_filter.1 ((List.mem_insertionSort DueBefore).1 hmem)
  refine ⟨hitem, ?_⟩
  obtain ⟨-, ⟨-, hstate | hstate, -⟩ | hlease⟩ := of_decide_eq_true hdue
  · rw [hstate]; rfl
  · rw [hstate]; rfl
  · have hlease : item.leaseUntil ≠ none := by
      intro hnone
      rw [hnone] at hlease
      cases hlease
    rcases (hkept.checked item hitem).2.1 hlease with hstate | hstate
    · rw [hstate]; rfl
    · rw [hstate]; rfl

/-- A claim decides items until it leases one, or none is due. -/
theorem claimLoop_eq_ok {nowValue : Civil} {leaseSeconds fuel : ℕ}
    {answer : Option (Item Digest × Stage)} (hkept : Kept begun released t)
    (h : claimLoop platform nowValue leaseSeconds fuel t = .ok (t', answer)) :
    Kept begun released t' ∧ ReflTransGen (Decides platform) t t' := by
  induction fuel generalizing t with
  | zero => simp [claimLoop] at h
  | succ fuel ih =>
      simp only [claimLoop] at h
      split at h
      · simp only [pure_eq_ok, Prod.mk.injEq] at h
        obtain ⟨rfl, -⟩ := h
        exact ⟨hkept, .refl⟩
      · rename_i item hdue
        obtain ⟨hitem, hopen⟩ := hkept.items.open_of_due hdue
        split at h
        · -- the call may have started: it is never made again
          rename_i hcall
          simp only [bind_eq_ok] at h
          obtain ⟨⟨t₁, new⟩, hconclude, h⟩ := h
          obtain ⟨hkept₁, hdecides, -⟩ :=
            concludeItem_eq_ok hkept hitem hopen (fun _ => hcall.2) hconclude
          obtain ⟨hkept', hchain⟩ := ih hkept₁ h
          exact ⟨hkept', hchain.head hdecides⟩
        · rename_i hcall
          have hnotStarted : item.state = .deciding → item.callState = .notStarted := by
            intro hstate
            have hshaped := hkept.items.shaped item hitem hstate
            cases hcallState : item.callState with
            | notStarted => rfl
            | mayHaveStarted => exact absurd ⟨hstate, hcallState⟩ hcall
            | finished => exact absurd hcallState hshaped
          simp only [bind_eq_ok] at h
          obtain ⟨current, hcurrent, h⟩ := h
          cases current with
          | false =>
              simp only [Bool.false_eq_true, if_false, bind_eq_ok] at h
              obtain ⟨⟨t₁, new⟩, hstale, h⟩ := h
              obtain ⟨hkept₁, hdecides, -⟩ := staleItem_eq_ok hkept hitem hopen
                (by exact ⟨rfl, rfl, rfl, Iff.rfl⟩) hcurrent hstale
              obtain ⟨hkept', hchain⟩ := ih hkept₁ h
              exact ⟨hkept', hchain.head hdecides⟩
          | true =>
              simp only [if_true] at h
              split at h
              · rename_i hspent
                simp only [bind_eq_ok] at h
                obtain ⟨⟨t₁, new⟩, hconclude, h⟩ := h
                obtain ⟨hkept₁, hdecides, -⟩ := concludeItem_eq_ok hkept hitem hopen
                  (fun hstate => by rw [hspent.1] at hstate; cases hstate) hconclude
                obtain ⟨hkept', hchain⟩ := ih hkept₁ h
                exact ⟨hkept', hchain.head hdecides⟩
              · simp only [bind_eq_ok] at h
                obtain ⟨lease, -, h⟩ := h
                split at h
                · rename_i hverifying
                  simp only [bind_eq_ok, pure_eq_ok, Prod.mk.injEq] at h
                  obtain ⟨⟨t₁, new⟩, hupdate, rfl, -⟩ := h
                  obtain ⟨rfl, hcheck, hreplaced, hlibrary, -⟩ :=
                    updateItem_eq_ok hitem (by rfl) hupdate
                  refine ⟨hkept.turned hreplaced ⟨rfl, rfl, hopen, hcheck, ?_⟩ ?_ Iff.rfl,
                    .single (.undecided hlibrary hreplaced.runs)⟩
                  · intro hstate
                    simp only [hverifying] at hstate
                    cases hstate
                  · simp only [hverifying]
                    rfl
                · rename_i hverifying
                  simp only [bind_eq_ok, pure_eq_ok, Prod.mk.injEq] at h
                  obtain ⟨⟨t₁, new⟩, hupdate, rfl, -⟩ := h
                  obtain ⟨rfl, hcheck, hreplaced, hlibrary, -⟩ :=
                    updateItem_eq_ok hitem (by rfl) hupdate
                  -- a pending item, and a leased one whose call was not begun, owe no call
                  have hcalled : item.callState = .notStarted := by
                    cases hstate : item.state with
                    | pending => exact ((hkept.items.checked item hitem).2.2.2.1 hstate).1
                    | deciding => exact hnotStarted hstate
                    | verifying => exact absurd hstate hverifying
                    | done => rw [hstate] at hopen; cases hopen
                    | stale => rw [hstate] at hopen; cases hopen
                  refine ⟨hkept.turned hreplaced ⟨rfl, rfl, hopen, hcheck, ?_⟩ rfl ?_,
                    .single (.undecided hlibrary hreplaced.runs)⟩
                  · simp
                  · simp [Item.IsCalled, hcalled]

theorem Kept.usage (hkept : Kept begun released t) (usage : Table Usage) :
    Kept begun released { t with usage } :=
  ⟨⟨hkept.items.checked, hkept.items.shaped, hkept.items.paid, hkept.items.once,
    hkept.items.owned⟩, ⟨hkept.runs.completed, hkept.runs.running⟩⟩

/-- A begun call is entered for the input of the item, unless the day is spent. -/
theorem beginCall_eq_ok {readings : Readings} {itemId : ℕ} {expectedRevision cap : ℤ}
    {day : Option Text} (hkept : Kept begun released t)
    (h : beginCall t readings itemId expectedRevision cap = .ok (t', new, day)) :
    Kept (if day = none then begun else new.input :: begun) released t' ∧
      Decides platform t t' := by
  simp only [beginCall, bind_eq_ok, require_eq_ok] at h
  obtain ⟨item, hleased, -, hcall, reserved, -, h⟩ := h
  obtain ⟨hitem, -, hstate⟩ := leasedItem_eq_ok hleased
  have hstate : item.state = .deciding := by simpa using hstate
  have hopen : item.state.isOpen = true := by rw [hstate]; rfl
  cases reserved with
  | none =>
      simp only [bind_eq_ok, pure_eq_ok, Prod.mk.injEq] at h
      obtain ⟨_, -, ⟨t₁, updated⟩, hupdate, rfl, rfl, rfl⟩ := h
      obtain ⟨rfl, hcheck, hreplaced, hlibrary, -⟩ := updateItem_eq_ok hitem (by rfl) hupdate
      refine ⟨?_, .undecided hlibrary hreplaced.runs⟩
      rw [if_pos rfl]
      exact hkept.turned hreplaced ⟨rfl, rfl, hopen, hcheck, by simp⟩ rfl Iff.rfl
  | some reserved =>
      obtain ⟨usage, day'⟩ := reserved
      simp only [bind_eq_ok, pure_eq_ok, Prod.mk.injEq] at h
      obtain ⟨⟨t₁, updated⟩, hupdate, rfl, rfl, rfl⟩ := h
      have hkept := hkept.usage usage
      obtain ⟨rfl, hcheck, hreplaced, hlibrary, -⟩ :=
        updateItem_eq_ok (by exact hitem) (by rfl) hupdate
      rw [if_neg (by simp)]
      have hturn : Turn item { item with
          callState := .mayHaveStarted, revision := item.revision + 1 } :=
        ⟨rfl, rfl, hopen, hcheck, by simp⟩
      refine ⟨⟨hkept.items.replaced hreplaced hturn fun k => ?_,
        hkept.runs.replaced hreplaced hturn hopen⟩, .undecided hlibrary hreplaced.runs⟩
      have hinput : (({ item with callState := .mayHaveStarted, revision := item.revision + 1 } :
        Item Digest)).input = item.input := rfl
      simp only [Item.owes, Item.IsCalled, hcall, hinput, List.count_cons, beq_iff_eq]
      split
      · simp_all
        omega
      · simp_all

/-- A release gives back the call that the item had begun. -/
theorem releaseItem_eq_ok {readings : Readings} {itemId : ℕ} {expectedRevision : ℤ}
    {notBefore refundDay : Option Text} {delaySeconds : Option ℤ}
    (hkept : Kept begun released t)
    (h : releaseItem t readings itemId expectedRevision notBefore refundDay delaySeconds =
      .ok (t', new)) :
    ∃ item ∈ t.items, item.id = itemId ∧
      Kept begun (if item.state = .deciding ∧ item.callState = .mayHaveStarted
        then item.input :: released else released) t' ∧ Decides platform t t' := by
  simp only [releaseItem, bind_eq_ok, require_eq_ok] at h
  obtain ⟨-, -, -, -, item, hleased, nextAttemptAt, -, h⟩ := h
  obtain ⟨hitem, hid, hstate⟩ := leasedItem_eq_ok hleased
  refine ⟨item, hitem, hid, ?_⟩
  have hstate : item.state = .deciding ∨ item.state = .verifying := by simpa using hstate
  have hopen : item.state.isOpen = true := by
    rcases hstate with hstate | hstate <;> rw [hstate] <;> rfl
  split at h
  · rename_i hverifying
    obtain ⟨rfl, hcheck, hreplaced, hlibrary, -⟩ := updateItem_eq_ok hitem (by rfl) h
    refine ⟨?_, .undecided hlibrary hreplaced.runs⟩
    rw [if_neg (by simp [hverifying])]
    exact hkept.turned hreplaced ⟨rfl, rfl, hopen, hcheck, by simp [hverifying]⟩ hopen Iff.rfl
  · rename_i hverifying
    have hdeciding := hstate.resolve_right hverifying
    simp only [bind_eq_ok] at h
    obtain ⟨usage, -, hupdate⟩ := h
    have hkept := hkept.usage usage
    obtain ⟨rfl, hcheck, hreplaced, hlibrary, -⟩ :=
      updateItem_eq_ok (by exact hitem) (by rfl) hupdate
    have hturn : Turn item { item with
        state := .pending, callState := .notStarted, leaseUntil := none, nextAttemptAt
        revision := item.revision + 1 } := ⟨rfl, rfl, hopen, hcheck, by simp⟩
    refine ⟨⟨hkept.items.replaced hreplaced hturn fun k => ?_,
      hkept.runs.replaced hreplaced hturn rfl⟩, .undecided hlibrary hreplaced.runs⟩
    have hshaped := hkept.items.shaped item hitem hdeciding
    simp only [Item.owes, Item.IsCalled, hdeciding, true_and, ne_eq, not_true_eq_false, and_false,
      if_false]
    by_cases hcall : item.callState = .mayHaveStarted
    · rw [if_pos hcall]
      simp only [hcall, reduceCtorEq, not_false_eq_true, and_true, List.count_cons, beq_iff_eq]
      omega
    · have hnotStarted : item.callState = .notStarted := by
        cases h : item.callState with
        | notStarted => rfl
        | mayHaveStarted => exact absurd h hcall
        | finished => exact absurd h hshaped
      rw [if_neg hcall]
      simp [hnotStarted]

omit [DecidableEq Digest] in
theorem recordProposal_eq_ok {readings : Readings} {itemId : ℕ} {expectedRevision : ℤ}
    {proposal : Text} {usage : Option Text}
    (h : recordProposal t readings itemId expectedRevision proposal usage = .ok (t', new)) :
    ∃ item ∈ t.items, Replaced t t' item new ∧ Turn item new ∧ new.state = .verifying ∧
      (new.IsCalled ↔ item.IsCalled) ∧ t'.library = t.library := by
  simp only [recordProposal, bind_eq_ok, require_eq_ok] at h
  obtain ⟨item, hleased, -, hcall, _, -, _, -, hupdate⟩ := h
  obtain ⟨hitem, -, hstate⟩ := leasedItem_eq_ok hleased
  have hstate : item.state = .deciding := by simpa using hstate
  obtain ⟨rfl, hcheck, hreplaced, hlibrary, -⟩ := updateItem_eq_ok hitem (by rfl) hupdate
  refine ⟨item, hitem, hreplaced, ⟨rfl, rfl, by rw [hstate]; rfl, hcheck, by simp⟩, rfl, ?_,
    hlibrary⟩
  simp [Item.IsCalled, hcall]

/-- A failed verification waits for another attempt, or is concluded. -/
theorem failVerification_eq_ok {readings : Readings} {itemId : ℕ} {expectedRevision : ℤ}
    {category : Text} {verification : Option Text} (hkept : Kept begun released t)
    (h : failVerification platform t readings itemId expectedRevision category verification =
      .ok (t', new)) :
    Kept begun released t' ∧ Decides platform t t' := by
  simp only [failVerification, bind_eq_ok] at h
  obtain ⟨-, -, item, hleased, h⟩ := h
  obtain ⟨hitem, -, hstate⟩ := leasedItem_eq_ok hleased
  have hstate : item.state = .verifying := by simpa using hstate
  have hopen : item.state.isOpen = true := by rw [hstate]; rfl
  split at h
  · simp only [bind_eq_ok] at h
    obtain ⟨_, -, hupdate⟩ := h
    obtain ⟨rfl, hcheck, hreplaced, hlibrary, -⟩ := updateItem_eq_ok hitem (by rfl) hupdate
    exact ⟨hkept.turned hreplaced ⟨rfl, rfl, hopen, hcheck, by simp [hstate]⟩ hopen Iff.rfl,
      .undecided hlibrary hreplaced.runs⟩
  · have hconclude := concludeItem_eq_ok hkept hitem hopen (by simp [hstate]) h
    exact ⟨hconclude.1, hconclude.2.1⟩

/-- The result of an item is applied to a current recommendation, or the item becomes stale and
nothing else changes. -/
theorem applyResult_eq_ok {readings : Readings} {itemId : ℕ} {expectedRevision : ℤ}
    {decision : Decision} {proposal usage verification : Option Text}
    (hkept : Kept begun released t)
    (h : applyResult platform t readings itemId expectedRevision decision proposal usage
      verification = .ok (t', new)) :
    Kept begun released t' ∧ Decides platform t t' ∧ ∃ item ∈ t.items, item.id = itemId ∧
      ((isCurrent platform t item = .ok true ∧ new.state = .done) ∨
        (isCurrent platform t item = .ok false ∧ new.state = .stale ∧ t'.library = t.library ∧
          OthersKept t t' item)) := by
  simp only [applyResult, bind_eq_ok, require_eq_ok] at h
  obtain ⟨_, -, item, hleased, -, hcall, -, -, hconclude⟩ := h
  obtain ⟨hitem, hid, hstate⟩ := leasedItem_eq_ok hleased
  have hopen : item.state.isOpen = true := by
    have hstate : item.state = .deciding ∨ item.state = .verifying := by simpa using hstate
    rcases hstate with hstate | hstate <;> rw [hstate] <;> rfl
  obtain ⟨hkept', hdecides, -, hcases⟩ := concludeItem_eq_ok hkept hitem hopen hcall hconclude
  exact ⟨hkept', hdecides, item, hitem, hid, hcases⟩

end Cortex.Fallback
