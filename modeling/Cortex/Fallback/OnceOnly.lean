import Cortex.Fallback.Start
import Cortex.Library.History

/-!
# One paid model call per reviewed input

Over every sequence of fallback commands and edits, an input is called at most
once more than its calls were released, one run is running at a time, and a run is
completed exactly when its items are done or stale.
-/

namespace Cortex.Fallback

open Control Time Transaction Relation

variable {Digest : Type} [DecidableEq Digest]

inductive Call
  | start (trigger : Trigger) (itemCap : ℤ) (model effort : Text)
  | claim (leaseSeconds : ℤ)
  | beginCall (itemId : ℕ) (expectedRevision cap : ℤ)
  | recordProposal (itemId : ℕ) (expectedRevision : ℤ) (proposal : Text) (usage : Option Text)
  | release (itemId : ℕ) (expectedRevision : ℤ) (notBefore refundDay : Option Text)
      (delaySeconds : Option ℤ)
  | failVerification (itemId : ℕ) (expectedRevision : ℤ) (category : Text)
      (verification : Option Text)
  | applyResult (itemId : ℕ) (expectedRevision : ℤ) (decision : Decision)
      (proposal usage verification : Option Text)

/-- A command of the fallback, or a change that another command makes to the library and to the
counts of the day. -/
inductive Event
  | command (call : Call) (readings : Readings)
  | edit (library : Library) (usage : Table Usage)

/-- The inputs whose begun call a release gives back. -/
def released (w : World Digest) (itemId : ℕ) : List (ℕ × Digest) :=
  match w.tables.items.get? itemId with
  | none => w.released
  | some item =>
      if item.state = .deciding ∧ item.callState = .mayHaveStarted then item.input :: w.released
      else w.released

section Perform

variable (platform : Platform Digest)

def performCall (w : World Digest) (call : Call) (readings : Readings) :
    Except StoreError (World Digest) :=
  match call with
  | .start trigger itemCap model effort => do
      let (tables, _) ← startRun platform w.tables readings trigger itemCap model effort
      pure { w with tables }
  | .claim leaseSeconds => do
      let (tables, _) ← claimItem platform w.tables readings leaseSeconds
      pure { w with tables }
  | .beginCall itemId expectedRevision cap => do
      let (tables, item, day) ← beginCall w.tables readings itemId expectedRevision cap
      pure { w with tables, begun := if day = none then w.begun else item.input :: w.begun }
  | .recordProposal itemId expectedRevision proposal usage => do
      let (tables, _) ← recordProposal w.tables readings itemId expectedRevision proposal usage
      pure { w with tables }
  | .release itemId expectedRevision notBefore refundDay delaySeconds => do
      let (tables, _) ← releaseItem w.tables readings itemId expectedRevision notBefore refundDay
        delaySeconds
      pure { w with tables, released := released w itemId }
  | .failVerification itemId expectedRevision category verification => do
      let (tables, _) ← failVerification platform w.tables readings itemId expectedRevision category
        verification
      pure { w with tables }
  | .applyResult itemId expectedRevision decision proposal usage verification => do
      let (tables, _) ← applyResult platform w.tables readings itemId expectedRevision decision
        proposal usage verification
      pure { w with tables }

def perform (w : World Digest) : Event → Except StoreError (World Digest × Unit)
  | .command call readings => do
      let w ← performCall platform w call readings
      pure (w, ())
  | .edit library usage => pure ({ w with tables := { w.tables with library, usage } }, ())

/-- A committed event. -/
def Step : World Digest → Event × Unit → World Digest → Prop := Commits (perform platform)

end Perform

/-- The store before the first run. -/
def World.start (library : Library) (usage : Table Usage) : World Digest where
  tables := { library, runs := .empty, items := .empty, usage }
  begun := []
  released := []

/-- The clock of a start is not read earlier when the start is stamped than when it was
decided. -/
def Event.Forward : Event → Prop
  | .command (.start ..) readings => (readings.clock 0).micros ≤ (readings.clock 2).micros
  | _ => True

/-- The two runs started a week apart. -/
def Apart (run run' : Run) : Prop :=
  run.startedAt.micros + weekMicros ≤ run'.startedAt.micros ∨
    run'.startedAt.micros + weekMicros ≤ run.startedAt.micros

/-! ## The step lemma -/

variable {platform : Platform Digest} {w w' : World Digest}

/-- What one committed event keeps. -/
private theorem performCall_kept {call : Call} {readings : Readings}
    (hkept : Kept w.begun w.released w.tables)
    (h : performCall platform w call readings = .ok w') :
    Kept w'.begun w'.released w'.tables ∧
      match call with
      | .start .. => (w'.tables.runs = w.tables.runs ∨ ∃ run, run.startedAt = readings.clock 2 ∧
          (∀ r ∈ w'.tables.runs, r ∈ w.tables.runs ∨ r = run) ∧
          ∀ r ∈ w.tables.runs, r.startedAt.micros + weekMicros ≤ (readings.clock 0).micros)
      | _ => ReflTransGen (Decides platform) w.tables w'.tables := by
  cases call with
  | start trigger itemCap model effort =>
      simp only [performCall, bind_eq_ok, pure_eq_ok] at h
      obtain ⟨⟨t, answer⟩, hstart, rfl⟩ := h
      obtain ⟨hkept', hruns⟩ := startRun_eq_ok hkept hstart
      refine ⟨hkept', ?_⟩
      rcases hruns with ⟨hsame, -⟩ | ⟨run, -, hrun⟩
      · exact .inl hsame
      · exact .inr ⟨run, hrun⟩
  | claim leaseSeconds =>
      simp only [performCall, claimItem, bind_eq_ok, pure_eq_ok] at h
      obtain ⟨⟨t, answer⟩, ⟨-, -, hclaim⟩, rfl⟩ := h
      exact claimLoop_eq_ok hkept hclaim
  | beginCall itemId expectedRevision cap =>
      simp only [performCall, bind_eq_ok, pure_eq_ok] at h
      obtain ⟨⟨t, item, day⟩, hbegin, rfl⟩ := h
      have hdecides : _ ∧ Decides platform w.tables t := beginCall_eq_ok hkept hbegin
      exact ⟨hdecides.1, .single hdecides.2⟩
  | recordProposal itemId expectedRevision proposal usage =>
      simp only [performCall, bind_eq_ok, pure_eq_ok] at h
      obtain ⟨⟨t, new⟩, hrecord, rfl⟩ := h
      obtain ⟨item, -, hreplaced, hturn, hstate, hcalled, hlibrary⟩ := recordProposal_eq_ok hrecord
      exact ⟨hkept.turned hreplaced hturn (by rw [hstate]; rfl) hcalled,
        .single (.undecided hlibrary hreplaced.runs)⟩
  | release itemId expectedRevision notBefore refundDay delaySeconds =>
      simp only [performCall, bind_eq_ok, pure_eq_ok] at h
      obtain ⟨⟨t, new⟩, hrelease, rfl⟩ := h
      obtain ⟨item, hitem, hid, hkept', hdecides⟩ :=
        releaseItem_eq_ok hkept hrelease
      refine ⟨?_, .single hdecides⟩
      have hget : w.tables.items.get? itemId = some item := Table.get?_eq_some.2 ⟨hitem, hid⟩
      simp only [released, hget]
      exact hkept'
  | failVerification itemId expectedRevision category verification =>
      simp only [performCall, bind_eq_ok, pure_eq_ok] at h
      obtain ⟨⟨t, new⟩, hfail, rfl⟩ := h
      obtain ⟨hkept', hdecides⟩ := failVerification_eq_ok hkept hfail
      exact ⟨hkept', .single hdecides⟩
  | applyResult itemId expectedRevision decision proposal usage verification =>
      simp only [performCall, bind_eq_ok, pure_eq_ok] at h
      obtain ⟨⟨t, new⟩, happly, rfl⟩ := h
      obtain ⟨hkept', hdecides, -⟩ := applyResult_eq_ok hkept happly
      exact ⟨hkept', .single hdecides⟩

private theorem kept_step {event : Event × Unit} (hkept : Kept w.begun w.released w.tables)
    (h : Step platform w event w') : Kept w'.begun w'.released w'.tables := by
  obtain ⟨event, ⟨⟩⟩ := event
  simp only [Step, Commits] at h
  cases event with
  | command call readings =>
      simp only [perform, bind_eq_ok, pure_eq_ok, Prod.mk.injEq] at h
      obtain ⟨_, hcall, rfl, -⟩ := h
      exact (performCall_kept hkept hcall).1
  | edit library usage =>
      simp only [perform, pure_eq_ok, Prod.mk.injEq] at h
      obtain ⟨rfl, -⟩ := h
      exact (hkept.library library).usage usage

private theorem kept_start (library : Library) (usage : Table Usage) :
    Kept (World.start library usage : World Digest).begun (World.start library usage).released
      (World.start library usage).tables := by
  have hnone : ∀ i, i ∉ (World.start library usage : World Digest).tables.items :=
    fun i => Table.not_mem_empty i
  have hnoRun : ∀ r, r ∉ (World.start library usage : World Digest).tables.runs :=
    fun r => Table.not_mem_empty r
  exact
    { items :=
        { checked := fun i hi => absurd hi (hnone i)
          shaped := fun i hi => absurd hi (hnone i)
          paid := fun k => rfl
          once := fun k => Nat.zero_le _
          owned := fun i hi => absurd hi (hnone i) }
      runs :=
        { completed := fun r hr => absurd hr (hnoRun r)
          running := fun r hr => absurd hr (hnoRun r) } }

/-! ## Runs -/

theorem kept_of_history {library : Library} {usage : Table Usage} {events : List (Event × Unit)}
    (h : History (Step platform) (World.start library usage) events w) :
    Kept w.begun w.released w.tables :=
  h.invariant (P := fun w => Kept w.begun w.released w.tables) (kept_start library usage) kept_step

/-- With the clock read forward, every two runs start a week apart. -/
private theorem apart_of_history {library : Library} {usage : Table Usage} {events : List (Event × Unit)}
    (h : History (restrict (Step platform) fun _ event => event.1.Forward)
      (World.start library usage) events w) :
    ∀ run ∈ w.tables.runs, ∀ run' ∈ w.tables.runs, run.id ≠ run'.id → Apart run run' := by
  refine (h.invariant (P := fun w : World Digest => Kept w.begun w.released w.tables ∧
    ∀ run ∈ w.tables.runs, ∀ run' ∈ w.tables.runs, run.id ≠ run'.id → Apart run run')
    ⟨kept_start library usage, fun r hr => absurd hr (Table.not_mem_empty r)⟩
    fun {w event w'} hw hstep => ?_).2
  obtain ⟨hkept, hapart⟩ := hw
  obtain ⟨hstep, hforward⟩ := hstep
  refine ⟨kept_step hkept hstep, ?_⟩
  obtain ⟨event, ⟨⟩⟩ := event
  simp only [Step, Commits] at hstep
  cases event with
  | edit library usage =>
      simp only [perform, pure_eq_ok, Prod.mk.injEq] at hstep
      obtain ⟨rfl, -⟩ := hstep
      exact hapart
  | command call readings =>
      simp only [perform, bind_eq_ok, pure_eq_ok, Prod.mk.injEq] at hstep
      obtain ⟨w₁, hcall, rfl, -⟩ := hstep
      have hcases := (performCall_kept hkept hcall).2
      have hkeeps : SameStarts w.tables w₁.tables →
          ∀ run ∈ w₁.tables.runs, ∀ run' ∈ w₁.tables.runs, run.id ≠ run'.id → Apart run run' := by
        intro hsame run₁ hrun₁ run₂ hrun₂ hne
        obtain ⟨run, hrun, hid, hstart⟩ := hsame run₁ hrun₁
        obtain ⟨run', hrun', hid', hstart'⟩ := hsame run₂ hrun₂
        have := hapart run hrun run' hrun' (by rw [hid, hid']; exact hne)
        rwa [Apart, hstart, hstart'] at this
      cases call with
      | start =>
          rcases hcases with hsame | ⟨run, hstarted, hruns, hspaced⟩
          · rw [hsame]
            exact hapart
          · have hlater : ∀ r ∈ w.tables.runs,
                r.startedAt.micros + weekMicros ≤ run.startedAt.micros := by
              intro r hr
              rw [hstarted]
              exact (hspaced r hr).trans hforward
            intro r hr r' hr' hne
            rcases hruns r hr with hr | rfl
            · rcases hruns r' hr' with hr' | rfl
              · exact hapart r hr r' hr' hne
              · exact .inl (hlater r hr)
            · rcases hruns r' hr' with hr' | rfl
              · exact .inr (hlater r' hr')
              · exact absurd rfl hne
      | claim => exact hkeeps (sameStarts_of_chain hcases)
      | beginCall => exact hkeeps (sameStarts_of_chain hcases)
      | recordProposal => exact hkeeps (sameStarts_of_chain hcases)
      | release => exact hkeeps (sameStarts_of_chain hcases)
      | failVerification => exact hkeeps (sameStarts_of_chain hcases)
      | applyResult => exact hkeeps (sameStarts_of_chain hcases)

/-- The calls that decide items: all but a start. -/
def Call.starts : Call → Bool
  | .start .. => true
  | _ => false

/-- One paid model call per reviewed input, over every sequence of fallback commands and edits. -/
theorem one_paid_call {library : Library} {usage : Table Usage} {events : List (Event × Unit)}
    (h : History (Step platform) (World.start library usage) events w) :
    (∀ input, w.begun.count input ≤ w.released.count input + 1) ∧
    (∀ run ∈ w.tables.runs, ∀ run' ∈ w.tables.runs,
      run.state = .running → run'.state = .running → run = run') ∧
    ((∀ event ∈ events, event.1.Forward) → ∀ run ∈ w.tables.runs, ∀ run' ∈ w.tables.runs,
      run.id ≠ run'.id → Apart run run') ∧
    (∀ run ∈ w.tables.runs, run.state = .completed ↔
      ∀ i ∈ w.tables.items, i.runId = run.id → i.state = .done ∨ i.state = .stale) ∧
    (∀ call readings w', call.starts = false → performCall platform w call readings = .ok w' →
      ReflTransGen (Decides platform) w.tables w'.tables) ∧
    (∀ readings itemId expectedRevision decision proposal callUsage verification t new,
      applyResult platform w.tables readings itemId expectedRevision decision proposal callUsage
        verification = .ok (t, new) →
      ∃ item ∈ w.tables.items, item.id = itemId ∧
        ((isCurrent platform w.tables item = .ok true ∧ new.state = .done) ∨
          (isCurrent platform w.tables item = .ok false ∧ new.state = .stale ∧
            t.library = w.tables.library ∧ OthersKept w.tables t item))) := by
  have hkept := kept_of_history h
  refine ⟨fun input => ?_, hkept.runs.running, fun hforward => ?_, fun run hrun => ?_,
    fun call readings w' hcall hperform => ?_, ?_⟩
  · have hpaid := hkept.items.paid input
    have honce := hkept.items.once input
    have hle : countItems w.tables Item.IsCalled input ≤ countItems w.tables Item.TakesInput input := by
      refine List.countP_mono_left fun i _ hcalled => ?_
      obtain ⟨hinput, hcalled⟩ := of_decide_eq_true hcalled
      exact decide_eq_true ⟨hinput, fun hstale => hcalled hstale.2⟩
    omega
  · exact apart_of_history (h.restrict fun event hevent _ => hforward event hevent)
  · rw [hkept.runs.completed run hrun]
    refine forall_congr' fun i => forall_congr' fun _ => forall_congr' fun _ => ?_
    cases i.state <;> decide
  · have hcases := (performCall_kept hkept hperform).2
    cases call with
    | start => cases hcall
    | claim => exact hcases
    | beginCall => exact hcases
    | recordProposal => exact hcases
    | release => exact hcases
    | failVerification => exact hcases
    | applyResult => exact hcases
  · intro readings itemId expectedRevision decision proposal callUsage verification t new happly
    exact (applyResult_eq_ok hkept happly).2.2

/-! ### Two runs, the second stamped by a clock that went back -/

def plainPlatform : Platform ModelInput where
  inputSha256 := id
  normalizeUrl := pure
  isPaperUrl _ := false
  arxivIdFromUrl _ := none
  canonicalizeArxivId := pure

def blogRecommendation (id : ℕ) : Recommendation where
  id := id
  noteId := 1
  kind := .blog
  title := "A post".toList
  quote := "worth reading".toList
  imageOrdinal := none
  arxivId := none
  url := none
  urlState := some .none
  urlCheckedTitle := none
  importState := .none
  revision := 0
  createdAt := []

/-- A saved note that recommends two posts. -/
def twoPosts : Library where
  recommendations := ⟨[blogRecommendation 1, blogRecommendation 2], by decide⟩
  notes := ⟨[⟨1, "Reading list".toList, "Two posts".toList, .saved, 1, 0⟩], by decide⟩
  images := .empty
  reviews := .empty
  tasks := .empty

/-- Noon of a day in May 2026. -/
def noonOf (day : ℕ) (h : 1 ≤ day ∧ day ≤ 31) : Civil where
  year := 2026
  month := 5
  day := day
  hour := 12
  minute := 0
  second := 0
  microsecond := 0
  validDate := ⟨by decide, by decide, by decide, by decide, h.1, h.2⟩
  validTime := Civil.validTime_noon

def firstNoon : Readings where
  clock _ := noonOf 1 (by decide)
  newId n := 10 + n

/-- A week later by the reading that decides the start, and not a day later by the next. -/
def setBack : Readings where
  clock n := if n = 0 then noonOf 8 (by decide) else noonOf 1 (by decide)
  newId n := 20 + n

/-- One post is reviewed and left to the operator. -/
def firstReview : List Event :=
  [.command (.applyResult 11 2 (.needsOperator .insufficientEvidence none) none none none) firstNoon,
    .command (.beginCall 11 1 5) firstNoon,
    .command (.claim 60) firstNoon,
    .command (.start .schedule 1 "model".toList "low".toList) firstNoon]

def secondStart : Event := .command (.start .schedule 1 "model".toList "low".toList) setBack

def reviewed (events : List Event) : List (Event × Unit) × World ModelInput :=
  runCalls (perform plainPlatform) (World.start twoPosts .empty) events

private theorem history_reviewed (events : List Event) :
    History (Step plainPlatform) (World.start twoPosts .empty) (reviewed events).1
      (reviewed events).2 :=
  history_runCalls _ _ events

theorem one_paid_call_firstReview :
    (reviewed firstReview).2.begun.length = 1 ∧
      ∀ input, (reviewed firstReview).2.begun.count input ≤
        (reviewed firstReview).2.released.count input + 1 :=
  ⟨by decide, (one_paid_call (history_reviewed firstReview)).1⟩

set_option maxRecDepth 8000 in
/-- Under a clock that goes back between the decision and the stamp of a start, two runs start
less than a week apart. -/
theorem started_too_soon :
    History (Step plainPlatform) (World.start twoPosts .empty)
        (reviewed (secondStart :: firstReview)).1 (reviewed (secondStart :: firstReview)).2 ∧
      ∃ run ∈ (reviewed (secondStart :: firstReview)).2.tables.runs,
        ∃ run' ∈ (reviewed (secondStart :: firstReview)).2.tables.runs,
          run.id ≠ run'.id ∧ ¬Apart run run' := by
  have hruns : (reviewed (secondStart :: firstReview)).2.tables.runs.rows.map
      (fun run => (run.id, run.startedAt)) =
        [(10, noonOf 1 (by decide)), (20, noonOf 1 (by decide))] := by rfl
  have hmem : ∀ id, id = 10 ∨ id = 20 →
      ∃ run ∈ (reviewed (secondStart :: firstReview)).2.tables.runs, run.id = id ∧
        run.startedAt = noonOf 1 (by decide) := by
    intro id hid
    have hpair : (id, noonOf 1 (by decide)) ∈
        (reviewed (secondStart :: firstReview)).2.tables.runs.rows.map
          fun run => (run.id, run.startedAt) := by
      rw [hruns]
      rcases hid with rfl | rfl
      · exact .head _
      · exact .tail _ (.head _)
    obtain ⟨run, hrun, heq⟩ := List.mem_map.1 hpair
    exact ⟨run, hrun, congrArg Prod.fst heq, congrArg Prod.snd heq⟩
  obtain ⟨run, hrun, hid, hstart⟩ := hmem 10 (.inl rfl)
  obtain ⟨run', hrun', hid', hstart'⟩ := hmem 20 (.inr rfl)
  refine ⟨history_reviewed _, run, hrun, run', hrun', by rw [hid, hid']; decide, ?_⟩
  rw [Apart, hstart, hstart', or_self, not_le]
  exact Nat.lt_add_of_pos_right (by decide)

end Cortex.Fallback
