import Cortex.Runs.ActiveRun

/-!
# What a run leaves when it ends

Each way of ending a run cleans up by itself, and none of them cleans up
everything: a transition leaves the actions of other attempts, an attempt that
fails unbound leaves the decisions that no source intent asked for, and a failed
action leaves those and every other action.  `ended_runs_closed` is about the
histories in which what a call would leave is not there when it ends a run;
`left_pending` is one in which a decision stays answerable on a dead run.
-/

namespace Cortex.Runs

open Control Time Transaction

variable {s s' : Ledger} {closes unarchived unclaimed : Prop}

/-- A run without work is given none by a command about another run. -/
theorem NoWork.kept {subject runId : ℕ} {own : ℕ → Prop} {adds : Prop} (h : NoWork s runId)
    (hwork : WorkFrame subject own adds s s') (hne : adds → runId ≠ subject) :
    NoWork s' runId := by
  have hrow : ∀ {ρ : Type} [WorkRow ρ] [Keyed ρ ℕ] {t t' : Table ρ},
      t.Grows WorkKept (WorkAdded subject own adds) t' →
      (∀ r ∈ t, WorkRow.runId r = runId → ¬WorkRow.isPending r) →
      ∀ r ∈ t', WorkRow.runId r = runId → ¬WorkRow.isPending r := by
    intro ρ _ _ t t' hgrows hold r' hr' hrun hpending
    rcases hgrows.origin r' hr' with ⟨r, hr, -, hkept⟩ | hnew
    · exact hold r hr (hkept.runId.symm.trans hrun) (hkept.pending hpending)
    · exact hne hnew.adds (hrun.symm.trans hnew.runId)
  exact ⟨hrow hwork.decisions h.decisions, hrow hwork.intents h.intents,
    hrow hwork.actions h.actions⟩

/-- Nothing is pending of a run that has ended. -/
def EndedClosed (s : Ledger) : Prop := ∀ r ∈ s.runs, r.state.isTerminal → NoWork s r.id

/-- A command about one run keeps the others closed. -/
theorem EndedClosed.of_step {adds : Prop} {T : Thread → Thread → Prop} {r r' : Run}
    (hclosed : EndedClosed s) (step : RunStep adds T s s' r r')
    (hsubject : r'.state.isTerminal → NoWork s' r.id) : EndedClosed s' := by
  intro q' hq' hterminal
  rcases step.origin hq' with rfl | ⟨hne, q, hq, hid, -, hstate, -⟩
  · rw [step.id]
    exact hsubject hterminal
  · have hold := hclosed q hq (hstate ▸ hterminal)
    rw [← hid] at hold
    exact hold.kept step.work fun _ => hne

theorem EndedClosed.kept (h : Effect closes unarchived unclaimed s s') (hcloses : closes)
    (hclosed : EndedClosed s) : EndedClosed s' := by
  cases h with
  | touched subject runs threads attempts states work =>
      intro r' hr' hterminal
      obtain ⟨r, hr, hkey, hsame⟩ := runs.source hr'
      have hold := hclosed r hr (hsame.state ▸ hterminal)
      rw [show r'.id = r.id from hkey]
      exact hold.kept work False.elim
  | archived threadId threads same =>
      rw [same]
      exact fun r hr hterminal => { hclosed r hr hterminal with }
  | created run attempt thread runs attempts threads hthread id hopen idle state own active first
      fresh work =>
      intro r hr hterminal
      rcases (Table.mem_insert runs).1 hr with hr | rfl
      · exact (hclosed r hr hterminal).kept work False.elim
      · rw [state] at hterminal
        exact absurd hterminal (by decide)
  | moved r r' step attempts active live live' =>
      exact hclosed.of_step step fun hterminal => absurd hterminal live'
  | finished r r' step attempts active terminal detached closed =>
      exact hclosed.of_step step fun _ => closed hcloses
  | restarted r r' attempt thread step attempts own active source fresh hthread threadId idle live' =>
      exact hclosed.of_step step fun hterminal => absurd hterminal live'
  | putBack r r' step attempts live state =>
      refine hclosed.of_step step fun hterminal => ?_
      rw [state] at hterminal
      exact absurd hterminal (by decide)
  | claimedRelease releaseId releases same =>
      rw [same]
      exact fun r hr hterminal => { hclosed r hr hterminal with }

section Histories

variable {Digest : Type} [DecidableEq Digest] {platform : Platform Digest}

/-- A committed call that ends a run finds nothing pending that it would leave. -/
def ClosesRuns (s : Store Digest) (event : Event) : Prop :=
  event.2.replayed = false → event.1.1.ClosesRun s.tables.ledger

/-- While no call ends a run with something pending that it leaves, a run that has ended has no
pending decision, source intent or action, and is the active run of no thread. -/
theorem ended_runs_closed {events : List Event} {s : Store Digest}
    (h : History (restrict (Step platform) ClosesRuns) emptyStore events s) :
    ∀ r ∈ s.tables.ledger.runs, r.state.isTerminal →
      (∀ d ∈ s.tables.ledger.decisions, d.runId = r.id → d.state ≠ .pending) ∧
        (∀ i ∈ s.tables.ledger.intents, i.runId = r.id → i.state ≠ .pending) ∧
        (∀ a ∈ s.tables.ledger.actions, a.runId = r.id → a.state ≠ .pending) ∧
        ∀ t ∈ s.tables.ledger.threads, t.activeRunId ≠ some r.id := by
  have hinv : WellFormed s.tables.ledger ∧ EndedClosed s.tables.ledger := by
    refine h.invariant (P := fun s => WellFormed s.tables.ledger ∧ EndedClosed s.tables.ledger)
      ⟨wellFormed_empty, fun r hr => absurd hr (Table.not_mem_empty r)⟩ ?_
    rintro s event s' ⟨hs, hclosed⟩ ⟨hstep, hcloses⟩
    refine ⟨step_wellFormed hs hstep, ?_⟩
    rcases step_effect hs hstep with ⟨-, rfl⟩ | ⟨hnew, heffect⟩
    · exact hclosed
    · exact hclosed.kept heffect (hcloses hnew)
  obtain ⟨hs, hclosed⟩ := hinv
  intro r hr hterminal
  obtain ⟨hdecisions, hintents, hactions⟩ := hclosed r hr hterminal
  refine ⟨hdecisions, hintents, hactions, fun t ht hactive => ?_⟩
  obtain ⟨r', hr', hid, -, hlive⟩ := hs.active t ht r.id hactive
  obtain rfl : r' = r := Table.eq_of_key hr' hr hid
  exact hlive hterminal

end Histories

/-- A run that fails before it is bound. -/
def failedRun : List (Call × Readings) :=
  (.failUnboundRun 2 3 0 ['c'] none true (someCaller 'c'), noon 0) :: firstRun

theorem ended_runs_closed_failedRun :
    ∃ r ∈ (after failedRun).2.tables.ledger.runs, r.state = .failed ∧
      (∀ d ∈ (after failedRun).2.tables.ledger.decisions, d.runId = r.id → d.state ≠ .pending) ∧
        ∀ t ∈ (after failedRun).2.tables.ledger.threads, t.activeRunId ≠ some r.id := by
  have hfirst : History (restrict (Step plainPlatform) ClosesRuns) emptyStore (after firstRun).1
      (after firstRun).2 := by
    refine (history_after firstRun).restrict fun event hevent s _ => ?_
    have hcall := mem_runCalls hevent
    simp only [firstRun, List.mem_cons, List.not_mem_nil, or_false] at hcall
    rcases hcall with h | h <;> rw [h] <;> trivial
  have hfailed : History (restrict (Step plainPlatform) ClosesRuns) emptyStore (after failedRun).1
      (after failedRun).2 := by
    refine hfirst.cons ⟨rfl, fun _ _ => ⟨fun d hd => ?_, fun a ha => ?_⟩⟩
    · exact absurd hd (List.not_mem_nil (a := d))
    · exact absurd ha (List.not_mem_nil (a := a))
  obtain ⟨hdecisions, -, -, hthreads⟩ := ended_runs_closed hfailed _ List.mem_cons_self (by decide)
  exact ⟨_, List.mem_cons_self, rfl, hdecisions, hthreads⟩

/-- A run asks for a decision, is cancelled, and fails with the delivery of the cancellation. -/
def leftPending : List (Call × Readings) :=
  let target : RuntimeTarget := ⟨3, 4, ['r'], some ['g']⟩
  let worker : TransitionTarget := ⟨some 3, some 4, some ['r'], some ['g']⟩
  let operator : TransitionTarget := ⟨none, none, none, none⟩
  let noCause : RuntimeCause := ⟨none, none, none⟩
  [ (.failRuntimeAction 6 ⟨['w'], 1⟩ 6 ['c'] (someCaller 'k'), noon 7)
  , (.claimRuntimeAction 6 ['w'] 60 (someCaller 'j'), noon 0)
  , (.transitionRun 2 .cancelRequested 5 none [] operator none noCause (someCaller 'i'), noon 6)
  , (.createDecision 2 target ['k'] ['p'] [⟨['y'], none, none⟩] none none 4 none noCause
      (someCaller 'h'), noon 5)
  , (.transitionRun 2 .running 3 none [] worker none noCause (someCaller 'g'), noon 0)
  , (.transitionRun 2 .starting 2 none [] worker none noCause (someCaller 'f'), noon 0)
  , (.pinAttemptRuntime 2 3 4 ['r'] (some ['g']) (some ['o']) 1 (someCaller 'e'), noon 0)
  , (.reserveAttemptDispatch 2 3 ['o'] ⟨['r'], ['g'], ['s'], ['d'], ['p']⟩ 0 60 (someCaller 'd'),
      noon 0)
  , (.createRuntimeBinding 1 ['x'] ['s'] 0 ['1'] none (someCaller 'c'), noon 4) ] ++ firstRun

theorem left_pending :
    ∃ events s, History (Step plainPlatform) emptyStore events s ∧
      ∃ r ∈ s.tables.ledger.runs, r.state = .failed ∧
        ∃ d ∈ s.tables.ledger.decisions, d.runId = r.id ∧ d.state = .pending :=
  ⟨_, _, history_after leftPending, _, List.mem_cons_self, rfl, _, List.mem_cons_self, rfl, rfl⟩

end Cortex.Runs
