import Cortex.OperationLedger.Ledger
import Mathlib.Logic.Function.Basic

/-!
# What an operation ledger is for

The abstract ledger: a register of operations, each unknown, in progress,
uncertain or final.  A restart settles what was in progress as uncertain.  Its
laws are about the effects that took place, whatever bytes carried them:

* an operation begins once (`begins_le_one`) and stays known (`begun_known`);
* a final outcome stays (`final_stays`), and is the one reported
  (`finished_final`);
* what began before a restart and has no outcome is uncertain
  (`unfinished_uncertain`).
-/

namespace Cortex.OperationLedger

open Control (Text)

/-- What each operation identifier reads. -/
abbrev Register := Text → OperationStatus

/-- What a call does to the register. -/
inductive Effect
  | settled
  | begun (operationId requestDigest : Text)
  | finished (operationId outcome resultDigest : Text)
  | nothing
  deriving DecidableEq

/-- A restart: nobody knows the outcome of what was in progress. -/
def OperationStatus.settled (status : OperationStatus) : OperationStatus :=
  if status.state = some .inProgress then { status with state := some .uncertain } else status

namespace Register

def initial : Register := fun _ => .unknown

def apply (r : Register) : Effect → Register
  | .settled => fun operationId => (r operationId).settled
  | .begun operationId requestDigest =>
      Function.update r operationId ⟨some .inProgress, some requestDigest, none⟩
  | .finished operationId outcome resultDigest =>
      Function.update r operationId
        ⟨(outcomeOf outcome).map Subtype.val, (r operationId).requestDigest, some resultDigest⟩
  | .nothing => r

/-- Only what is unknown begins, and only what began and has no outcome finishes. -/
def Allows (r : Register) : Effect → Prop
  | .begun operationId _ => r operationId = .unknown
  | .finished operationId outcome _ =>
      ((r operationId).state = some .inProgress ∨ (r operationId).state = some .uncertain) ∧
        (outcomeOf outcome).isSome = true
  | _ => True

def Step (r : Register) (effect : Effect) (r' : Register) : Prop :=
  r.Allows effect ∧ r' = r.apply effect

end Register

/-- The status of an operation that has an outcome. -/
def OperationStatus.Final (status : OperationStatus) : Prop :=
  ∃ phase : Phase, status.state = some phase ∧ phase.final

def Effect.begins (operationId : Text) : Effect → Bool
  | .begun operationId' _ => operationId' = operationId
  | _ => false

def Effect.finishes (operationId : Text) : Effect → Bool
  | .finished operationId' _ _ => operationId' = operationId
  | _ => false

/-! ## Steps -/

@[simp] theorem OperationStatus.settled_state_eq_none {status : OperationStatus} :
    status.settled.state = none ↔ status.state = none := by
  unfold settled
  split
  · rename_i h
    simp [h]
  · rfl

@[simp] theorem OperationStatus.settled_requestDigest (status : OperationStatus) :
    status.settled.requestDigest = status.requestDigest := by
  unfold settled
  split <;> rfl

private theorem OperationStatus.Final.settled_eq {status : OperationStatus} (h : status.Final) :
    status.settled = status := by
  obtain ⟨phase, hstate, hfinal⟩ := h
  have hne : status.state ≠ some .inProgress := by
    intro hprogress
    rw [hstate, Option.some.injEq] at hprogress
    subst hprogress
    rcases hfinal with h | h <;> contradiction
  exact if_neg hne

theorem OperationStatus.Final.known {status : OperationStatus} (h : status.Final) :
    status.state ≠ none := by
  obtain ⟨phase, hstate, -⟩ := h
  simp [hstate]

namespace Register

variable {r r' : Register} {effect : Effect} {operationId : Text}

theorem Step.final (h : Step r effect r') (hfinal : (r operationId).Final) :
    r' operationId = r operationId := by
  obtain ⟨hallows, rfl⟩ := h
  cases effect with
  | settled => exact hfinal.settled_eq
  | begun operationId' requestDigest =>
      refine Function.update_of_ne ?_ _ _
      rintro rfl
      exact hfinal.known (congrArg OperationStatus.state hallows)
  | finished operationId' outcome resultDigest =>
      refine Function.update_of_ne ?_ _ _
      rintro rfl
      obtain ⟨phase, hstate, hphase⟩ := hfinal
      obtain ⟨hopen, -⟩ := hallows
      rw [hstate] at hopen
      simp only [Option.some.injEq] at hopen
      rcases hopen with rfl | rfl <;> rcases hphase with h | h <;> contradiction
  | nothing => rfl

/-- What is known stays known, under the digest it began with. -/
theorem Step.known (h : Step r effect r') (hknown : (r operationId).state ≠ none) :
    (r' operationId).state ≠ none ∧
      (r' operationId).requestDigest = (r operationId).requestDigest := by
  obtain ⟨hallows, rfl⟩ := h
  cases effect with
  | settled => simpa [apply] using hknown
  | begun operationId' requestDigest =>
      have hne : operationId ≠ operationId' := by
        rintro rfl
        exact hknown (congrArg OperationStatus.state hallows)
      simpa [apply, Function.update_of_ne hne] using hknown
  | finished operationId' outcome resultDigest =>
      by_cases heq : operationId = operationId'
      · subst heq
        obtain ⟨phase, hphase⟩ := Option.isSome_iff_exists.1 hallows.2
        simp [apply, hphase]
      · simpa [apply, Function.update_of_ne heq] using hknown
  | nothing => exact ⟨hknown, rfl⟩

theorem Step.unknown (h : Step r effect r') (hunknown : (r' operationId).state = none) :
    (r operationId).state = none ∧ effect.begins operationId = false := by
  refine ⟨by_contra fun hknown => (h.known hknown).1 hunknown, ?_⟩
  obtain ⟨-, rfl⟩ := h
  cases effect with
  | begun operationId' requestDigest =>
      refine decide_eq_false ?_
      rintro rfl
      simp [apply] at hunknown
  | _ => rfl

/-! ## Runs -/

variable {effects later earlier : List Effect}

/-- What has not begun is unknown, and begins at most once. -/
theorem begins_le_one (h : History Step initial effects r) (operationId : Text) :
    effects.countP (Effect.begins operationId) ≤ 1 ∧
      ((r operationId).state = none → effects.countP (Effect.begins operationId) = 0) := by
  refine h.induction (P := fun effects r => effects.countP (Effect.begins operationId) ≤ 1 ∧
    ((r operationId).state = none → effects.countP (Effect.begins operationId) = 0))
    ⟨Nat.zero_le 1, fun _ => rfl⟩ ?_
  rintro effects r effect r' ⟨hle, hzero⟩ hstep
  rw [List.countP_cons]
  by_cases hbegins : effect.begins operationId = true
  · -- The operation was unknown before it began, so it had not begun.
    have hunknown : (r operationId).state = none := by
      cases effect with
      | begun operationId' requestDigest =>
          have heq : operationId' = operationId := of_decide_eq_true hbegins
          rw [← heq]
          exact congrArg OperationStatus.state hstep.1
      | _ => contradiction
    rw [if_pos hbegins, hzero hunknown]
    refine ⟨le_rfl, fun hnone => ?_⟩
    rw [(hstep.unknown hnone).2] at hbegins
    contradiction
  · rw [if_neg hbegins, Nat.add_zero]
    exact ⟨hle, fun hnone => hzero (hstep.unknown hnone).1⟩

/-- An outcome never changes again. -/
theorem final_stays (h : History Step r later r') (hfinal : (r operationId).Final) :
    r' operationId = r operationId := by
  refine h.invariant (P := fun r' => r' operationId = r operationId) rfl ?_
  intro s effect s' heq hstep
  have hs : (s operationId).Final := by
    rw [heq]
    exact hfinal
  rw [hstep.final hs, heq]

private theorem known_stays (h : History Step r later r') (hknown : (r operationId).state ≠ none) :
    (r' operationId).state ≠ none ∧
      (r' operationId).requestDigest = (r operationId).requestDigest := by
  refine h.invariant (P := fun r' => (r' operationId).state ≠ none ∧
    (r' operationId).requestDigest = (r operationId).requestDigest) ⟨hknown, rfl⟩ ?_
  rintro s effect s' ⟨hs, hdigest⟩ hstep
  obtain ⟨hs', hdigest'⟩ := hstep.known hs
  exact ⟨hs', hdigest'.trans hdigest⟩

/-- A history goes through the effects it lists. -/
private theorem split_of_mem (h : History Step initial effects r) (hmem : effect ∈ effects) :
    ∃ later earlier before after, effects = later ++ effect :: earlier ∧
      History Step initial earlier before ∧ Step before effect after ∧
      History Step after later r := by
  obtain ⟨later, earlier, rfl⟩ := List.append_of_mem hmem
  obtain ⟨after, hafter, hlater⟩ := h.split
  cases hafter with
  | cons hearlier hstep => exact ⟨later, earlier, _, after, rfl, hearlier, hstep, hlater⟩

/-- What began is known, under its digest. -/
theorem begun_known {requestDigest : Text} (h : History Step initial effects r)
    (hmem : Effect.begun operationId requestDigest ∈ effects) :
    (r operationId).state ≠ none ∧ (r operationId).requestDigest = some requestDigest := by
  obtain ⟨later, earlier, before, after, -, -, ⟨-, rfl⟩, hlater⟩ := split_of_mem h hmem
  have hbegun : before.apply (.begun operationId requestDigest) operationId =
      ⟨some .inProgress, some requestDigest, none⟩ := Function.update_self _ _ _
  have hknown : (before.apply (.begun operationId requestDigest) operationId).state ≠ none := by
    simp [hbegun]
  have hstays := known_stays hlater hknown
  rw [hbegun] at hstays
  exact hstays

/-- A finished operation has the outcome and the result that were reported. -/
theorem finished_final {outcome resultDigest : Text} (h : History Step initial effects r)
    (hmem : Effect.finished operationId outcome resultDigest ∈ effects) :
    (r operationId).Final ∧ (r operationId).state = (outcomeOf outcome).map Subtype.val ∧
      (r operationId).resultDigest = some resultDigest := by
  obtain ⟨later, earlier, before, after, -, -, ⟨⟨-, houtcome⟩, rfl⟩, hlater⟩ := split_of_mem h hmem
  have hfinished : before.apply (.finished operationId outcome resultDigest) operationId =
      ⟨(outcomeOf outcome).map Subtype.val, (before operationId).requestDigest,
        some resultDigest⟩ := Function.update_self _ _ _
  obtain ⟨phase, hphase⟩ := Option.isSome_iff_exists.1 houtcome
  have hfinal : (before.apply (.finished operationId outcome resultDigest) operationId).Final := by
    rw [hfinished, hphase]
    exact ⟨phase.val, rfl, phase.property⟩
  rw [final_stays hlater hfinal]
  refine ⟨hfinal, ?_, ?_⟩ <;> rw [hfinished]

/-- An operation without a finish has no outcome; what it read before a restart is settled. -/
private theorem unfinished_stays {status : OperationStatus} (h : History Step r later r')
    (hstatus : r operationId = status) (hsettled : status.settled = status)
    (hknown : status.state ≠ none)
    (hunfinished : ∀ effect ∈ later, effect.finishes operationId = false) :
    r' operationId = status := by
  induction h with
  | nil => exact hstatus
  | @cons effects s s' effect _ hstep ih =>
      have hs := ih fun e he => hunfinished e (List.mem_cons_of_mem _ he)
      have hnot := hunfinished effect List.mem_cons_self
      obtain ⟨hallows, rfl⟩ := hstep
      cases effect with
      | settled =>
          rw [← hsettled, ← hs]
          rfl
      | begun operationId' requestDigest =>
          rw [← hs]
          refine Function.update_of_ne ?_ _ _
          rintro rfl
          have hunknown := congrArg OperationStatus.state hallows
          rw [hs] at hunknown
          exact hknown hunknown
      | finished operationId' outcome resultDigest =>
          rw [← hs]
          exact Function.update_of_ne (Ne.symm (of_decide_eq_false hnot)) _ _
      | nothing => exact hs

/-- While nothing finishes an operation, it is unknown, in progress or uncertain. -/
private theorem unfinished_open (h : History Step initial effects r)
    (hunfinished : ∀ effect ∈ effects, effect.finishes operationId = false) :
    (r operationId).state ∈ [none, some .inProgress, some .uncertain] ∧
      (r operationId).resultDigest = none := by
  induction h with
  | nil => simp [initial, OperationStatus.unknown]
  | @cons effects s s' effect _ hstep ih =>
      have hs := ih fun e he => hunfinished e (List.mem_cons_of_mem _ he)
      have hnot := hunfinished effect List.mem_cons_self
      obtain ⟨hallows, rfl⟩ := hstep
      cases effect with
      | settled =>
          simp only [apply, OperationStatus.settled]
          split
          · exact ⟨by simp, hs.2⟩
          · exact hs
      | begun operationId' requestDigest =>
          by_cases heq : operationId = operationId'
          · subst heq
            simp [apply]
          · rw [apply, Function.update_of_ne heq]
            exact hs
      | finished operationId' outcome resultDigest =>
          rw [apply, Function.update_of_ne (Ne.symm (of_decide_eq_false hnot))]
          exact hs
      | nothing => exact hs

/-- What began before a restart and did not finish is uncertain after it. -/
theorem unfinished_uncertain {requestDigest : Text}
    (h : History Step initial (later ++ .settled :: earlier) r)
    (hbegun : Effect.begun operationId requestDigest ∈ earlier)
    (hunfinished : ∀ effect ∈ later ++ .settled :: earlier, effect.finishes operationId = false) :
    r operationId = ⟨some .uncertain, some requestDigest, none⟩ := by
  obtain ⟨after, hafter, hlater⟩ := h.split
  cases hafter with
  | @cons _ before _ _ hearlier hstep =>
      obtain ⟨-, rfl⟩ := hstep
      have hearlierUnfinished : ∀ effect ∈ earlier, effect.finishes operationId = false :=
        fun effect heffect =>
          hunfinished effect (List.mem_append_right later (List.mem_cons_of_mem _ heffect))
      have hopen := unfinished_open hearlier hearlierUnfinished
      obtain ⟨hknown, hdigest⟩ := begun_known hearlier hbegun
      have hsettled : (before operationId).settled =
          ⟨some .uncertain, some requestDigest, none⟩ := by
        generalize before operationId = status at hopen hknown hdigest
        obtain ⟨state, digest, result⟩ := status
        simp only [List.mem_cons, List.not_mem_nil, or_false] at hopen hdigest
        obtain ⟨hstate, rfl⟩ := hopen
        subst hdigest
        rcases hstate with rfl | rfl | rfl
        · exact absurd rfl hknown
        · rfl
        · rfl
      exact unfinished_stays hlater hsettled rfl (by simp) fun effect heffect =>
        hunfinished effect (List.mem_append_left _ heffect)

end Register

end Cortex.OperationLedger
