import Mathlib.Logic.Basic
import Mathlib.Data.List.Basic

/-!
# Histories of a transition system

`History step start events last` says that `events`, the latest first, lead from
`start` to `last` one step after the other.  An invariant is proved once for the
start and once for a step (`History.invariant`), also when it speaks about the
events so far (`History.induction`), or when the steps are promised to satisfy a
condition on the state they start from (`restrict`).
-/

namespace Cortex

variable {σ ε : Type*}

/-- The runs of a step relation, with the committed events, the latest first. -/
inductive History (step : σ → ε → σ → Prop) (start : σ) : List ε → σ → Prop
  | nil : History step start [] start
  | cons {events : List ε} {s s' : σ} {event : ε} :
      History step start events s → step s event s' → History step start (event :: events) s'

namespace History

variable {step : σ → ε → σ → Prop} {start s s' : σ} {events later earlier : List ε}

/-- What holds at the start and is kept by every step holds in every state reached. -/
theorem invariant {P : σ → Prop} (hstart : P start)
    (hstep : ∀ {s event s'}, P s → step s event s' → P s') (h : History step start events s) :
    P s := by
  induction h with
  | nil => exact hstart
  | cons _ hs ih => exact hstep ih hs

/-- The same for a property of the state together with the events that led to it. -/
theorem induction {P : List ε → σ → Prop} (hstart : P [] start)
    (hstep : ∀ {events s event s'}, P events s → step s event s' → P (event :: events) s')
    (h : History step start events s) : P events s := by
  induction h with
  | nil => exact hstart
  | cons _ hs ih => exact hstep ih hs

/-- A history can be cut at any event. -/
theorem split (h : History step start (later ++ earlier) s) :
    ∃ m, History step start earlier m ∧ History step m later s := by
  induction later generalizing s with
  | nil => exact ⟨s, h, nil⟩
  | cons event later ih =>
      cases h with
      | cons h hs =>
          obtain ⟨m, hearlier, hlater⟩ := ih h
          exact ⟨m, hearlier, hlater.cons hs⟩

/-- The step of one of the events. -/
theorem step_at {event : ε} (h : History step start (later ++ event :: earlier) s) :
    ∃ m m', History step start earlier m ∧ step m event m' ∧ History step m' later s := by
  obtain ⟨m', hevent, hlater⟩ := h.split
  cases hevent with
  | cons hearlier hs => exact ⟨_, m', hearlier, hs, hlater⟩

/-- Where a step has one end at most, the events determine the state reached. -/
theorem unique (h : History step start events s) (h' : History step start events s')
    (hstep : ∀ {s event s₁ s₂}, step s event s₁ → step s event s₂ → s₁ = s₂) : s = s' := by
  induction h generalizing s' with
  | nil =>
      cases h'
      rfl
  | cons _ hs ih =>
      cases h' with
      | cons hevents hs' =>
          obtain rfl := ih hevents
          exact hstep hs hs'

theorem append {m : σ} (h : History step start earlier m) (h' : History step m later s) :
    History step start (later ++ earlier) s := by
  induction h' with
  | nil => exact h
  | cons _ hs ih => exact ih.cons hs

/-- A history of a stronger step relation is one of the weaker. -/
theorem mono {step' : σ → ε → σ → Prop} (hstep : ∀ {s event s'}, step s event s' → step' s event s')
    (h : History step start events s) : History step' start events s := by
  induction h with
  | nil => exact nil
  | cons _ hs ih => exact ih.cons (hstep hs)

end History

/-! ## Runs of calls that commit or raise -/

section Calls

variable {ι ρ η : Type*} (exec : σ → ι → Except η (σ × ρ))

/-- A committed call, with its reply. -/
def Commits (s : σ) (event : ι × ρ) (s' : σ) : Prop := exec s event.1 = .ok (s', event.2)

/-- Perform calls, the latest first; a call that raises leaves the state as it was. -/
def runCalls (start : σ) : List ι → List (ι × ρ) × σ
  | [] => ([], start)
  | call :: earlier =>
      match exec (runCalls start earlier).2 call with
      | .ok (s', reply) => ((call, reply) :: (runCalls start earlier).1, s')
      | .error _ => runCalls start earlier

theorem history_runCalls (start : σ) (calls : List ι) :
    History (Commits exec) start (runCalls exec start calls).1 (runCalls exec start calls).2 := by
  induction calls with
  | nil => exact .nil
  | cons call earlier ih =>
      unfold runCalls
      split
      · rename_i s' reply hcall
        exact ih.cons hcall
      · exact ih

end Calls

section Performed

variable {ι η : Type*} (perform : σ → ι → Except η σ)

/-- Perform commands, the latest first, that all commit. -/
def performAll (start : σ) : List ι → Except η σ
  | [] => .ok start
  | command :: earlier =>
      match performAll start earlier with
      | .ok s => perform s command
      | .error error => .error error

/-- The state after commands that all commit. -/
def after (start : σ) (commands : List ι) : σ :=
  (performAll perform start commands).toOption.getD start

theorem history_after {start : σ} {commands : List ι}
    (h : (performAll perform start commands).isOk = true) :
    History (fun s command s' => perform s command = .ok s') start commands
      (after perform start commands) := by
  induction commands with
  | nil => exact .nil
  | cons command earlier ih =>
      cases hearlier : performAll perform start earlier with
      | error error =>
          rw [performAll, hearlier] at h
          cases h
      | ok m =>
          have hlast : performAll perform start (command :: earlier) = perform m command := by
            rw [performAll, hearlier]
          have hm : after perform start earlier = m := by
            rw [after, hearlier]
            rfl
          rw [hearlier, hm] at ih
          cases hcommand : perform m command with
          | error error =>
              rw [hlast, hcommand] at h
              cases h
          | ok s =>
              rw [after, hlast, hcommand]
              exact (ih rfl).cons hcommand

end Performed

/-- The steps whose start and event meet a condition. -/
def restrict (step : σ → ε → σ → Prop) (condition : σ → ε → Prop) (s : σ) (event : ε) (s' : σ) :
    Prop :=
  step s event s' ∧ condition s event

/-- A history whose events meet the condition in every state meets it along the way. -/
theorem History.restrict {step : σ → ε → σ → Prop} {condition : σ → ε → Prop} {start s : σ}
    {events : List ε} (h : History step start events s)
    (hcondition : ∀ event ∈ events, ∀ s, condition s event) :
    History (restrict step condition) start events s := by
  induction h with
  | nil => exact .nil
  | cons _ hs ih =>
      refine (ih fun event hevent => hcondition event (.tail _ hevent)).cons ⟨hs, ?_⟩
      exact hcondition _ (.head _) _

theorem mem_runCalls {ι ρ η : Type*} {exec : σ → ι → Except η (σ × ρ)} {start : σ}
    {calls : List ι} {event : ι × ρ} (h : event ∈ (runCalls exec start calls).1) :
    event.1 ∈ calls := by
  induction calls with
  | nil => cases h
  | cons call earlier ih =>
      unfold runCalls at h
      split at h
      · rcases List.mem_cons.1 h with rfl | h
        · exact .head _
        · exact .tail _ (ih h)
      · exact .tail _ (ih h)

end Cortex
