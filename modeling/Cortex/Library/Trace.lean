import Mathlib.Data.List.Basic

/-!
# Traces

A trace is a list of events, the latest first.  `Along P trace` says of each event what `P`
says of it and of the events before it.
-/

namespace Cortex

variable {ε : Type*} {P Q : ε → List ε → Prop} {event : ε} {trace earlier later : List ε}

/-- Each event of a trace is as `P` wants it after the earlier ones. -/
def Along (P : ε → List ε → Prop) : List ε → Prop
  | [] => True
  | event :: earlier => P event earlier ∧ Along P earlier

@[simp] theorem along_nil : Along P [] := trivial

@[simp] theorem along_cons : Along P (event :: earlier) ↔ P event earlier ∧ Along P earlier :=
  Iff.rfl

theorem Along.of_append (h : Along P (later ++ earlier)) : Along P earlier := by
  induction later with
  | nil => exact h
  | cons event later ih => exact ih h.2

/-- What holds along a trace, at one of its events. -/
theorem Along.at (h : Along P trace) (htrace : trace = later ++ event :: earlier) :
    P event earlier := by
  subst htrace
  exact h.of_append.1

theorem Along.mono (h : Along P trace) (himp : ∀ event earlier, P event earlier → Q event earlier) :
    Along Q trace := by
  induction trace with
  | nil => trivial
  | cons event earlier ih => exact ⟨himp _ _ h.1, ih h.2⟩

end Cortex
