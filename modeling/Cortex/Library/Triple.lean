import Mathlib.Logic.Basic

/-!
# Computations whose state survives a raise

A computation in `EStateM ε σ` may raise, and what it did to the state before
stands.  `Triple P m Q R` says where `m` may end when it starts where `P` holds:
it returns `a` only where `Q a` holds, and raises only where `R` holds.
-/

namespace Cortex

variable {ε σ α β : Type}

/-- Started where `P` holds, `m` returns `a` where `Q a` holds and raises where `R` holds. -/
def Triple (P : σ → Prop) (m : EStateM ε σ α) (Q : α → σ → Prop) (R : σ → Prop) : Prop :=
  ∀ s, P s →
    match m s with
    | .ok a s' => Q a s'
    | .error _ s' => R s'

/-- Run a computation and report what it raised, as `try` does. -/
def attempt (m : EStateM ε σ α) : EStateM ε σ (Except ε α) := fun s =>
  match m s with
  | .ok a s' => .ok (.ok a) s'
  | .error e s' => .ok (.error e) s'

/-- The state in which a computation ends, whether it returns or raises. -/
def finalState (m : EStateM ε σ α) (s : σ) : σ :=
  match m s with
  | .ok _ s' => s'
  | .error _ s' => s'

namespace Triple

variable {P P' : σ → Prop} {m : EStateM ε σ α} {Q Q' : α → σ → Prop} {R R' : σ → Prop}

theorem conseq (h : Triple P m Q R) (hpre : ∀ s, P' s → P s) (hpost : ∀ a s, Q a s → Q' a s)
    (hraise : ∀ s, R s → R' s) : Triple P' m Q' R' := by
  intro s hs
  have hm := h s (hpre s hs)
  split at hm
  · exact hpost _ _ hm
  · exact hraise _ hm

theorem raise {e : ε} (h : ∀ s, P s → R s) : Triple P (throw e : EStateM ε σ α) Q R := h

theorem update {f : σ → σ} {Q : Unit → σ → Prop} (h : ∀ s, P s → Q () (f s)) :
    Triple P (modify f : EStateM ε σ Unit) Q R := h

theorem read {Q : σ → σ → Prop} (h : ∀ s, P s → Q s s) :
    Triple P (get : EStateM ε σ σ) Q R := h

theorem bind {f : α → EStateM ε σ β} {Q' : β → σ → Prop} (h : Triple P m Q R)
    (hf : ∀ a, Triple (Q a) (f a) Q' R) : Triple P (m >>= f) Q' R := by
  intro s hs
  have hm := h s hs
  simp only [Bind.bind, EStateM.bind]
  cases hmatch : m s with
  | ok a s' =>
      rw [hmatch] at hm
      exact hf a s' hm
  | error e s' =>
      rw [hmatch] at hm
      exact hm

theorem attempt {E : Except ε α → σ → Prop} (h : Triple P m Q R)
    (hok : ∀ a s, Q a s → E (.ok a) s) (hraise : ∀ e s, R s → E (.error e) s) :
    Triple P (attempt m) E R' := by
  intro s hs
  have hm := h s hs
  unfold Cortex.attempt
  cases hmatch : m s with
  | ok a s' =>
      rw [hmatch] at hm
      exact hok a s' hm
  | error e s' =>
      rw [hmatch] at hm
      exact hraise e s' hm

theorem finalState {I : σ → Prop} (h : Triple P m (fun _ => I) I) {s : σ} (hs : P s) :
    I (finalState m s) := by
  have hm := h s hs
  unfold Cortex.finalState
  split at hm <;> simp_all only

end Triple

end Cortex
