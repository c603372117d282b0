import Mathlib.Logic.Basic
import Mathlib.Data.List.Forall2

/-!
# Transactions that either commit or raise

A transaction is a computation in `Except ε`: `.ok` commits its result, and
`.error` rolls back, so that a caller keeps the state it had.  The lemmas here
take a committed transaction apart into the steps it went through.  `Raises P` is
about transactions that do not commit: whatever error they raise satisfies `P`.
-/

namespace Cortex.Transaction

universe u v

variable {ε : Type v} {α β : Type u}

/-- Raise `error` unless the condition holds. -/
def require (p : Prop) [Decidable p] (error : ε) : Except ε Unit :=
  if p then .ok () else .error error

/-- Raise `error` for an absent value. -/
def orRaise (value : Option α) (error : ε) : Except ε α :=
  match value with
  | some a => .ok a
  | none => .error error

@[simp] theorem require_eq_ok {p : Prop} [Decidable p] {error : ε} {u : Unit} :
    require p error = .ok u ↔ p := by
  unfold require
  split <;> simp_all

@[simp] theorem orRaise_eq_ok {value : Option α} {error : ε} {a : α} :
    orRaise value error = .ok a ↔ value = some a := by
  cases value <;> simp [orRaise]

@[simp] theorem bind_eq_ok {x : Except ε α} {f : α → Except ε β} {b : β} :
    (x >>= f) = .ok b ↔ ∃ a, x = .ok a ∧ f a = .ok b := by
  cases x <;> simp [bind, Except.bind]

@[simp] theorem pure_eq_ok {a b : α} : (pure a : Except ε α) = .ok b ↔ a = b := by
  simp [pure, Except.pure]

theorem map_eq_ok {x : Except ε α} {f : α → β} {b : β} :
    f <$> x = .ok b ↔ ∃ a, x = .ok a ∧ f a = b := by
  cases x <;> simp [Functor.map, Except.map]

@[simp] theorem error_bind {error : ε} {f : α → Except ε β} :
    ((.error error : Except ε α) >>= f) = .error error := rfl

@[simp] theorem ok_bind {a : α} {f : α → Except ε β} : ((.ok a : Except ε α) >>= f) = f a := rfl

@[simp] theorem throw_eq_ok {error : ε} {a : α} :
    ((throw error : Except ε α) = .ok a) ↔ False := by
  simp [throw, throwThe, MonadExceptOf.throw]

/-- A step for every element of a list: the results belong to the elements, one by one. -/
theorem forall₂_of_mapM {f : α → Except ε β} {l : List α} {l' : List β} (h : l.mapM f = .ok l') :
    List.Forall₂ (fun a b => f a = .ok b) l l' := by
  induction l generalizing l' with
  | nil =>
      rw [List.mapM_nil, pure_eq_ok] at h
      subst h
      exact .nil
  | cons a l ih =>
      simp only [List.mapM_cons, bind_eq_ok, pure_eq_ok] at h
      obtain ⟨b, hb, rest, hrest, rfl⟩ := h
      exact .cons hb (ih hrest)

/-! ## What a transaction may raise -/

/-- Every error that the transaction raises satisfies `P`. -/
def Raises (P : ε → Prop) (x : Except ε α) : Prop := ∀ error, x = .error error → P error

section Raises

variable {P : ε → Prop}

theorem Raises.pure {a : α} : Raises P (pure a : Except ε α) := by
  intro error h
  cases h

theorem Raises.require {p : Prop} [Decidable p] {error : ε} (h : P error) :
    Raises P (require p error) := by
  intro error' herror
  unfold Transaction.require at herror
  split at herror
  · cases herror
  · injection herror with herror
    exact herror ▸ h

theorem Raises.orRaise {value : Option α} {error : ε} (h : P error) :
    Raises P (orRaise value error) := by
  intro error' herror
  cases value with
  | some a => cases herror
  | none =>
      injection herror with herror
      exact herror ▸ h

/-- A step that commits hands its result on. -/
theorem Raises.of_ok {x : Except ε α} {a : α} (h : x = .ok a) : Raises P x := by
  intro error herror
  rw [h] at herror
  cases herror

theorem Raises.bind {x : Except ε α} {f : α → Except ε β} (h : Raises P x)
    (hf : ∀ a, x = .ok a → Raises P (f a)) : Raises P (x >>= f) := by
  intro error herror
  cases x with
  | ok a => exact hf a rfl error herror
  | error error' =>
      injection herror with herror
      exact herror ▸ h error' rfl

end Raises

end Cortex.Transaction
