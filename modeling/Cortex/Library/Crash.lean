import Cortex.Library.Transaction
import Mathlib.Data.List.GetD

/-!
# Procedures that a crash may stop

A procedure changes a durable state in atomic steps and then returns or raises.
`Outcome.passed` lists the states before each of its steps, so a crash leaves one
of `Outcome.left`: the `k`-th of them when `k` steps were made.  `Guarded P p C Q E`
is a Hoare triple with a condition `C` for the crashes, and `Keeps I p` the one whose
conditions are all `I`.
-/

namespace Cortex

/-- The states that a procedure passed, the state it ended in and its result. -/
structure Outcome (σ ε α : Type) where
  passed : List σ
  final : σ
  result : Except ε α

namespace Outcome

variable {σ ε α : Type}

/-- The states that a crash can leave. -/
def left (o : Outcome σ ε α) : List σ :=
  o.passed ++ [o.final]

/-- The state that a crash after `k` steps leaves. -/
def crashed (o : Outcome σ ε α) (k : ℕ) : σ :=
  o.passed.getD k o.final

theorem final_mem_left (o : Outcome σ ε α) : o.final ∈ o.left :=
  List.mem_append_right _ (.head _)

theorem crashed_mem_left (o : Outcome σ ε α) (k : ℕ) : o.crashed k ∈ o.left := by
  unfold crashed left
  rcases Nat.lt_or_ge k o.passed.length with hk | hk
  · rw [List.getD_eq_getElem _ _ hk]
    exact List.mem_append_left _ (List.getElem_mem hk)
  · rw [List.getD_eq_default _ _ hk]
    exact List.mem_append_right _ (.head _)

theorem crashed_of_le {o : Outcome σ ε α} {k : ℕ} (hk : o.passed.length ≤ k) :
    o.crashed k = o.final :=
  List.getD_eq_default _ _ hk

variable {passed passed' : List σ} {final : σ} {result : Except ε α} {k : ℕ}

theorem crashed_before (hk : k < passed.length) :
    (Outcome.mk (passed ++ passed') final result).crashed k ∈ passed := by
  unfold crashed
  rw [List.getD_append _ _ _ _ hk, List.getD_eq_getElem _ _ hk]
  exact List.getElem_mem hk

theorem crashed_append (i : ℕ) :
    (Outcome.mk (passed ++ passed') final result).crashed (passed.length + i) =
      (Outcome.mk passed' final result).crashed i := by
  unfold crashed
  rw [List.getD_append_right _ _ _ _ (Nat.le_add_right _ _), Nat.add_sub_cancel_left]

end Outcome

/-- A procedure on durable states. -/
def Procedure (σ ε α : Type) : Type :=
  σ → Outcome σ ε α

namespace Procedure

variable {σ ε α β : Type}

instance : Monad (Procedure σ ε) where
  pure a s := ⟨[], s, .ok a⟩
  bind p f s :=
    match (p s).result with
    | .ok a =>
        ⟨(p s).passed ++ (f a (p s).final).passed, (f a (p s).final).final,
          (f a (p s).final).result⟩
    | .error e => ⟨(p s).passed, (p s).final, .error e⟩

def read : Procedure σ ε σ := fun s =>
  ⟨[], s, .ok s⟩

/-- One atomic durable step. -/
def write (f : σ → σ) : Procedure σ ε Unit := fun s =>
  ⟨[s], f s, .ok ()⟩

def raise (e : ε) : Procedure σ ε α := fun s =>
  ⟨[], s, .error e⟩

/-- What was decided without a step. -/
def lift (x : Except ε α) : Procedure σ ε α := fun s =>
  ⟨[], s, x⟩

/-- `try: p` with `except: handler`. -/
def rescue (p : Procedure σ ε α) (handler : ε → Procedure σ ε α) : Procedure σ ε α := fun s =>
  match (p s).result with
  | .ok a => ⟨(p s).passed, (p s).final, .ok a⟩
  | .error e =>
      ⟨(p s).passed ++ (handler e (p s).final).passed, (handler e (p s).final).final,
        (handler e (p s).final).result⟩

/-- One procedure for each element of a list, in order. -/
def each (f : β → Procedure σ ε Unit) : List β → Procedure σ ε Unit
  | [] => pure ()
  | b :: bs => do
      f b
      each f bs

section Runs

variable (s : σ)

@[simp] theorem pure_run (a : α) : (pure a : Procedure σ ε α) s = ⟨[], s, .ok a⟩ :=
  rfl

@[simp] theorem read_run : (read : Procedure σ ε σ) s = ⟨[], s, .ok s⟩ :=
  rfl

@[simp] theorem write_run (f : σ → σ) : (write f : Procedure σ ε Unit) s = ⟨[s], f s, .ok ()⟩ :=
  rfl

@[simp] theorem raise_run (e : ε) : (raise e : Procedure σ ε α) s = ⟨[], s, .error e⟩ :=
  rfl

@[simp] theorem lift_run (x : Except ε α) : (lift x : Procedure σ ε α) s = ⟨[], s, x⟩ :=
  rfl

theorem bind_run_ok {p : Procedure σ ε α} {f : α → Procedure σ ε β} {passed : List σ} {final : σ}
    {a : α} (h : p s = ⟨passed, final, .ok a⟩) :
    (p >>= f) s = ⟨passed ++ (f a final).passed, (f a final).final, (f a final).result⟩ := by
  simp only [bind, h]

theorem bind_run_error {p : Procedure σ ε α} {f : α → Procedure σ ε β} {passed : List σ}
    {final : σ} {e : ε} (h : p s = ⟨passed, final, .error e⟩) :
    (p >>= f) s = ⟨passed, final, .error e⟩ := by
  simp only [bind, h]

theorem require_run {φ : Prop} [Decidable φ] {e : ε} {f : Unit → Procedure σ ε β} (h : φ) :
    (lift (Transaction.require φ e) >>= f) s = f () s := by
  simp only [bind, lift_run, Transaction.require, if_pos h]
  rfl

theorem refuse_run {φ : Prop} [Decidable φ] {e : ε} {f : Unit → Procedure σ ε β} (h : ¬φ) :
    (lift (Transaction.require φ e) >>= f) s = ⟨[], s, .error e⟩ := by
  simp only [bind, lift_run, Transaction.require, if_neg h]

/-- Renaming the result changes no state. -/
theorem map_run (p : Procedure σ ε α) (g : α → β) :
    ((g <$> p) s).passed = (p s).passed ∧ ((g <$> p) s).final = (p s).final := by
  cases hrun : (p s).result with
  | ok a =>
      have hbind := bind_run_ok s (f := fun a => (pure (g a) : Procedure σ ε β))
        (show p s = ⟨(p s).passed, (p s).final, .ok a⟩ by rw [← hrun])
      rw [pure_run, List.append_nil] at hbind
      constructor
      · exact congrArg Outcome.passed hbind
      · exact congrArg Outcome.final hbind
  | error e =>
      have hbind := bind_run_error s (f := fun a => (pure (g a) : Procedure σ ε β))
        (show p s = ⟨(p s).passed, (p s).final, .error e⟩ by rw [← hrun])
      constructor
      · exact congrArg Outcome.passed hbind
      · exact congrArg Outcome.final hbind

theorem crashed_map (p : Procedure σ ε α) (g : α → β) (k : ℕ) :
    ((g <$> p) s).crashed k = (p s).crashed k := by
  rw [Outcome.crashed, Outcome.crashed, (map_run s p g).1, (map_run s p g).2]

theorem left_map (p : Procedure σ ε α) (g : α → β) : ((g <$> p) s).left = (p s).left := by
  rw [Outcome.left, Outcome.left, (map_run s p g).1, (map_run s p g).2]

theorem rescue_run_ok {p : Procedure σ ε α} {handler : ε → Procedure σ ε α} {passed : List σ}
    {final : σ} {a : α} (h : p s = ⟨passed, final, .ok a⟩) :
    rescue p handler s = ⟨passed, final, .ok a⟩ := by
  simp only [rescue, h]

theorem rescue_run_error {p : Procedure σ ε α} {handler : ε → Procedure σ ε α} {passed : List σ}
    {final : σ} {e : ε} (h : p s = ⟨passed, final, .error e⟩) :
    rescue p handler s =
      ⟨passed ++ (handler e final).passed, (handler e final).final, (handler e final).result⟩ := by
  simp only [rescue, h]

end Runs

end Procedure

/-! ## Crash triples -/

/-- Started where `P` holds, every state that `p` passes or leaves satisfies `C`; `p` returns `a`
where `Q a` holds and raises where `E` holds. -/
def Guarded {σ ε α : Type} (P : σ → Prop) (p : Procedure σ ε α) (C : σ → Prop)
    (Q : α → σ → Prop) (E : σ → Prop) : Prop :=
  ∀ s, P s → (∀ s' ∈ (p s).left, C s') ∧
    match (p s).result with
    | .ok a => Q a (p s).final
    | .error _ => E (p s).final

namespace Guarded

variable {σ ε α β : Type} {P : σ → Prop} {C : σ → Prop} {Q : α → σ → Prop} {E : σ → Prop}

open Procedure

theorem crashed {p : Procedure σ ε α} (h : Guarded P p C Q E) {s : σ} (hs : P s) (k : ℕ) :
    C ((p s).crashed k) :=
  (h s hs).1 _ ((p s).crashed_mem_left k)

theorem final {p : Procedure σ ε α} (h : Guarded P p C Q E) {s : σ} (hs : P s) :
    C (p s).final :=
  (h s hs).1 _ (p s).final_mem_left

/-- Where a procedure ends, whether it returns or raises. -/
theorem ends {p : Procedure σ ε α} (h : Guarded P p C (fun _ => E) E) {s : σ} (hs : P s) :
    E (p s).final := by
  have hp := (h s hs).2
  split at hp
  · exact hp
  · exact hp

theorem conseq {p : Procedure σ ε α} {P' : σ → Prop} {Q' : α → σ → Prop} {E' : σ → Prop}
    (h : Guarded P p C Q E) (hpre : ∀ s, P' s → P s) (hpost : ∀ a s, Q a s → Q' a s)
    (hraise : ∀ s, E s → E' s) : Guarded P' p C Q' E' := by
  intro s hs
  obtain ⟨hleft, hp⟩ := h s (hpre s hs)
  refine ⟨hleft, ?_⟩
  split at hp
  · exact hpost _ _ hp
  · exact hraise _ hp

theorem crashing {p : Procedure σ ε α} {C' : σ → Prop} (h : Guarded P p C Q E)
    (hcrash : ∀ s, C s → C' s) : Guarded P p C' Q E :=
  fun s hs => ⟨fun s' hs' => hcrash s' ((h s hs).1 s' hs'), (h s hs).2⟩

/-- A precondition that does not speak about the state is a hypothesis. -/
theorem assuming {p : Procedure σ ε α} {φ : Prop} (h : φ → Guarded P p C Q E) :
    Guarded (fun s => P s ∧ φ) p C Q E :=
  fun s hs => h hs.2 s hs.1

theorem pure {a : α} (h : ∀ s, P s → C s ∧ Q a s) :
    Guarded P (Pure.pure a : Procedure σ ε α) C Q E := by
  intro s hs
  refine ⟨?_, (h s hs).2⟩
  intro s' hs'
  obtain rfl := List.mem_singleton.1 hs'
  exact (h s' hs).1

theorem lift {x : Except ε α} (hcrash : ∀ s, P s → C s) (hok : ∀ a, x = .ok a → ∀ s, P s → Q a s)
    (hraise : ∀ s, P s → E s) : Guarded P (lift x : Procedure σ ε α) C Q E := by
  intro s hs
  constructor
  · intro s' hs'
    obtain rfl := List.mem_singleton.1 hs'
    exact hcrash s' hs
  · cases hx : x with
    | ok a => exact hok a hx s hs
    | error e => exact hraise s hs

theorem raise {e : ε} (h : ∀ s, P s → C s ∧ E s) :
    Guarded P (raise e : Procedure σ ε α) C Q E :=
  lift (fun s hs => (h s hs).1) (fun _ heq => by cases heq) fun s hs => (h s hs).2

theorem read {Q : σ → σ → Prop} (h : ∀ s, P s → C s ∧ Q s s) :
    Guarded P (read : Procedure σ ε σ) C Q E := by
  intro s hs
  refine ⟨?_, (h s hs).2⟩
  intro s' hs'
  obtain rfl := List.mem_singleton.1 hs'
  exact (h s' hs).1

/-- After a read the state is the one that was read. -/
theorem reading {f : σ → Procedure σ ε β} {Q : β → σ → Prop}
    (h : ∀ d, P d → Guarded (fun s => s = d) (f d) C Q E) :
    Guarded P (Procedure.read >>= f) C Q E :=
  fun s hs => h s hs s rfl

/-- What is decided without a step, when it is known. -/
theorem lifted {x : Except ε α} {a : α} (hx : x = .ok a) (h : ∀ s, P s → C s ∧ Q a s) :
    Guarded P (Procedure.lift x : Procedure σ ε α) C Q E := by
  subst hx
  exact pure h

/-- What is refused without a step. -/
theorem refused {x : Except ε α} (hx : ∀ a, x ≠ .ok a) (h : ∀ s, P s → C s ∧ E s) :
    Guarded P (Procedure.lift x : Procedure σ ε α) C Q E :=
  lift (fun s hs => (h s hs).1) (fun a ha => absurd ha (hx a)) fun s hs => (h s hs).2

theorem write {f : σ → σ} {Q : Unit → σ → Prop} (h : ∀ s, P s → C s ∧ C (f s) ∧ Q () (f s)) :
    Guarded P (write f : Procedure σ ε Unit) C Q E := by
  intro s hs
  obtain ⟨hbefore, hafter, hpost⟩ := h s hs
  refine ⟨?_, hpost⟩
  intro s' hs'
  rcases List.mem_cons.1 hs' with rfl | hs'
  · exact hbefore
  · obtain rfl := List.mem_singleton.1 hs'
    exact hafter

theorem bind {p : Procedure σ ε α} {f : α → Procedure σ ε β} {Q' : β → σ → Prop}
    (hp : Guarded P p C Q E) (hf : ∀ a, Guarded (Q a) (f a) C Q' E) :
    Guarded P (p >>= f) C Q' E := by
  intro s hs
  obtain ⟨hleft, hends⟩ := hp s hs
  cases hrun : (p s).result with
  | ok a =>
      rw [hrun] at hends
      obtain ⟨hleft', hends'⟩ := hf a _ hends
      rw [bind_run_ok s (f := f) (show p s = ⟨(p s).passed, (p s).final, .ok a⟩ by rw [← hrun])]
      refine ⟨?_, hends'⟩
      intro s' hs'
      rw [Outcome.left, List.append_assoc] at hs'
      rcases List.mem_append.1 hs' with hs' | hs'
      · exact hleft s' (List.mem_append_left _ hs')
      · exact hleft' s' hs'
  | error e =>
      rw [hrun] at hends
      rw [bind_run_error s (f := f)
        (show p s = ⟨(p s).passed, (p s).final, .error e⟩ by rw [← hrun])]
      exact ⟨hleft, hends⟩

theorem rescue {p : Procedure σ ε α} {handler : ε → Procedure σ ε α} {J : σ → Prop}
    (hp : Guarded P p C Q J) (hhandler : ∀ e, Guarded J (handler e) C Q E) :
    Guarded P (rescue p handler) C Q E := by
  intro s hs
  obtain ⟨hleft, hends⟩ := hp s hs
  cases hrun : (p s).result with
  | ok a =>
      rw [hrun] at hends
      rw [rescue_run_ok s (show p s = ⟨(p s).passed, (p s).final, .ok a⟩ by rw [← hrun])]
      exact ⟨hleft, hends⟩
  | error e =>
      rw [hrun] at hends
      obtain ⟨hleft', hends'⟩ := hhandler e _ hends
      rw [rescue_run_error s (show p s = ⟨(p s).passed, (p s).final, .error e⟩ by rw [← hrun])]
      refine ⟨?_, hends'⟩
      intro s' hs'
      rw [Outcome.left, List.append_assoc] at hs'
      rcases List.mem_append.1 hs' with hs' | hs'
      · exact hleft s' (List.mem_append_left _ hs')
      · exact hleft' s' hs'

theorem each {I : σ → Prop} {f : β → Procedure σ ε Unit} {bs : List β} (hcrash : ∀ s, I s → C s)
    (hf : ∀ b ∈ bs, Guarded I (f b) C (fun _ => I) E) :
    Guarded I (each f bs) C (fun _ => I) E := by
  induction bs with
  | nil => exact pure fun s hs => ⟨hcrash s hs, hs⟩
  | cons b bs ih =>
      exact bind (hf b (.head _)) fun _ => ih fun b' hb' => hf b' (.tail _ hb')

end Guarded

/-! ## What every step keeps -/

/-- Every step of `p` keeps `I`, so no crash of it ends where `I` does not hold. -/
def Keeps {σ ε α : Type} (I : σ → Prop) (p : Procedure σ ε α) : Prop :=
  Guarded I p I (fun _ => I) I

namespace Keeps

variable {σ ε α β : Type} {I : σ → Prop} {p : Procedure σ ε α}

theorem left (h : Keeps I p) {s s' : σ} (hs : I s) (hs' : s' ∈ (p s).left) : I s' :=
  (h s hs).1 s' hs'

theorem pure (a : α) : Keeps I (Pure.pure a : Procedure σ ε α) :=
  Guarded.pure fun _ hs => ⟨hs, hs⟩

theorem raise (e : ε) : Keeps I (Procedure.raise e : Procedure σ ε α) :=
  Guarded.raise fun _ hs => ⟨hs, hs⟩

theorem read : Keeps I (Procedure.read : Procedure σ ε σ) :=
  Guarded.read fun _ hs => ⟨hs, hs⟩

theorem lift (x : Except ε α) : Keeps I (Procedure.lift x : Procedure σ ε α) :=
  Guarded.lift (fun _ hs => hs) (fun _ _ _ hs => hs) fun _ hs => hs

theorem write {f : σ → σ} (h : ∀ s, I s → I (f s)) :
    Keeps I (Procedure.write f : Procedure σ ε Unit) :=
  Guarded.write fun s hs => ⟨hs, h s hs, h s hs⟩

theorem bind {f : α → Procedure σ ε β} (hp : Keeps I p) (hf : ∀ a, Keeps I (f a)) :
    Keeps I (p >>= f) :=
  Guarded.bind hp hf

theorem map (g : α → β) (hp : Keeps I p) : Keeps I (g <$> p) :=
  hp.bind fun a => pure (g a)

theorem rescue {handler : ε → Procedure σ ε α} (hp : Keeps I p)
    (hhandler : ∀ e, Keeps I (handler e)) : Keeps I (Procedure.rescue p handler) := by
  refine Guarded.rescue (J := I) ?_ hhandler
  exact hp

theorem each {f : β → Procedure σ ε Unit} (bs : List β) (hf : ∀ b, Keeps I (f b)) :
    Keeps I (Procedure.each f bs) :=
  Guarded.each (fun _ hs => hs) fun b _ => hf b

end Keeps

end Cortex
