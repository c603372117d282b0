import Mathlib.Data.List.Nodup

/-!
# Dictionaries of values that know their key

Python's `dict` where every value is filed under a key of its own: the values,
with distinct keys, in the order in which the keys were first set.  `get?_set`
is all that later proofs need to know about `set`.
-/

namespace Cortex

variable {κ ν : Type*}

structure Dict (key : ν → κ) where
  values : List ν
  nodup : (values.map key).Nodup

namespace Dict

variable [DecidableEq κ] {key : ν → κ}

def empty : Dict key := ⟨[], List.nodup_nil⟩

def get? (d : Dict key) (k : κ) : Option ν := d.values.find? fun v => key v = k

/-- Replace the value with this key in its place, or add the value at the end. -/
def setIn (key : ν → κ) (v : ν) : List ν → List ν
  | [] => [v]
  | w :: values => if key w = key v then v :: values else w :: setIn key v values

private theorem mem_keys_setIn {v : ν} {values : List ν} {k : κ} :
    k ∈ (setIn key v values).map key ↔ k = key v ∨ k ∈ values.map key := by
  induction values with
  | nil => simp [setIn]
  | cons w values ih =>
      unfold setIn
      split
      · rename_i hkey
        simp [hkey]
      · rw [List.map_cons, List.mem_cons, ih, List.map_cons, List.mem_cons]
        exact or_left_comm

private theorem nodup_setIn {v : ν} {values : List ν} (h : (values.map key).Nodup) :
    ((setIn key v values).map key).Nodup := by
  induction values with
  | nil => exact List.nodup_singleton (key v)
  | cons w values ih =>
      obtain ⟨hfresh, hrest⟩ := List.nodup_cons.1 h
      unfold setIn
      split
      · rename_i hkey
        rw [List.map_cons, ← hkey]
        exact h
      · rename_i hkey
        refine List.nodup_cons.2 ⟨fun hmem => ?_, ih hrest⟩
        rcases mem_keys_setIn.1 hmem with heq | hmem
        · exact hkey heq
        · exact hfresh hmem

def set (d : Dict key) (v : ν) : Dict key := ⟨setIn key v d.values, nodup_setIn d.nodup⟩

/-- `dict.pop`: drop the value with this key. -/
def erase (d : Dict key) (k : κ) : Dict key :=
  ⟨d.values.filter fun v => key v ≠ k,
    (d.nodup.sublist ((List.filter_sublist (p := fun v => key v ≠ k)).map key))⟩

@[simp] theorem get?_empty (k : κ) : (empty : Dict key).get? k = none := rfl

@[simp] theorem get?_set (d : Dict key) (v : ν) (k : κ) :
    (d.set v).get? k = if k = key v then some v else d.get? k := by
  obtain ⟨values, hnodup⟩ := d
  simp only [get?, set]
  clear hnodup
  induction values with
  | nil => by_cases h : k = key v <;> simp [setIn, h, eq_comm]
  | cons w values ih =>
      rw [setIn]
      by_cases hkey : key w = key v
      · rw [if_pos hkey]
        by_cases h : k = key v
        · simp [h]
        · simp [h, hkey, Ne.symm h]
      · rw [if_neg hkey]
        by_cases h : key w = k
        · subst h
          simp [hkey]
        · simp [h, ih]

theorem get?_eq_some {d : Dict key} {k : κ} {v : ν} :
    d.get? k = some v ↔ v ∈ d.values ∧ key v = k := by
  obtain ⟨values, hnodup⟩ := d
  simp only [get?]
  induction values with
  | nil => simp
  | cons w values ih =>
      obtain ⟨hfresh, hrest⟩ := List.nodup_cons.1 hnodup
      rw [List.find?_cons]
      by_cases hkey : key w = k
      · simp only [hkey, decide_true, Option.some.injEq, List.mem_cons]
        constructor
        · rintro rfl
          exact ⟨.inl rfl, hkey⟩
        · rintro ⟨rfl | hmem, hv⟩
          · rfl
          · exact absurd (List.mem_map.2 ⟨v, hmem, hv.trans hkey.symm⟩) hfresh
      · simp only [hkey, decide_false, ih hrest, List.mem_cons]
        constructor
        · rintro ⟨hmem, hv⟩
          exact ⟨.inr hmem, hv⟩
        · rintro ⟨rfl | hmem, hv⟩
          · exact absurd hv hkey
          · exact ⟨hmem, hv⟩

theorem key_of_get? {d : Dict key} {k : κ} {v : ν} (h : d.get? k = some v) : key v = k :=
  (get?_eq_some.1 h).2

@[simp] theorem get?_erase (d : Dict key) (k k' : κ) :
    (d.erase k).get? k' = if k' = k then none else d.get? k' := by
  ext v
  rw [get?_eq_some]
  simp only [erase, List.mem_filter, decide_eq_true_eq]
  by_cases h : k' = k
  · rw [if_pos h]
    constructor
    · rintro ⟨⟨-, hne⟩, hkey⟩
      exact absurd (hkey.trans h) hne
    · rintro ⟨⟩
  · rw [if_neg h, get?_eq_some]
    constructor
    · rintro ⟨⟨hmem, -⟩, hkey⟩
      exact ⟨hmem, hkey⟩
    · rintro ⟨hmem, hkey⟩
      exact ⟨⟨hmem, fun heq => h (hkey.symm.trans heq)⟩, hkey⟩

/-- Only the last value that is set under a key counts. -/
theorem set_set {d : Dict key} {v w : ν} (h : key v = key w) : (d.set v).set w = d.set w := by
  obtain ⟨values, hnodup⟩ := d
  simp only [set, mk.injEq]
  clear hnodup
  induction values with
  | nil => simp [setIn, h]
  | cons u values ih =>
      by_cases hkey : key u = key w
      · simp [setIn, h, hkey]
      · simp [setIn, h, hkey, ih]

end Dict

end Cortex
