import Mathlib.Data.List.Basic

/-!
# Caches in the order of their use

Python's `OrderedDict` as a bounded cache: the oldest entry first, `put` files an
entry at the end, `touch` moves one there, and `trim` drops the oldest entries
until a limit holds.  `find_put`, `find_touch` and `trim_of_le` are all that
later proofs need.
-/

namespace Cortex

variable {κ ν : Type*}

structure Cache (κ ν : Type*) where
  entries : List (κ × ν)

namespace Cache

def empty : Cache κ ν := ⟨[]⟩

def length (c : Cache κ ν) : ℕ := c.entries.length

/-- Drop the oldest entries until at most so many are left. -/
def trim (c : Cache κ ν) (limit : ℕ) : Cache κ ν := ⟨c.entries.drop (c.entries.length - limit)⟩

theorem trim_of_le {c : Cache κ ν} {limit : ℕ} (h : c.length ≤ limit) : c.trim limit = c := by
  rw [length] at h
  rw [trim, Nat.sub_eq_zero_of_le h, List.drop_zero]

variable [DecidableEq κ]

def find (c : Cache κ ν) (k : κ) : Option ν := (c.entries.find? fun e => e.1 = k).map Prod.snd

def pop (c : Cache κ ν) (k : κ) : Cache κ ν := ⟨c.entries.filter fun e => e.1 ≠ k⟩

/-- `cache[key] = value`, and `move_to_end`. -/
def put (c : Cache κ ν) (k : κ) (v : ν) : Cache κ ν := ⟨(c.pop k).entries ++ [(k, v)]⟩

/-- `move_to_end`. -/
def touch (c : Cache κ ν) (k : κ) : Cache κ ν :=
  match c.find k with
  | some v => c.put k v
  | none => c

@[simp] theorem find_empty (k : κ) : (empty : Cache κ ν).find k = none := rfl

@[simp] theorem find_pop (c : Cache κ ν) (k k' : κ) :
    (c.pop k).find k' = if k' = k then none else c.find k' := by
  obtain ⟨entries⟩ := c
  simp only [find, pop]
  induction entries with
  | nil => simp
  | cons e entries ih =>
      by_cases hk : e.1 = k
      · rw [List.filter_cons_of_neg (by simpa using hk), ih]
        by_cases hk' : k' = k
        · simp [hk']
        · have hne : ¬e.1 = k' := fun heq => hk' (heq.symm.trans hk)
          simp [hk', hne]
      · rw [List.filter_cons_of_pos (by simpa using hk)]
        by_cases heq : e.1 = k'
        · subst heq
          simp [hk]
        · simpa [heq] using ih

@[simp] theorem find_put (c : Cache κ ν) (k : κ) (v : ν) (k' : κ) :
    (c.put k v).find k' = if k' = k then some v else c.find k' := by
  have hpop := find_pop c k k'
  simp only [find, put] at hpop ⊢
  rw [List.find?_append]
  by_cases h : k' = k
  · subst h
    rw [if_pos rfl, Option.map_eq_none_iff] at hpop
    simp [hpop]
  · rw [if_neg h] at hpop
    have hne : ¬k = k' := fun heq => h heq.symm
    simp [h, hne, hpop]

@[simp] theorem find_touch (c : Cache κ ν) (k k' : κ) : (c.touch k).find k' = c.find k' := by
  unfold touch
  split
  · rename_i v hv
    rw [find_put]
    split
    · rename_i heq
      rw [heq, hv]
    · rfl
  · rfl

theorem length_pop_le (c : Cache κ ν) (k : κ) : (c.pop k).length ≤ c.length :=
  List.length_filter_le _ _

theorem length_put_le (c : Cache κ ν) (k : κ) (v : ν) : (c.put k v).length ≤ c.length + 1 := by
  rw [length, put, List.length_append, List.length_singleton]
  exact Nat.succ_le_succ (c.length_pop_le k)

theorem length_touch_le (c : Cache κ ν) (k : κ) : (c.touch k).length ≤ c.length := by
  unfold touch
  split
  · rename_i v hv
    rw [find, Option.map_eq_some_iff] at hv
    obtain ⟨e, he, -⟩ := hv
    have hlt : (c.pop k).length < c.length :=
      List.length_filter_lt_length_iff_exists.2 ⟨e, List.mem_of_find?_eq_some he, by
        simpa using List.find?_some he⟩
    rw [length, put, List.length_append, List.length_singleton]
    exact hlt
  · exact Nat.le_refl _

/-- An entry is filed and nothing is dropped, if there is room for one more. -/
theorem trim_put {c : Cache κ ν} {limit : ℕ} (h : c.length < limit) (k : κ) (v : ν) :
    (c.put k v).trim limit = c.put k v :=
  trim_of_le (Nat.le_trans (c.length_put_le k v) h)

end Cache

end Cortex
