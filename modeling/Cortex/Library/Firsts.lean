import Mathlib.Data.List.Nodup

/-!
# The first value of each key

A `dict` that is filled with `setdefault`, or a list to which a value is appended
unless one with its key is there: what is left of a list is the first value of every
key, in the order of the list.
-/

namespace Cortex.Firsts

variable {κ ν : Type*} [DecidableEq κ] {key : ν → κ} {values items : List ν} {v : ν}

/-- Append a value unless there is one with its key. -/
def setDefault (key : ν → κ) (values : List ν) (v : ν) : List ν :=
  if key v ∈ values.map key then values else values ++ [v]

def firsts (key : ν → κ) (items : List ν) : List ν := items.foldl (setDefault key) []

theorem mem_setDefault {w : ν} (h : w ∈ setDefault key values v) : w ∈ values ∨ w = v := by
  rw [setDefault] at h
  split_ifs at h
  · exact .inl h
  · simpa using h

theorem keys_setDefault (key : ν → κ) (values : List ν) (v : ν) (k : κ) :
    k ∈ (setDefault key values v).map key ↔ k ∈ values.map key ∨ k = key v := by
  rw [setDefault]
  split_ifs with h
  · exact ⟨.inl, fun hk => hk.elim id fun heq => heq ▸ h⟩
  · rw [List.map_append, List.mem_append, List.map_singleton, List.mem_singleton]

theorem nodup_setDefault (h : (values.map key).Nodup) :
    ((setDefault key values v).map key).Nodup := by
  rw [setDefault]
  split_ifs with hmem
  · exact h
  · rw [List.map_append, List.map_singleton]
    exact List.Nodup.append h (List.nodup_singleton _)
      (List.disjoint_singleton.2 hmem)

private theorem foldl_setDefault (h : (values.map key).Nodup) :
    ((items.foldl (setDefault key) values).map key).Nodup ∧
      (∀ w ∈ items.foldl (setDefault key) values, w ∈ values ∨ w ∈ items) ∧
      ∀ k, k ∈ (items.foldl (setDefault key) values).map key ↔
        k ∈ values.map key ∨ k ∈ items.map key := by
  induction items generalizing values with
  | nil => exact ⟨h, fun w hw => .inl hw, fun k => by simp⟩
  | cons v items ih =>
      obtain ⟨hnodup, hmem, hkeys⟩ := ih (nodup_setDefault h)
      refine ⟨hnodup, fun w hw => ?_, fun k => ?_⟩
      · obtain hw | hw := hmem w hw
        · obtain hw | rfl := mem_setDefault hw
          · exact .inl hw
          · exact .inr (.head _)
        · exact .inr (.tail _ hw)
      · rw [List.foldl_cons, hkeys, keys_setDefault, List.map_cons, List.mem_cons, or_assoc]

omit [DecidableEq κ] in
private theorem nodup_keys_nil : (([] : List ν).map key).Nodup := List.nodup_nil

theorem nodup_firsts (key : ν → κ) (items : List ν) : ((firsts key items).map key).Nodup :=
  (foldl_setDefault nodup_keys_nil).1

theorem mem_of_mem_firsts (h : v ∈ firsts key items) : v ∈ items :=
  ((foldl_setDefault nodup_keys_nil).2.1 v h).resolve_left List.not_mem_nil

/-- No key is lost. -/
theorem keys_firsts (key : ν → κ) (items : List ν) (k : κ) :
    k ∈ (firsts key items).map key ↔ k ∈ items.map key := by
  rw [firsts, (foldl_setDefault nodup_keys_nil).2.2 k]
  simp

end Cortex.Firsts
