import Mathlib.Data.List.Nodup

/-!
# Tables with a primary key

A table is a list of rows no two of which have the same key, so every lookup by
key has one answer.  Rows are added by `insert?`, which is refused for a key in
use, and changed in place by `update`, which keeps the keys.

Proofs about a table go through `mem_insert` and `mem_update`, or through
`get?_insert` and `get?_update` where a row is named by its key.
-/

namespace Cortex

/-- Rows of a type that carries its own primary key. -/
class Keyed (ρ : Type*) (κ : outParam (Type*)) where
  key : ρ → κ

/-- Rows with pairwise different keys, in insertion order. -/
structure Table (ρ : Type*) {κ : Type*} [Keyed ρ κ] where
  rows : List ρ
  nodup : (rows.map Keyed.key).Nodup

namespace Table

variable {ρ κ : Type*} [Keyed ρ κ]

instance : Membership ρ (Table ρ) := ⟨fun t r => r ∈ t.rows⟩

theorem mem_def {t : Table ρ} {r : ρ} : r ∈ t ↔ r ∈ t.rows := Iff.rfl

/-- The table without rows. -/
def empty : Table ρ := ⟨[], List.nodup_nil⟩

@[simp] theorem not_mem_empty (r : ρ) : r ∉ (empty : Table ρ) := by
  simp [mem_def, empty]

/-- A row is determined by its key. -/
theorem eq_of_key {t : Table ρ} {r r' : ρ} (hr : r ∈ t) (hr' : r' ∈ t)
    (hkey : Keyed.key r = Keyed.key r') : r = r' :=
  List.inj_on_of_nodup_map t.nodup hr hr' hkey

/-! ## Updating in place -/

/-- `UPDATE … WHERE p`: the rows satisfying `p` are changed by `f`, which keeps the key. -/
def update (t : Table ρ) (p : ρ → Prop) [DecidablePred p] (f : ρ → ρ)
    (hf : ∀ r, Keyed.key (f r) = Keyed.key r := by intro; rfl) : Table ρ where
  rows := t.rows.map fun r => if p r then f r else r
  nodup := by
    have hkeys : (t.rows.map fun r => if p r then f r else r).map Keyed.key =
        t.rows.map Keyed.key := by
      rw [List.map_map]
      refine List.map_congr_left fun r _ => ?_
      simp only [Function.comp_apply]
      split
      · exact hf r
      · rfl
    rw [hkeys]
    exact t.nodup

/-- The `rowcount` of an `UPDATE … WHERE p`. -/
def rowcount (t : Table ρ) (p : ρ → Prop) [DecidablePred p] : ℕ := t.rows.countP (p ·)

theorem mem_update {t : Table ρ} {p : ρ → Prop} [DecidablePred p] {f : ρ → ρ}
    {hf : ∀ r, Keyed.key (f r) = Keyed.key r} {r : ρ} :
    r ∈ t.update p f hf ↔ ∃ r₀ ∈ t, (if p r₀ then f r₀ else r₀) = r := by
  simp only [mem_def, update, List.mem_map]

theorem mem_update_of_neg {t : Table ρ} {p : ρ → Prop} [DecidablePred p] {f : ρ → ρ}
    {r : ρ} (hf : ∀ r, Keyed.key (f r) = Keyed.key r) (hr : r ∈ t) (hp : ¬p r) :
    r ∈ t.update p f hf := by
  rw [mem_update]
  exact ⟨r, hr, if_neg hp⟩

/-- An update that selects one row replaces it in its place. -/
theorem rows_update_of_unique {t : Table ρ} {p : ρ → Prop} [DecidablePred p] {f : ρ → ρ}
    {row : ρ} (hf : ∀ r, Keyed.key (f r) = Keyed.key r) (hrow : row ∈ t)
    (hp : ∀ r ∈ t, p r ↔ r = row) :
    ∃ before after, t.rows = before ++ row :: after ∧
      (t.update p f hf).rows = before ++ f row :: after := by
  obtain ⟨before, after, hsplit⟩ := List.append_of_mem hrow
  have hnodup := t.nodup
  rw [hsplit, List.map_append, List.map_cons, List.nodup_middle, List.nodup_cons] at hnodup
  have hother : ∀ r ∈ before ++ after, ¬p r := by
    intro r hr hpr
    have hmem : r ∈ t.rows := by
      rw [hsplit]
      simp only [List.mem_append, List.mem_cons] at hr ⊢
      exact hr.imp_right .inr
    refine hnodup.1 ?_
    rw [← List.map_append, ← (hp r hmem).1 hpr]
    exact List.mem_map_of_mem hr
  have hmap : ∀ rs : List ρ, (∀ r ∈ rs, ¬p r) → (rs.map fun r => if p r then f r else r) = rs := by
    intro rs hrs
    conv_rhs => rw [← List.map_id rs]
    exact List.map_congr_left fun r hr => if_neg (hrs r hr)
  refine ⟨before, after, hsplit, ?_⟩
  simp only [update, hsplit, List.map_append, List.map_cons, if_pos ((hp row hrow).2 rfl)]
  rw [hmap before fun r hr => hother r (List.mem_append_left _ hr),
    hmap after fun r hr => hother r (List.mem_append_right _ hr)]

/-- What holds of every row and is kept by the change holds of every row afterwards. -/
theorem forall_update {t : Table ρ} {p : ρ → Prop} [DecidablePred p] {f : ρ → ρ}
    {P : ρ → Prop} (hf : ∀ r, Keyed.key (f r) = Keyed.key r) (hkept : ∀ r ∈ t, ¬p r → P r)
    (hchanged : ∀ r ∈ t, p r → P (f r)) :
    ∀ r ∈ t.update p f hf, P r := by
  intro r hr
  obtain ⟨r₀, hr₀, rfl⟩ := mem_update.1 hr
  split
  · exact hchanged r₀ hr₀ ‹_›
  · exact hkept r₀ hr₀ ‹_›

/-! ## Inserting -/

section Insert

variable [DecidableEq κ]

/-- `INSERT`: refused when the key is in use. -/
def insert? (t : Table ρ) (row : ρ) : Option (Table ρ) :=
  if h : Keyed.key row ∈ t.rows.map Keyed.key then none
  else some
    { rows := t.rows ++ [row]
      nodup := by
        rw [List.map_append, List.nodup_append]
        refine ⟨t.nodup, by simp, ?_⟩
        intro k hk k' hk'
        simp only [List.map_cons, List.map_nil, List.mem_singleton] at hk'
        rintro rfl
        exact h (hk' ▸ hk) }

theorem rows_insert {t t' : Table ρ} {row : ρ} (h : t.insert? row = some t') :
    t'.rows = t.rows ++ [row] ∧ ∀ r ∈ t, Keyed.key r ≠ Keyed.key row := by
  unfold insert? at h
  split at h
  · contradiction
  · rename_i hfresh
    injection h with h
    subst h
    refine ⟨rfl, fun r hr hkey => hfresh ?_⟩
    exact List.mem_map.2 ⟨r, hr, hkey⟩

/-- A row with a new key can be inserted. -/
theorem isSome_insert {t : Table ρ} {row : ρ} (h : ∀ r ∈ t, Keyed.key r ≠ Keyed.key row) :
    (t.insert? row).isSome = true := by
  unfold insert?
  rw [dif_neg]
  · rfl
  · intro hmem
    obtain ⟨r, hr, hkey⟩ := List.mem_map.1 hmem
    exact h r hr hkey

theorem mem_insert {t t' : Table ρ} {row : ρ} (h : t.insert? row = some t') {r : ρ} :
    r ∈ t' ↔ r ∈ t ∨ r = row := by
  simp only [mem_def, (rows_insert h).1, List.mem_append, List.mem_singleton]

/-! ## Looking up -/

/-- `SELECT … WHERE key = k`. -/
def get? (t : Table ρ) (k : κ) : Option ρ := t.rows.find? fun r => Keyed.key r = k

theorem get?_eq_some {t : Table ρ} {k : κ} {r : ρ} :
    t.get? k = some r ↔ r ∈ t ∧ Keyed.key r = k := by
  constructor
  · intro h
    have hkey := List.find?_some h
    simp only [decide_eq_true_eq] at hkey
    exact ⟨List.mem_of_find?_eq_some h, hkey⟩
  · rintro ⟨hr, hkey⟩
    cases hfind : t.get? k with
    | none =>
        have hnone := List.find?_eq_none.1 hfind r hr
        simp [hkey] at hnone
    | some r' =>
        have hkey' := List.find?_some hfind
        simp only [decide_eq_true_eq] at hkey'
        rw [eq_of_key (List.mem_of_find?_eq_some hfind) hr (hkey'.trans hkey.symm)]

theorem get?_eq_none {t : Table ρ} {k : κ} : t.get? k = none ↔ ∀ r ∈ t, Keyed.key r ≠ k := by
  simp [get?, mem_def]

theorem get?_key {t : Table ρ} {r : ρ} (hr : r ∈ t) : t.get? (Keyed.key r) = some r :=
  get?_eq_some.2 ⟨hr, rfl⟩

@[simp] theorem get?_empty (k : κ) : (empty : Table ρ).get? k = none := rfl

theorem get?_update {t : Table ρ} {p : ρ → Prop} [DecidablePred p] {f : ρ → ρ}
    {hf : ∀ r, Keyed.key (f r) = Keyed.key r} (k : κ) :
    (t.update p f hf).get? k = (t.get? k).map fun r => if p r then f r else r := by
  cases hget : t.get? k with
  | none =>
      rw [get?_eq_none] at hget
      refine get?_eq_none.2 fun r hr => ?_
      obtain ⟨r₀, hr₀, rfl⟩ := mem_update.1 hr
      split
      · rw [hf]
        exact hget r₀ hr₀
      · exact hget r₀ hr₀
  | some r =>
      obtain ⟨hr, hkey⟩ := get?_eq_some.1 hget
      refine get?_eq_some.2 ⟨mem_update.2 ⟨r, hr, rfl⟩, ?_⟩
      beta_reduce
      split
      · rw [hf, hkey]
      · exact hkey

theorem get?_insert {t t' : Table ρ} {row : ρ} (h : t.insert? row = some t') (k : κ) :
    t'.get? k = if k = Keyed.key row then some row else t.get? k := by
  obtain ⟨-, hfresh⟩ := rows_insert h
  split
  · rename_i hk
    exact get?_eq_some.2 ⟨(mem_insert h).2 (.inr rfl), hk.symm⟩
  · rename_i hk
    cases hget : t.get? k with
    | none =>
        rw [get?_eq_none] at hget
        refine get?_eq_none.2 fun r hr => ?_
        rcases (mem_insert h).1 hr with hr | rfl
        · exact hget r hr
        · exact fun hkey => hk hkey.symm
    | some r =>
        obtain ⟨hr, hkey⟩ := get?_eq_some.1 hget
        exact get?_eq_some.2 ⟨(mem_insert h).2 (.inl hr), hkey⟩

/-! ## Updating one row -/

/-- `UPDATE … WHERE key = k AND p`, given up unless its rowcount is 1. -/
def updateRow? (t : Table ρ) (k : κ) (p : ρ → Prop) [DecidablePred p] (f : ρ → ρ)
    (hf : ∀ r, Keyed.key (f r) = Keyed.key r := by intro; rfl) : Option (Table ρ) :=
  if t.rowcount (fun r => Keyed.key r = k ∧ p r) = 1 then
    some (t.update (fun r => Keyed.key r = k ∧ p r) f hf)
  else none

/-- Exactly the row named by the key is changed, and it satisfied the condition. -/
theorem updateRow?_eq_some {t t' : Table ρ} {k : κ} {p : ρ → Prop} [DecidablePred p] {f : ρ → ρ}
    {hf : ∀ r, Keyed.key (f r) = Keyed.key r} (h : t.updateRow? k p f hf = some t') :
    ∃ r ∈ t, Keyed.key r = k ∧ p r ∧ t'.get? k = some (f r) ∧
      t'.rows = t.rows.map fun r => if Keyed.key r = k then f r else r := by
  unfold updateRow? at h
  split at h
  · rename_i hcount
    injection h with h
    subst h
    have hpos : 0 < t.rows.countP fun r => decide (Keyed.key r = k ∧ p r) := by
      rw [rowcount] at hcount
      omega
    obtain ⟨r, hr, hp⟩ := List.countP_pos_iff.1 hpos
    simp only [decide_eq_true_eq] at hp
    refine ⟨r, hr, hp.1, hp.2, ?_, ?_⟩
    · rw [get?_update, get?_eq_some.2 ⟨hr, hp.1⟩, Option.map_some, if_pos hp]
    · refine List.map_congr_left fun r' hr' => ?_
      by_cases hk : Keyed.key r' = k
      · obtain rfl : r' = r := eq_of_key hr' hr (hk.trans hp.1.symm)
        rw [if_pos hp, if_pos hk]
      · rw [if_neg hk, if_neg fun hp' => hk hp'.1]
  · contradiction

end Insert

end Table

end Cortex
