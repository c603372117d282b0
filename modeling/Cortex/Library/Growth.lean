import Cortex.Library.Table

/-!
# Tables that grow

What a transaction may do to a table, as a relation: every row is kept under its
key and changed only as `R` allows, and every further row satisfies `N`.  Such a
relation holds of each statement by itself, and of a transaction by
transitivity, when `R` is a preorder that keeps `N`.
-/

namespace Cortex.Table

variable {ρ κ : Type*} [Keyed ρ κ]

/-- Rows are kept and changed as `R` allows; a row without an original satisfies `N`. -/
structure Grows (R : ρ → ρ → Prop) (N : ρ → Prop) (t t' : Table ρ) : Prop where
  kept : ∀ r ∈ t, ∃ r' ∈ t', Keyed.key r' = Keyed.key r ∧ R r r'
  origin : ∀ r' ∈ t', (∃ r ∈ t, Keyed.key r' = Keyed.key r ∧ R r r') ∨ N r'

namespace Grows

variable {R R' : ρ → ρ → Prop} {N N' : ρ → Prop} {t t' t'' : Table ρ}

theorem refl (hR : ∀ r, R r r) : Grows R N t t where
  kept r hr := ⟨r, hr, rfl, hR r⟩
  origin r hr := .inl ⟨r, hr, rfl, hR r⟩

theorem mono (h : Grows R N t t') (hR : ∀ r ∈ t, ∀ r', R r r' → R' r r')
    (hN : ∀ r, N r → N' r) : Grows R' N' t t' where
  kept r hr := by
    obtain ⟨r', hr', hkey, hrel⟩ := h.kept r hr
    exact ⟨r', hr', hkey, hR r hr r' hrel⟩
  origin r' hr' := by
    rcases h.origin r' hr' with ⟨r, hr, hkey, hrel⟩ | hnew
    · exact .inl ⟨r, hr, hkey, hR r hr r' hrel⟩
    · exact .inr (hN r' hnew)

theorem trans (hR : ∀ a b c, R a b → R b c → R a c) (hN : ∀ a b, N a → R a b → N b)
    (h : Grows R N t t') (h' : Grows R N t' t'') : Grows R N t t'' where
  kept r hr := by
    obtain ⟨m, hm, hkey, hrel⟩ := h.kept r hr
    obtain ⟨r', hr', hkey', hrel'⟩ := h'.kept m hm
    exact ⟨r', hr', hkey'.trans hkey, hR r m r' hrel hrel'⟩
  origin r' hr' := by
    rcases h'.origin r' hr' with ⟨m, hm, hkey', hrel'⟩ | hnew
    · rcases h.origin m hm with ⟨r, hr, hkey, hrel⟩ | hnew
      · exact .inl ⟨r, hr, hkey'.trans hkey, hR r m r' hrel hrel'⟩
      · exact .inr (hN m r' hnew hrel')
    · exact .inr hnew

/-- The row that a row of the new table comes from, where no row is new. -/
theorem source (h : Grows R (fun _ => False) t t') {r' : ρ} (hr' : r' ∈ t') :
    ∃ r ∈ t, Keyed.key r' = Keyed.key r ∧ R r r' := by
  rcases h.origin r' hr' with horigin | hnew
  · exact horigin
  · exact hnew.elim

/-- The two rows of one key are related. -/
theorem rel (h : Grows R N t t') {r r' : ρ} (hr : r ∈ t) (hr' : r' ∈ t')
    (hkey : Keyed.key r' = Keyed.key r) : R r r' := by
  obtain ⟨m, hm, hmkey, hrel⟩ := h.kept r hr
  rwa [eq_of_key hr' hm (hkey.trans hmkey.symm)]

/-! ## Statements -/

theorem update {p : ρ → Prop} [DecidablePred p] {f : ρ → ρ}
    (hf : ∀ r, Keyed.key (f r) = Keyed.key r) (hrefl : ∀ r ∈ t, ¬p r → R r r)
    (hchange : ∀ r ∈ t, p r → R r (f r)) :
    Grows R N t (t.update p f hf) where
  kept r hr := by
    refine ⟨if p r then f r else r, mem_update.2 ⟨r, hr, rfl⟩, ?_, ?_⟩
    · split
      · exact hf r
      · rfl
    · split
      · exact hchange r hr ‹_›
      · exact hrefl r hr ‹_›
  origin r' hr' := by
    obtain ⟨r, hr, rfl⟩ := mem_update.1 hr'
    refine .inl ⟨r, hr, ?_, ?_⟩
    · split
      · exact hf r
      · rfl
    · split
      · exact hchange r hr ‹_›
      · exact hrefl r hr ‹_›

section Decide

variable [DecidableEq κ]

theorem updateRow {k : κ} {p : ρ → Prop} [DecidablePred p] {f : ρ → ρ}
    {hf : ∀ r, Keyed.key (f r) = Keyed.key r} (h : t.updateRow? k p f hf = some t')
    (hrefl : ∀ r ∈ t, Keyed.key r ≠ k → R r r)
    (hchange : ∀ r ∈ t, Keyed.key r = k → p r → R r (f r)) : Grows R N t t' := by
  obtain ⟨r₀, hr₀, hkey₀, hp₀, -, hrows⟩ := updateRow?_eq_some h
  have hrel : ∀ r ∈ t, R r (if Keyed.key r = k then f r else r) := by
    intro r hr
    split
    · rename_i hkey
      obtain rfl := eq_of_key hr hr₀ (hkey.trans hkey₀.symm)
      exact hchange r hr hkey hp₀
    · exact hrefl r hr ‹_›
  have hkeep : ∀ r, Keyed.key (if Keyed.key r = k then f r else r) = Keyed.key r := by
    intro r
    split
    · exact hf r
    · rfl
  constructor
  · intro r hr
    refine ⟨if Keyed.key r = k then f r else r, ?_, hkeep r, hrel r hr⟩
    rw [mem_def, hrows]
    exact List.mem_map.2 ⟨r, hr, rfl⟩
  · intro r' hr'
    rw [mem_def, hrows] at hr'
    obtain ⟨r, hr, rfl⟩ := List.mem_map.1 hr'
    exact .inl ⟨r, hr, hkeep r, hrel r hr⟩

theorem insert {row : ρ} (h : t.insert? row = some t') (hrefl : ∀ r ∈ t, R r r) (hN : N row) :
    Grows R N t t' where
  kept r hr := ⟨r, (mem_insert h).2 (.inl hr), rfl, hrefl r hr⟩
  origin r' hr' := by
    rcases (mem_insert h).1 hr' with hr | rfl
    · exact .inl ⟨r', hr, rfl, hrefl r' hr⟩
    · exact .inr hN

end Decide

end Grows

end Cortex.Table
