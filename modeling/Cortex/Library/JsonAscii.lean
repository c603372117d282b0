import Cortex.Library.JsonPrefix

/-!
# A printed object is one line of ASCII

The printer escapes everything but printable ASCII, so a printed object holds no
line break and is the same in every encoding that extends ASCII.
-/

namespace Cortex.Json

/-- Printable ASCII. -/
def Printable (c : Char) : Prop := 32 ≤ c.toNat ∧ c.toNat < 127

instance (c : Char) : Decidable (Printable c) := inferInstanceAs (Decidable (_ ∧ _))

private theorem printable_of_all {text : List Char} (h : text.all (fun c => decide (Printable c)) = true) :
    ∀ c ∈ text, Printable c := by
  intro c hc
  exact of_decide_eq_true (List.all_eq_true.1 h c hc)

private theorem printable_of_isDigit {c : Char} (hc : c.isDigit = true) : Printable c := by
  simp only [Char.isDigit, Bool.and_eq_true, decide_eq_true_eq] at hc
  obtain ⟨hlow, hhigh⟩ := hc
  have hlow : 48 ≤ c.toNat := hlow
  have hhigh : c.toNat ≤ 57 := hhigh
  exact ⟨by omega, by omega⟩

private theorem printable_of_numberChar {c : Char} (hc : NumberChar c) : Printable c := by
  rcases hc with hc | rfl | rfl | rfl | rfl | rfl
  · exact printable_of_isDigit hc
  all_goals decide

private theorem printable_hexDigit {d : ℕ} (hd : d < 16) : Printable (hexDigit d) := by
  interval_cases d <;> decide

private theorem printable_escapeUnit (u : ℕ) : ∀ c ∈ escapeUnit u, Printable c := by
  intro c hc
  have hlt : ∀ n, n % 16 < 16 := fun n => Nat.mod_lt n (by decide)
  simp only [escapeUnit, List.mem_cons, List.not_mem_nil, or_false] at hc
  rcases hc with rfl | rfl | rfl | rfl | rfl | rfl
  · decide
  · decide
  all_goals exact printable_hexDigit (hlt _)

private theorem printable_escapeChar (c : Char) : ∀ d ∈ escapeChar c, Printable d := by
  intro d hd
  unfold escapeChar at hd
  split at hd
  · rename_i hc
    have hprintable : ∀ e ∈ ['\\', c], Printable e := by
      apply printable_of_all
      rcases hc with rfl | rfl <;> decide
    exact hprintable d hd
  -- The one-letter escapes are closed lists.
  iterate 5
    split at hd
    · exact printable_of_all (by decide) d hd
  split at hd
  · rename_i hc
    rw [List.mem_singleton.1 hd]
    exact hc
  · obtain ⟨u, -, hu⟩ := List.mem_flatMap.1 hd
    exact printable_escapeUnit u d hu

private theorem printable_dumpString (text : List Char) : ∀ c ∈ dumpString text, Printable c := by
  intro c hc
  simp only [dumpString, List.mem_cons, List.mem_append, List.mem_flatMap, List.not_mem_nil,
    or_false] at hc
  rcases hc with rfl | ⟨d, -, hd⟩ | rfl
  · decide
  · exact printable_escapeChar d c hd
  · decide

private theorem printable_dumpScalar {x : Scalar} (hx : x.Valid) : ∀ c ∈ dumpScalar x, Printable c := by
  intro c hc
  cases x with
  | null =>
      exact printable_of_all (by decide) c hc
  | nat n => exact printable_of_isDigit (isDigit_natDigits c hc)
  | number text =>
      obtain ⟨⟨v, hv⟩, -⟩ := hx
      obtain ⟨used, hused, hchars⟩ := consumes_scanNumber hv
      rw [List.append_nil] at hused
      subst hused
      exact printable_of_numberChar (hchars c hc)
  | str text => exact printable_dumpString text c hc

private theorem printable_dumpMember {member : List Char × Scalar} (hvalid : member.2.Valid) :
    ∀ c ∈ dumpMember member, Printable c := by
  intro c hc
  simp only [dumpMember, List.mem_append, List.mem_cons] at hc
  rcases hc with hc | rfl | hc
  · exact printable_dumpString _ c hc
  · decide
  · exact printable_dumpScalar hvalid c hc

private theorem printable_dumpMembers {ms : List (List Char × Scalar)} (hvalid : ∀ m ∈ ms, m.2.Valid) :
    ∀ c ∈ dumpMembers ms, Printable c := by
  induction ms with
  | nil => exact printable_of_all (by decide)
  | cons m ms ih =>
      intro c hc
      have hm := hvalid m List.mem_cons_self
      cases ms with
      | nil =>
          simp only [dumpMembers, List.mem_append, List.mem_singleton] at hc
          rcases hc with hc | rfl
          · exact printable_dumpMember hm c hc
          · decide
      | cons m' ms =>
          simp only [dumpMembers, List.mem_append, List.mem_cons] at hc
          rcases hc with hc | rfl | hc
          · exact printable_dumpMember hm c hc
          · decide
          · exact ih (fun x hx => hvalid x (List.mem_cons_of_mem _ hx)) c hc

theorem printable_dumps {ms : List (List Char × Scalar)} (hvalid : ∀ m ∈ ms, m.2.Valid) :
    ∀ c ∈ dumps ms, Printable c := by
  intro c hc
  rw [dumps, List.mem_cons] at hc
  rcases hc with rfl | hc
  · decide
  · exact printable_dumpMembers hvalid c hc

end Cortex.Json
