import Cortex.Redaction.Patterns
import Cortex.Xhs.Title

/-!
# Lines

A line has no white space but single blanks between its words.  `collapse` makes a line
of a text, and leaves a line as it is.
-/

namespace Cortex.Redaction

open PyText Tokens Xhs

/-- Single blanks are the only white space. -/
structure Spaced (x : Text) : Prop where
  blank : ∀ c ∈ x, isSpace c = true → c = ' '
  single : ¬[' ', ' '] <:+: x

structure IsLine (x : Text) : Prop extends Spaced x where
  head : x.head? ≠ some ' '
  last : x.getLast? ≠ some ' '

variable {x y : Text}

theorem Spaced.of_part (h : Spaced x) (hmid : y <:+: x) : Spaced y where
  blank c hc := h.blank c (hmid.subset hc)
  single hy := h.single (hy.trans hmid)

theorem isSpace_blank : isSpace ' ' = true := by decide

private theorem isLine_of_token {token : Text} (h : IsToken token) : IsLine token where
  blank c hc hspace := absurd hspace (by simp [h.2 c hc])
  single hmid := h.not_mem_space (hmid.subset (.head _))
  head hhead := h.not_mem_space (List.mem_of_head? hhead)
  last hlast := h.not_mem_space (List.mem_of_getLast? hlast)

/-- A word before a line. -/
private theorem isLine_append {token : Text} (ht : IsToken token) (hx : IsLine x)
    (hne : x ≠ []) : IsLine (token ++ ' ' :: x) where
  blank c hc hspace := by
    rcases List.mem_append.1 hc with hc | hc
    · exact absurd hspace (by simp [ht.2 c hc])
    · rcases List.mem_cons.1 hc with rfl | hc
      · rfl
      · exact hx.blank c hc hspace
  single := by
    rintro ⟨a, b, hab⟩
    rw [List.append_assoc] at hab
    rcases List.append_eq_append_iff.1 hab with ⟨r, hr, hrest⟩ | ⟨r, rfl, hrest⟩
    · -- the two blanks start in the word, or at the blank after it
      cases r with
      | nil =>
          obtain ⟨-, htail⟩ := List.cons.inj hrest
          refine hx.head ?_
          rw [← htail]
          rfl
      | cons c r =>
          obtain ⟨rfl, -⟩ := List.cons.inj hrest
          exact ht.not_mem_space (hr ▸ List.mem_append_right a (.head _))
    · cases r with
      | nil =>
          obtain ⟨-, htail⟩ := List.cons.inj hrest
          refine hx.head ?_
          rw [htail]
          rfl
      | cons c r =>
          obtain ⟨-, htail⟩ := List.cons.inj hrest
          exact hx.single ⟨r, b, by rw [List.append_assoc]; exact htail.symm⟩
  head := by
    obtain ⟨c, token, rfl⟩ := List.exists_cons_of_ne_nil ht.1
    exact fun h => ht.not_mem_space (Option.some.inj h ▸ .head _)
  last := by
    rw [List.getLast?_append_of_ne_nil _ (List.cons_ne_nil _ _)]
    obtain ⟨c, x, rfl⟩ := List.exists_cons_of_ne_nil hne
    rw [List.getLast?_cons_cons]
    exact hx.last

theorem isLine_join {tokens : List Text} (h : ∀ token ∈ tokens, IsToken token) :
    IsLine (join ' ' tokens) := by
  induction tokens with
  | nil => exact ⟨⟨fun c hc => (by cases hc), by decide⟩, by decide, by decide⟩
  | cons token rest ih =>
      have htoken := h token (.head _)
      by_cases hrest : rest = []
      · subst hrest
        rw [join_singleton]
        exact isLine_of_token htoken
      · rw [join_cons _ _ hrest]
        refine isLine_append htoken (ih fun other hmem => h other (.tail _ hmem)) ?_
        obtain ⟨other, rest, rfl⟩ := List.exists_cons_of_ne_nil hrest
        have hother := (h other (.tail _ (.head _))).1
        by_cases hnil : rest = []
        · subst hnil
          rwa [join_singleton]
        · rw [join_cons _ _ hnil]
          simp

/-- `split` and `join` make a line. -/
theorem isLine_collapse (text : Text) : IsLine (collapse text) :=
  isLine_join fun _ => isToken_of_mem_words

/-- A line is made of words. -/
theorem IsLine.exists_tokens (h : IsLine x) :
    ∃ tokens : List Text, (∀ token ∈ tokens, IsToken token) ∧ x = join ' ' tokens := by
  induction hn : x.length using Nat.strong_induction_on generalizing x with
  | _ n ih =>
    by_cases hx : x = []
    · exact ⟨[], fun token hmem => (by cases hmem), hx⟩
    -- the first word ends at a blank, or with the line
    have hsplit := List.takeWhile_append_dropWhile (p := fun c => !isSpace c) (l := x)
    have htoken : IsToken (x.takeWhile fun c => !isSpace c) := by
      refine ⟨?_, fun c hc => by simpa using List.mem_takeWhile_imp hc⟩
      obtain ⟨c, x, rfl⟩ := List.exists_cons_of_ne_nil hx
      have hc : isSpace c = false := by
        by_contra hspace
        exact h.head (by rw [h.blank c (.head _) (by simpa using hspace)]; rfl)
      rw [List.takeWhile_cons_of_pos (by rw [hc]; rfl)]
      exact List.cons_ne_nil _ _
    have hdrop := List.head?_dropWhile_not (fun c => !isSpace c) x
    generalize x.takeWhile (fun c => !isSpace c) = token at hsplit htoken
    cases hr : x.dropWhile (fun c => !isSpace c) with
    | nil =>
        rw [hr, List.append_nil] at hsplit
        exact ⟨[token], fun other hmem => List.mem_singleton.1 hmem ▸ htoken,
          by rw [join_singleton, hsplit]⟩
    | cons c rest =>
        rw [hr] at hsplit hdrop
        obtain rfl : c = ' ' := by
          refine h.blank c (hsplit ▸ by simp) ?_
          simpa using hdrop
        subst hsplit
        have hrest : rest ≠ [] := by
          rintro rfl
          exact h.last (by simp)
        have hline : IsLine rest := by
          refine ⟨h.toSpaced.of_part ⟨token ++ [' '], [], by simp⟩, fun hhead => ?_,
            fun hlast => ?_⟩
          · obtain ⟨d, rest, rfl⟩ := List.exists_cons_of_ne_nil hrest
            obtain rfl := Option.some.inj hhead
            exact h.single ⟨token, rest, by simp⟩
          · obtain ⟨d, rest, rfl⟩ := List.exists_cons_of_ne_nil hrest
            refine h.last ?_
            rw [List.getLast?_append_of_ne_nil _ (List.cons_ne_nil _ _), List.getLast?_cons_cons]
            exact hlast
        obtain ⟨tokens, htokens, rfl⟩ := ih rest.length (by rw [← hn]; simp; omega) hline rfl
        refine ⟨token :: tokens, fun other hmem => ?_, ?_⟩
        · rcases List.mem_cons.1 hmem with rfl | hmem
          · exact htoken
          · exact htokens other hmem
        · rw [join_cons]
          rintro rfl
          exact hrest (join_nil ' ')

theorem collapse_eq_self (h : IsLine x) : collapse x = x := by
  obtain ⟨tokens, htokens, rfl⟩ := h.exists_tokens
  rw [collapse, words_join htokens]

/-! ## The start of a line -/

/-- The start of a line is a line, but for a blank at its end. -/
theorem IsLine.of_start (h : IsLine x) (hy : y <+: x) (hlast : y.getLast? ≠ some ' ') :
    IsLine y where
  toSpaced := h.toSpaced.of_part hy.isInfix
  head hhead := by
    obtain ⟨z, rfl⟩ := hy
    exact h.head (by rw [List.head?_append, hhead]; rfl)
  last := hlast

theorem words_append_blank (x : Text) : words (x ++ [' ']) = words x := by
  induction x with
  | nil => decide
  | cons c x ih =>
      rw [List.cons_append, words, words, ih]
      cases x with
      | nil => rfl
      | cons d x =>
          generalize words (d :: x) = rest
          cases rest with
          | nil => rfl
          | cons word rest => rfl

/-- A blank at the end is lost. -/
theorem collapse_append_blank (h : IsLine (x ++ ' ' :: y)) : collapse (x ++ [' ']) = x := by
  have hlast : x.getLast? ≠ some ' ' := by
    intro hlast
    obtain ⟨a, rfl⟩ := List.getLast?_eq_some_iff.1 hlast
    exact h.single ⟨a, y, by simp⟩
  rw [collapse, words_append_blank]
  exact collapse_eq_self (h.of_start (List.prefix_append _ _) hlast)

end Cortex.Redaction
