import Cortex.Library.PyText

/-!
# Markdown for Telegram

`escape_markdown_v2` and `chunk_markdown_v2`.  A text is escaped character by character, so
what the code has to keep whole are the pairs of a backslash and a reserved character.  A
prefix of an escaped text ends inside such a pair exactly when it ends with an odd number
of backslashes (`cut_escape`).
-/

namespace Cortex.Transports

open PyText

abbrev Text := List Char

/-! ## The code -/

/-- `_MARKDOWN_V2_RESERVED` -/
def markdownV2Reserved : List Char :=
  ['_', '*', '[', ']', '(', ')', '~', '\x60', '>', '#', '+', '-', '=', '|', '{', '}', '.', '!', '\\']

def isReserved (c : Char) : Bool := decide (c ∈ markdownV2Reserved)

def escapeChar (c : Char) : Text := if isReserved c then ['\\', c] else [c]

/-- `escape_markdown_v2` -/
def escapeMarkdownV2 (value : Text) : Text := value.flatMap escapeChar

/-- `_ends_with_odd_backslashes` -/
def endsWithOddBackslashes (value : Text) : Bool :=
  (value.reverse.takeWhile fun c => c = '\\').length % 2 = 1

/-- The loop that takes the boundary back before an escaped character. -/
def walkBack (remaining : Text) : ℕ → ℕ
  | b + 2 => if endsWithOddBackslashes (remaining.take (b + 2)) then walkBack remaining (b + 1)
      else b + 2
  | b => b

/-- The last line break or space among the first `maximum + 1` characters, but at least `1`. -/
def lastBreak (maximum : ℕ) (remaining : Text) : ℕ :=
  (max 1 (max (rfind '\n' remaining (maximum + 1)) (rfind ' ' remaining (maximum + 1)))).toNat

/-- Where the next chunk ends. -/
def boundary (maximum : ℕ) (remaining : Text) : ℕ :=
  walkBack remaining
    (if lastBreak maximum remaining < maximum / 2 then maximum else lastBreak maximum remaining)

/-- The chunk that is cut off. -/
def cutChunk (prefix_ : Text) : Text := if rstrip prefix_ = [] then prefix_ else rstrip prefix_

theorem walkBack_pos (remaining : Text) {b : ℕ} (h : 0 < b) : 0 < walkBack remaining b := by
  induction b with
  | zero => exact absurd h (lt_irrefl 0)
  | succ b ih =>
      cases b with
      | zero => exact h
      | succ b =>
          unfold walkBack
          split
          · exact ih (Nat.succ_pos b)
          · exact h

theorem lastBreak_pos (maximum : ℕ) (remaining : Text) : 0 < lastBreak maximum remaining := by
  unfold lastBreak
  omega

theorem boundary_pos {maximum : ℕ} (remaining : Text) (h : 0 < maximum) :
    0 < boundary maximum remaining := by
  refine walkBack_pos remaining ?_
  split
  · exact h
  · exact lastBreak_pos maximum remaining

/-- The loop of `chunk_markdown_v2`; it ends because every turn takes a character away. -/
def chunkLoop (maximum : ℕ) (hmaximum : 0 < maximum) (remaining : Text) : List Text :=
  if remaining = [] then []
  else if remaining.length ≤ maximum then [remaining]
  else
    cutChunk (remaining.take (boundary maximum remaining)) ::
      chunkLoop maximum hmaximum (lstrip (remaining.drop (boundary maximum remaining)))
termination_by remaining.length
decreasing_by
  have hpos := boundary_pos remaining hmaximum
  have hle := (List.dropWhile_suffix (l := remaining.drop (boundary maximum remaining))
    isSpace).length_le
  rw [List.length_drop] at hle
  rw [lstrip]
  omega

/-- `chunk_markdown_v2` -/
def chunkMarkdownV2 (value : Text) (maximum : ℕ) : Except String (List Text) :=
  if h : maximum < 2 then .error "maximum must be at least two characters"
  else if escapeMarkdownV2 value = [] then .ok [[]]
  else .ok (chunkLoop maximum (by omega) (escapeMarkdownV2 value))

/-! ## Escaped texts -/

variable {c : Char} {v p q : Text}

@[simp] theorem escape_nil : escapeMarkdownV2 [] = [] := rfl

@[simp] theorem escape_cons : escapeMarkdownV2 (c :: v) = escapeChar c ++ escapeMarkdownV2 v := rfl

@[simp] theorem escape_append :
    escapeMarkdownV2 (p ++ q) = escapeMarkdownV2 p ++ escapeMarkdownV2 q :=
  List.flatMap_append

theorem escapeChar_of_reserved (h : isReserved c = true) : escapeChar c = ['\\', c] := if_pos h

theorem escapeChar_of_not (h : isReserved c = false) : escapeChar c = [c] :=
  if_neg (by rw [h]; exact Bool.false_ne_true)

theorem not_reserved_of_space (h : isSpace c = true) : isReserved c = false := by
  have hreserved : markdownV2Reserved.any isSpace = false := by decide
  refine decide_eq_false fun hmem => ?_
  exact List.any_eq_false.1 hreserved c hmem h

theorem escape_ne_nil (h : v ≠ []) : escapeMarkdownV2 v ≠ [] := by
  cases v with
  | nil => exact absurd rfl h
  | cons c v =>
      rw [escape_cons, escapeChar]
      split <;> exact List.cons_ne_nil _ _

theorem length_le_escape (v : Text) : v.length ≤ (escapeMarkdownV2 v).length := by
  induction v with
  | nil => exact le_rfl
  | cons c v ih =>
      rw [escape_cons, List.length_append, List.length_cons, escapeChar]
      split <;> simp only [List.length_cons, List.length_nil] <;> omega

/-- White space is escaped to itself. -/
theorem escape_of_blank (h : ∀ c ∈ v, isSpace c = true) : escapeMarkdownV2 v = v := by
  induction v with
  | nil => rfl
  | cons c v ih =>
      rw [escape_cons, escapeChar_of_not (not_reserved_of_space (h c (.head _))),
        ih fun d hd => h d (.tail _ hd)]
      rfl

theorem blank_escape_iff : (∀ c ∈ escapeMarkdownV2 v, isSpace c = true) ↔ ∀ c ∈ v, isSpace c = true := by
  constructor
  · intro h c hc
    refine h c (List.mem_flatMap.2 ⟨c, hc, ?_⟩)
    unfold escapeChar
    split <;> simp
  · intro h
    rwa [escape_of_blank h]

theorem lstrip_escape (v : Text) : lstrip (escapeMarkdownV2 v) = escapeMarkdownV2 (lstrip v) := by
  induction v with
  | nil => rfl
  | cons c v ih =>
      unfold lstrip at ih ⊢
      by_cases hspace : isSpace c = true
      · rw [escape_cons, escapeChar_of_not (not_reserved_of_space hspace), List.singleton_append,
          List.dropWhile_cons_of_pos hspace, List.dropWhile_cons_of_pos hspace, ih]
      · rw [List.dropWhile_cons_of_neg hspace, escape_cons, escapeChar]
        split
        · exact List.dropWhile_cons_of_neg (by decide)
        · exact List.dropWhile_cons_of_neg hspace

theorem rstrip_escape (v : Text) : rstrip (escapeMarkdownV2 v) = escapeMarkdownV2 (rstrip v) := by
  induction v using List.reverseRecOn with
  | nil => rfl
  | append_singleton v c ih =>
      unfold rstrip at ih ⊢
      by_cases hspace : isSpace c = true
      · rw [escape_append, escape_cons, escape_nil, List.append_nil,
          escapeChar_of_not (not_reserved_of_space hspace), List.rdropWhile_concat_pos _ _ _ hspace,
          List.rdropWhile_concat_pos _ _ _ hspace, ih]
      · have hlast : escapeChar c = (escapeChar c).dropLast ++ [c] := by
          unfold escapeChar
          split <;> rfl
        rw [List.rdropWhile_concat_neg _ _ _ hspace, escape_append, escape_cons, escape_nil,
          List.append_nil, hlast, ← List.append_assoc, List.rdropWhile_concat_neg _ _ _ hspace]

/-! ## Pairs -/

theorem endsWithOdd_concat_of_ne (h : c ≠ '\\') : endsWithOddBackslashes (v ++ [c]) = false := by
  simp [endsWithOddBackslashes, h]

theorem endsWithOdd_concat_backslash :
    endsWithOddBackslashes (v ++ ['\\']) = !endsWithOddBackslashes v := by
  simp only [endsWithOddBackslashes, List.reverse_append, List.reverse_singleton,
    List.singleton_append, List.takeWhile_cons_of_pos, decide_true, List.length_cons]
  rw [← decide_not, decide_eq_decide]
  omega

/-- An escaped text ends with a pair or with another character. -/
@[simp] theorem endsWithOdd_escape (v : Text) : endsWithOddBackslashes (escapeMarkdownV2 v) = false := by
  induction v using List.reverseRecOn with
  | nil => rfl
  | append_singleton v c ih =>
      rw [escape_append, escape_cons, escape_nil, List.append_nil]
      by_cases hc : c = '\\'
      · subst hc
        rw [show escapeChar '\\' = ['\\'] ++ ['\\'] from rfl, ← List.append_assoc,
          endsWithOdd_concat_backslash, endsWithOdd_concat_backslash, ih]
        rfl
      · have hlast : escapeChar c = (escapeChar c).dropLast ++ [c] := by
          unfold escapeChar
          split <;> rfl
        rw [hlast, ← List.append_assoc, endsWithOdd_concat_of_ne hc]

/-- A cut of an escaped text is between two characters of the text or inside a pair. -/
theorem cut_escape {n : ℕ} (h : n ≤ (escapeMarkdownV2 v).length) :
    (∃ p q, v = p ++ q ∧ (escapeMarkdownV2 p).length = n) ∨
      ∃ p c q, v = p ++ c :: q ∧ isReserved c = true ∧ (escapeMarkdownV2 p).length + 1 = n := by
  induction v generalizing n with
  | nil => exact .inl ⟨[], [], rfl, (Nat.le_zero.1 h).symm⟩
  | cons c v ih =>
      rcases Nat.eq_zero_or_pos n with rfl | hpos
      · exact .inl ⟨[], c :: v, rfl, rfl⟩
      by_cases hreserved : isReserved c = true
      · rw [escape_cons, escapeChar_of_reserved hreserved] at h
        by_cases hone : n = 1
        · exact .inr ⟨[], c, v, rfl, hreserved, hone.symm⟩
        obtain ⟨n, rfl⟩ : ∃ m, n = m + 2 := ⟨n - 2, by omega⟩
        rcases ih (n := n) (by simpa using h) with ⟨p, q, rfl, hp⟩ | ⟨p, d, q, rfl, hd, hp⟩
        · refine .inl ⟨c :: p, q, rfl, ?_⟩
          rw [escape_cons, escapeChar_of_reserved hreserved]
          simp [hp]
        · refine .inr ⟨c :: p, d, q, rfl, hd, ?_⟩
          rw [escape_cons, escapeChar_of_reserved hreserved]
          simp [hp]
      · rw [Bool.not_eq_true] at hreserved
        rw [escape_cons, escapeChar_of_not hreserved] at h
        obtain ⟨n, rfl⟩ : ∃ m, n = m + 1 := ⟨n - 1, by omega⟩
        rcases ih (n := n) (by simpa using h) with ⟨p, q, rfl, hp⟩ | ⟨p, d, q, rfl, hd, hp⟩
        · refine .inl ⟨c :: p, q, rfl, ?_⟩
          rw [escape_cons, escapeChar_of_not hreserved]
          simp [hp]
        · refine .inr ⟨c :: p, d, q, rfl, hd, ?_⟩
          rw [escape_cons, escapeChar_of_not hreserved]
          simp [hp]

end Cortex.Transports
