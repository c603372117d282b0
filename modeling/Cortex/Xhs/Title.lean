import Cortex.Library.Tokens
import Cortex.Xhs.Identify
import Mathlib.Data.Finset.Card
import Mathlib.Data.Finset.Dedup

/-!
# Page titles

`title_matches` compares the tokens of two titles as texts, joined by spaces.  A text is
a part of another one also where it starts or ends inside a token, and there it does not
match on whole words; `titleMatches_iff` says that this is all that goes wrong.
-/

namespace Cortex.Xhs

open PyText Tokens

/-- What `\w` of a regular expression is. -/
structure WordChars where
  isWord : Char → Bool
  space : ∀ c, isSpace c = true → isWord c = false

/-- `_CJK` -/
def isCjk (c : Char) : Bool :=
  let n := c.toNat
  0x3040 ≤ n ∧ n ≤ 0x30FF ∨ 0x3400 ≤ n ∧ n ≤ 0x9FFF ∨ 0xF900 ≤ n ∧ n ≤ 0xFAFF ∨
    0xAC00 ≤ n ∧ n ≤ 0xD7AF

variable (chars : WordChars) (unicode : Unicode)

/-- `[^\W_{_CJK}]` -/
def isTokenChar (c : Char) : Bool := chars.isWord c && c ≠ '_' && !isCjk c

/-- `_TOKEN_RE.findall` -/
def tokenize : Text → List Text
  | [] => []
  | c :: text =>
      if isCjk c then [c] :: tokenize text
      else if isTokenChar chars c then glue (isTokenChar chars) c text (tokenize text)
      else tokenize text

/-- `_tokens` -/
def tokens (value : Text) : List Text := tokenize chars (normalizeMatchText unicode value)

/-- One page title. -/
def titleMatch (expected : Text) (title : Text) : Bool :=
  let wanted := join ' ' (tokens chars unicode expected)
  let wantedTokens := (words wanted).toFinset
  let foundTokens := tokens chars unicode title
  let found := join ' ' foundTokens
  title ≠ [] ∧ found ≠ [] ∧
    (wanted <:+: found ∨ (3 ≤ foundTokens.length ∧ found <:+: wanted) ∨
      -- an overlap of at least 0.6
      3 * wantedTokens.card ≤ 5 * (wantedTokens ∩ foundTokens.toFinset).card)

/-- `title_matches` -/
def titleMatches (expected : Text) (observed : List (Option Text)) : Bool :=
  let wantedTokens := (words (join ' ' (tokens chars unicode expected))).toFinset
  if wantedTokens = ∅ then false
  else observed.any fun title => title.any (titleMatch chars unicode expected)

/-- A title verifies on whole words. -/
def Verifies (wanted found : List Text) : Prop :=
  wanted <:+: found ∨ (3 ≤ found.length ∧ found <:+: wanted) ∨
    3 * wanted.toFinset.card ≤ 5 * (wanted.toFinset ∩ found.toFinset).card

/-- Tokens that are next to each other in others, but that the first one starts or the
last one ends inside another token. -/
def Inside (wanted found : List Text) : Prop :=
  ∃ p q, (p ≠ [] ∨ q ≠ []) ∧ widen p q wanted <:+: found

/-- A title that matches inside a token. -/
def MatchesInside (wanted found : List Text) : Prop :=
  Inside wanted found ∨ (3 ≤ found.length ∧ Inside found wanted)

variable {chars unicode}

/-! ## Tokens -/

private theorem not_space_of_isCjk {c : Char} (h : isCjk c = true) : isSpace c = false := by
  rw [isCjk, decide_eq_true_eq] at h
  rw [isSpace, decide_eq_false_iff_not]
  omega

private theorem not_space_of_isTokenChar {c : Char} (h : isTokenChar chars c = true) :
    isSpace c = false := by
  rw [isTokenChar, Bool.and_eq_true, Bool.and_eq_true] at h
  by_contra hspace
  rw [chars.space c (by simpa using hspace)] at h
  exact absurd h.1.1 Bool.false_ne_true

/-- A token is not empty, and it has no space in it. -/
def IsToken (token : Text) : Prop := token ≠ [] ∧ ∀ c ∈ token, isSpace c = false

theorem isToken_of_mem_glue {isPart : Char → Bool} {c : Char} {text : Text}
    {rest : List Text} {token : Text} (hc : isSpace c = false)
    (hrest : ∀ token ∈ rest, IsToken token) (h : token ∈ glue isPart c text rest) :
    IsToken token := by
  have hsingle : IsToken [c] :=
    ⟨List.cons_ne_nil _ _, fun d hd => List.mem_singleton.1 hd ▸ hc⟩
  unfold glue at h
  split at h
  · rename_i d tail word rest
    split_ifs at h
    · rcases List.mem_cons.1 h with rfl | h
      · refine ⟨List.cons_ne_nil _ _, fun e he => ?_⟩
        rcases List.mem_cons.1 he with rfl | he
        · exact hc
        · exact (hrest word (.head _)).2 e he
      · exact hrest token (.tail _ h)
    · rcases List.mem_cons.1 h with rfl | h
      · exact hsingle
      · exact hrest token h
  · rcases List.mem_cons.1 h with rfl | h
    · exact hsingle
    · exact hrest token h

theorem isToken_of_mem {text token : Text} (h : token ∈ tokenize chars text) : IsToken token := by
  induction text generalizing token with
  | nil => cases h
  | cons c text ih =>
      rw [tokenize] at h
      split_ifs at h with hcjk hchar
      · rcases List.mem_cons.1 h with rfl | h
        · exact ⟨List.cons_ne_nil _ _, fun d hd =>
            List.mem_singleton.1 hd ▸ not_space_of_isCjk hcjk⟩
        · exact ih h
      · exact isToken_of_mem_glue (not_space_of_isTokenChar hchar) (fun token hmem => ih hmem) h
      · exact ih h

theorem isToken_of_mem_tokens {value token : Text} (h : token ∈ tokens chars unicode value) :
    IsToken token :=
  isToken_of_mem h

theorem isToken_of_mem_words {text word : Text} (h : word ∈ words text) : IsToken word := by
  induction text generalizing word with
  | nil => cases h
  | cons d text ih =>
      rw [words] at h
      split_ifs at h with hspace
      · exact ih h
      · exact isToken_of_mem_glue (by simpa using hspace) (fun token hmem => ih hmem) h

theorem IsToken.not_mem_space {token : Text} (h : IsToken token) : ' ' ∉ token :=
  fun hmem => absurd (h.2 ' ' hmem) (by decide)

/-- A token at the start of a text, up to a space or the end. -/
private theorem words_append {token rest : Text} (h : IsToken token)
    (hrest : rest = [] ∨ rest.head? = some ' ') : words (token ++ rest) = token :: words rest := by
  obtain ⟨hne, hspace⟩ := h
  induction token with
  | nil => exact absurd rfl hne
  | cons c token ih =>
      have hc : ¬isSpace c = true := by
        rw [hspace c (.head _)]
        exact Bool.false_ne_true
      rw [List.cons_append, words, if_neg hc]
      cases token with
      | nil =>
          rw [List.nil_append]
          cases rest with
          | nil => rfl
          | cons d rest =>
              obtain rfl : d = ' ' := by simpa using hrest
              exact glue_of_not _ _ _ (by decide)
      | cons d token =>
          rw [ih (List.cons_ne_nil _ _) fun e he => hspace e (.tail _ he)]
          exact glue_of_part _ _ _ _ (by rw [hspace d (.tail _ (.head _))]; rfl)

/-- Joined tokens are split again. -/
theorem words_join {tokens : List Text} (h : ∀ token ∈ tokens, IsToken token) :
    words (join ' ' tokens) = tokens := by
  induction tokens with
  | nil => rw [join_nil, words]
  | cons token rest ih =>
      by_cases hrest : rest = []
      · subst hrest
        have htoken := words_append (h token (.head _)) (.inl rfl)
        rw [List.append_nil] at htoken
        rw [join_singleton, htoken, words]
      · have hblank : words (' ' :: join ' ' rest) = words (join ' ' rest) := by
          rw [words, if_pos (by decide)]
        rw [join_cons _ _ hrest, words_append (h token (.head _)) (.inr rfl), hblank,
          ih fun other hother => h other (.tail _ hother)]

/-! ## Matches -/

private theorem join_tokens_eq_nil {value : Text} :
    join ' ' (tokens chars unicode value) = [] ↔ tokens chars unicode value = [] := by
  constructor
  · intro h
    rw [← words_join fun token => isToken_of_mem_tokens, h, words]
  · intro h
    rw [h, join_nil]

/-- A joined text is a part of another one on whole words, or inside a token. -/
private theorem join_infix_iff {wanted found : List Text} (hne : wanted ≠ [])
    (hwanted : ∀ token ∈ wanted, IsToken token) (hfound : ∀ token ∈ found, IsToken token) :
    join ' ' wanted <:+: join ' ' found ↔ wanted <:+: found ∨ Inside wanted found := by
  rw [infix_join_iff hne (fun token h => (hwanted token h).1)
    (fun token h => (hwanted token h).not_mem_space) fun token h => (hfound token h).not_mem_space]
  constructor
  · rintro ⟨p, q, h⟩
    by_cases hwhole : p = [] ∧ q = []
    · obtain ⟨rfl, rfl⟩ := hwhole
      rw [widen_nil] at h
      exact .inl h
    · exact .inr ⟨p, q, not_and_or.1 hwhole, h⟩
  · rintro (h | ⟨p, q, -, h⟩)
    · exact ⟨[], [], by rwa [widen_nil]⟩
    · exact ⟨p, q, h⟩

private theorem Inside.ne_nil {wanted found : List Text} (hne : wanted ≠ [])
    (h : Inside wanted found) : found ≠ [] := by
  obtain ⟨p, q, -, hinfix⟩ := h
  rintro rfl
  exact widen_ne_nil hne (List.infix_nil.1 hinfix)

/-- One page title matches on whole words, or inside a token. -/
theorem titleMatch_iff {expected title : Text} (hne : tokens chars unicode expected ≠ []) :
    titleMatch chars unicode expected title = true ↔
      Verifies (tokens chars unicode expected) (tokens chars unicode title) ∨
        MatchesInside (tokens chars unicode expected) (tokens chars unicode title) := by
  have hwanted : ∀ token ∈ tokens chars unicode expected, IsToken token :=
    fun token => isToken_of_mem_tokens
  have hfound : ∀ token ∈ tokens chars unicode title, IsToken token :=
    fun token => isToken_of_mem_tokens
  have hsome : Verifies (tokens chars unicode expected) (tokens chars unicode title) ∨
      MatchesInside (tokens chars unicode expected) (tokens chars unicode title) →
        tokens chars unicode title ≠ [] := by
    rintro ((h | ⟨hlength, -⟩ | h) | (h | ⟨hlength, -⟩)) hnil
    · rw [hnil] at h
      exact hne (List.infix_nil.1 h)
    · simp [hnil] at hlength
    · rw [hnil, List.toFinset_nil, Finset.inter_empty, Finset.card_empty, Nat.mul_zero] at h
      have hcard : (tokens chars unicode expected).toFinset.card = 0 := by omega
      exact hne ((List.toFinset_eq_empty_iff _).1 (Finset.card_eq_zero.1 hcard))
    · exact h.ne_nil hne hnil
    · simp [hnil] at hlength
  have htitle : tokens chars unicode title ≠ [] → title ≠ [] := by
    rintro hnil rfl
    refine hnil ?_
    rw [tokens, normalizeMatchText, unicode.fold_nil, words, List.intercalate_nil, tokenize]
  have hcases : (join ' ' (tokens chars unicode expected) <:+:
        join ' ' (tokens chars unicode title) ∨
      (3 ≤ (tokens chars unicode title).length ∧
        join ' ' (tokens chars unicode title) <:+: join ' ' (tokens chars unicode expected)) ∨
      3 * (tokens chars unicode expected).toFinset.card ≤
        5 * ((tokens chars unicode expected).toFinset ∩
          (tokens chars unicode title).toFinset).card) ↔
      Verifies (tokens chars unicode expected) (tokens chars unicode title) ∨
        MatchesInside (tokens chars unicode expected) (tokens chars unicode title) := by
    have hreverse : 3 ≤ (tokens chars unicode title).length →
        (join ' ' (tokens chars unicode title) <:+: join ' ' (tokens chars unicode expected) ↔
          tokens chars unicode title <:+: tokens chars unicode expected ∨
            Inside (tokens chars unicode title) (tokens chars unicode expected)) := by
      intro hlength
      refine join_infix_iff ?_ hfound hwanted
      intro hnil
      simp [hnil] at hlength
    rw [join_infix_iff hne hwanted hfound, and_congr_right hreverse, Verifies, MatchesInside,
      and_or_left]
    tauto
  rw [titleMatch, decide_eq_true_eq, words_join hwanted, hcases]
  refine ⟨fun h => h.2.2, fun h => ⟨htitle (hsome h), ?_, h⟩⟩
  exact fun hnil => hsome h (join_tokens_eq_nil.1 hnil)

/-- A page title verifies on whole words, unless the expected title has no words, or all
that matches matches inside a token. -/
theorem titleMatches_iff (chars : WordChars) (unicode : Unicode) (expected : Text)
    (observed : List (Option Text)) :
    (titleMatches chars unicode expected observed = true ↔
      ∃ title, some title ∈ observed ∧
        Verifies (tokens chars unicode expected) (tokens chars unicode title)) ↔
    (tokens chars unicode expected = [] → ∀ title, some title ∉ observed) ∧
      (tokens chars unicode expected ≠ [] →
        ∀ title, some title ∈ observed →
          MatchesInside (tokens chars unicode expected) (tokens chars unicode title) →
            ∃ other, some other ∈ observed ∧
              Verifies (tokens chars unicode expected) (tokens chars unicode other)) := by
  have hwords : (words (join ' ' (tokens chars unicode expected))).toFinset = ∅ ↔
      tokens chars unicode expected = [] := by
    rw [words_join fun token => isToken_of_mem_tokens, List.toFinset_eq_empty_iff]
  by_cases hne : tokens chars unicode expected = []
  · have hfalse : titleMatches chars unicode expected observed = false := if_pos (hwords.2 hne)
    rw [hfalse, hne]
    constructor
    · intro h
      refine ⟨fun _ title hmem => ?_, fun hno => absurd rfl hno⟩
      exact absurd (h.2 ⟨title, hmem, .inl (List.nil_prefix).isInfix⟩) Bool.false_ne_true
    · rintro ⟨hnone, -⟩
      exact ⟨fun h => absurd h Bool.false_ne_true,
        fun ⟨title, hmem, _⟩ => absurd hmem (hnone rfl title)⟩
  · have hmatches : titleMatches chars unicode expected observed = true ↔
        ∃ title, some title ∈ observed ∧
          (Verifies (tokens chars unicode expected) (tokens chars unicode title) ∨
            MatchesInside (tokens chars unicode expected) (tokens chars unicode title)) := by
      have hany : titleMatches chars unicode expected observed =
          observed.any fun title => title.any (titleMatch chars unicode expected) :=
        if_neg (mt hwords.1 hne)
      rw [hany, List.any_eq_true]
      constructor
      · rintro ⟨title, hmem, hmatch⟩
        cases title with
        | none => exact absurd hmatch Bool.false_ne_true
        | some title => exact ⟨title, hmem, (titleMatch_iff hne).1 hmatch⟩
      · rintro ⟨title, hmem, hmatch⟩
        exact ⟨some title, hmem, (titleMatch_iff hne).2 hmatch⟩
    rw [hmatches]
    constructor
    · intro h
      exact ⟨fun hno => absurd hno hne, fun _ title hmem hinside =>
        h.1 ⟨title, hmem, .inr hinside⟩⟩
    · rintro ⟨-, h⟩
      constructor
      · rintro ⟨title, hmem, hverifies | hinside⟩
        · exact ⟨title, hmem, hverifies⟩
        · exact h hne title hmem hinside
      · rintro ⟨title, hmem, hverifies⟩
        exact ⟨title, hmem, .inl hverifies⟩

private theorem not_word_of_isSpace (c : Char) (h : isSpace c = true) :
    (c.isAlphanum || c = '_') = false := by
  rw [isSpace, decide_eq_true_eq] at h
  rw [Bool.eq_false_iff, ne_eq, Bool.or_eq_true, decide_eq_true_eq, isAlphanum_iff]
  rintro (hletter | rfl)
  · omega
  · rw [show '_'.toNat = 95 from rfl] at h
    omega

/-- The word characters of ASCII texts. -/
def asciiWords : WordChars where
  isWord c := c.isAlphanum || c = '_'
  space := not_word_of_isSpace

/-- A word that is inside of another one. -/
theorem titleMatches_inside :
    titleMatches asciiWords asciiUnicode "rag".toList [some "Dragons".toList] = true ∧
      ¬∃ title, some title ∈ [some "Dragons".toList] ∧
        Verifies (tokens asciiWords asciiUnicode "rag".toList)
          (tokens asciiWords asciiUnicode title) := by
  refine ⟨by decide +kernel, ?_⟩
  rintro ⟨title, hmem, hverifies⟩
  obtain rfl : title = "Dragons".toList := by simpa using hmem
  have hwanted : tokens asciiWords asciiUnicode "rag".toList = ["rag".toList] := by decide +kernel
  have hfound : tokens asciiWords asciiUnicode "Dragons".toList = ["dragons".toList] := by
    decide +kernel
  rw [hwanted, hfound, Verifies] at hverifies
  revert hverifies
  decide

end Cortex.Xhs
