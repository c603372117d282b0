import Cortex.Redaction.Userinfo

/-!
# What the patterns find

Each of the nine patterns masks secrets, and these stand where its place says.
-/

namespace Cortex.Redaction

open PyText Regex

variable {classes : CharClasses} {u t v s m₁ m₂ w : Text} {gs : List Text} {c l : Char}
  {labels : List Char} {edge : Char → Bool}

/-! ## Words -/

theorem ofClasses_literal {word : String} : OfClasses (literal word) t ↔ t = word.toList := by
  have hall : ∀ (letters t : Text),
      OfClasses (letters.map fun l c => decide (c = l)) t ↔ t = letters := by
    intro letters
    induction letters with
    | nil => exact fun t => List.forall₂_nil_left_iff
    | cons l letters ih =>
        intro t
        rw [List.map_cons, OfClasses, List.forall₂_cons_left_iff]
        constructor
        · rintro ⟨c, t, hc, ht, rfl⟩
          rw [(ih t).1 ht, of_decide_eq_true hc]
        · rintro rfl
          exact ⟨l, letters, decide_eq_true rfl, (ih letters).2 rfl, rfl⟩
  exact hall word.toList t

theorem ofClasses_ignoreCase {word : String} :
    OfClasses (ignoreCase word) t ↔ t.map fold = word.toList := by
  have hall : ∀ (letters t : Text),
      OfClasses (letters.map fun l c => decide (fold c = l)) t ↔ t.map fold = letters := by
    intro letters
    induction letters with
    | nil => exact fun t => List.forall₂_nil_left_iff.trans List.map_eq_nil_iff.symm
    | cons l letters ih =>
        intro t
        rw [List.map_cons, OfClasses, List.forall₂_cons_left_iff]
        constructor
        · rintro ⟨c, t, hc, ht, rfl⟩
          rw [List.map_cons, (ih t).1 ht, of_decide_eq_true hc]
        · intro h
          obtain ⟨c, t, rfl, hc, ht⟩ := List.map_eq_cons_iff.1 h
          exact ⟨c, t, decide_eq_true hc, (ih t).2 ht, rfl⟩
  exact hall word.toList t

/-- A letter that no other letter is compared with has its two cases. -/
theorem fold_cases (h : fold c = l) (hl : l ∉ ['i', 's', 'k']) :
    c = l ∨ 65 ≤ c.toNat ∧ c.toNat < 91 ∧ Char.ofNat (c.toNat + 32) = l := by
  unfold fold at h
  split_ifs at h with _ _ _ hcapital
  · exact absurd (h ▸ by decide) hl
  · exact absurd (h ▸ by decide) hl
  · exact absurd (h ▸ by decide) hl
  · rw [isCapital, decide_eq_true_eq] at hcapital
    exact .inr ⟨hcapital.1, by omega, h⟩
  · exact .inl h

/-- The characters that the mask is compared with. -/
def maskChars : Text := redacted ++ ['R', 'E', 'D', 'A', 'C', 'T']

theorem mem_maskChars (h : fold c ∈ redacted) : c ∈ maskChars := by
  have hl : fold c ∉ ['i', 's', 'k'] := by
    have hall : ∀ l ∈ redacted, l ∉ ['i', 's', 'k'] := by decide
    exact hall _ h
  have hall : ∀ n < 91, 65 ≤ n → Char.ofNat (n + 32) ∈ redacted → Char.ofNat n ∈ maskChars := by
    decide
  rcases fold_cases rfl hl with hc | ⟨h₁, h₂, hc⟩
  · rw [hc]
    exact List.mem_append_left _ h
  · rw [← Char.ofNat_toNat c]
    exact hall _ h₂ h₁ (hc ▸ h)

theorem eq_bracket_of_fold (h : fold c = ']') : c = ']' := by
  have hall : ∀ n < 91, 65 ≤ n → Char.ofNat (n + 32) ≠ ']' := by decide
  rcases fold_cases h (by decide) with hc | ⟨h₁, h₂, hc⟩
  · exact hc
  · exact absurd hc (hall _ h₂ h₁)

theorem isAlnum_of_fold_mem (h : fold c ∈ maskWord) : isAlnum c = true := by
  have hall : ∀ d ∈ maskChars, fold d ∈ maskWord → isAlnum d = true := by decide
  refine hall c (mem_maskChars ?_) h
  exact List.mem_cons_of_mem _ (List.mem_append_left _ h)

/-! ## Places of secrets -/

/-- A mask is cut behind its bracket, or behind a letter. -/
theorem mark_split (h : IsMark (m₁ ++ m₂)) (h₁ : m₁ ≠ []) (h₂ : m₂ ≠ []) :
    (∃ c ∈ m₁.getLast?, isAlnum c = true) ∨ m₁.length = 1 ∧ m₂.map fold = maskWord ++ [']'] := by
  rw [IsMark, List.map_append] at h
  obtain ⟨c, m₁, rfl⟩ := List.exists_cons_of_ne_nil h₁
  have hrest := (List.cons.inj h).2
  rcases List.eq_nil_or_concat' m₁ with rfl | ⟨m, d, rfl⟩
  · exact .inr ⟨rfl, hrest⟩
  · obtain ⟨m₂, e, rfl⟩ := (List.eq_nil_or_concat' m₂).resolve_left h₂
    have hinner : (m ++ [d]).map fold ++ m₂.map fold ++ [fold e] = maskWord ++ [']'] := by
      rw [List.append_assoc, ← List.map_singleton, ← List.map_append]
      exact hrest
    have hword := (List.append_inj' hinner rfl).1
    refine .inl ⟨d, by rw [← List.cons_append, List.getLast?_concat]; rfl, ?_⟩
    refine isAlnum_of_fold_mem (hword ▸ ?_)
    simp

theorem isAlnum_ascii (h : isAlnum c = true) : c.toNat < 128 := by
  simp only [isAlnum, isNumber, isCapital, isSmall, Bool.or_eq_true, decide_eq_true_eq] at h
  omega

theorem isWord_of_isAlnum (h : isAlnum c = true) : classes.isWord c = true := by
  rw [classes.word_ascii c (isAlnum_ascii h), h]
  rfl

/-- A longer text without a bracket in it, with no letter beside it. -/
theorem beside_run (hedge : ∀ c, isAlnum c = true → edge c = true)
    (hfirst : ∀ c ∈ s.head?, isStop c = false) (hbefore : Open edge u)
    (hafter : ∀ c ∈ v.head?, edge c = false) (hlength : 9 ≤ s.length)
    (hbracket : ∀ c ∈ s, c ≠ '[' ∧ c ≠ ']') : Beside [] edge u s v where
  start := .inr hfirst
  opened m₁ m₂ w hm h₁ h₂ hu heq := by
    rcases mark_split hm h₁ h₂ with ⟨c, hc, halnum⟩ | ⟨-, hm₂⟩
    · obtain ⟨r, rfl⟩ := hu
      have hnot := hbefore c (by rw [List.getLast?_append_of_ne_nil _ h₁]; exact hc)
      rw [hedge c halnum] at hnot
      cases hnot
    · -- the secret would go on to the bracket of the mask
      have hlength' : m₂.length = 9 := by
        have := congrArg List.length hm₂
        rwa [List.length_map] at this
      have hstart : m₂ <+: s :=
        List.prefix_of_prefix_length_le ⟨w, heq.symm⟩ (List.prefix_append _ _) (by omega)
      obtain ⟨m, c, rfl⟩ := (List.eq_nil_or_concat' m₂).resolve_left h₂
      rw [List.map_append] at hm₂
      have hc := (List.cons.inj (List.append_inj' hm₂ rfl).2).1
      exact (hbracket c (hstart.subset (by simp))).2 (eq_bracket_of_fold hc)
  closed m₁ m₂ w hm h₁ h₂ hu heq := by
    subst heq
    obtain ⟨c, m₁, rfl⟩ := List.exists_cons_of_ne_nil h₁
    obtain ⟨d, m₂, rfl⟩ := List.exists_cons_of_ne_nil h₂
    obtain ⟨rfl, hrest⟩ := List.cons.inj hm
    -- what follows the secret is no letter, so the mask is at its last bracket
    have hd : isAlnum d = false := by
      by_contra halnum
      have hnot := hafter d rfl
      rw [hedge d (by simpa using halnum)] at hnot
      cases hnot
    have hm₁ : m₁ = maskWord := by
      rcases List.eq_nil_or_concat' m₂ with rfl | ⟨m₂, e, rfl⟩
      · exact (List.append_inj' hrest rfl).1
      · exfalso
        have hinner : m₁ ++ d :: m₂ ++ [e] = maskWord ++ [']'] := by
          rw [List.append_assoc]
          exact hrest
        have hmem : d ∈ maskWord := (List.append_inj' hinner rfl).1 ▸ by simp
        have hall : ∀ d ∈ maskWord, isAlnum d = true := by decide
        rw [hall d hmem] at hd
        cases hd
    subst hm₁
    have hsuffix : '[' :: maskWord <:+ s := by
      refine List.suffix_of_suffix_length_le hu (List.suffix_append _ _) ?_
      exact le_trans (by decide) hlength
    exact (hbracket '[' (hsuffix.subset (.head _))).1 rfl
  before := hbefore
  after := hafter

/-- A text behind a label, with no part of a mask behind it. -/
theorem beside_label (hlast : u.getLast? = some c) (hlabel : c ∈ labels) (hmask : fold c ∉ redacted)
    (hedge : edge c = false) (hnext : ∀ d ∈ v.head?, d ∉ redacted)
    (hafter : ∀ d ∈ v.head?, edge d = false) : Beside labels edge u s v where
  start := .inl ⟨c, hlast, hlabel⟩
  opened m₁ m₂ w hm h₁ h₂ hu heq := by
    obtain ⟨r, rfl⟩ := hu
    obtain ⟨m₁, d, rfl⟩ := (List.eq_nil_or_concat' m₁).resolve_left h₁
    rw [← List.append_assoc, List.getLast?_concat] at hlast
    obtain rfl := Option.some.inj hlast
    refine hmask (hm ▸ List.mem_map_of_mem ?_)
    simp
  closed m₁ m₂ w hm h₁ h₂ hu heq := by
    obtain ⟨d, m₂, rfl⟩ := List.exists_cons_of_ne_nil h₂
    refine hnext d (by rw [heq]; rfl) (hm ▸ ?_)
    simp
  before d hd := by
    rw [hlast] at hd
    obtain rfl := Option.some.inj hd
    exact hedge
  after := hafter

/-! ## Paths and queries -/

/-- A secret of `botPath`. -/
structure PathBeside (_u s v : Text) : Prop where
  first : ∀ c ∈ s.head?, endsPath c = false
  ends : Ends endsPath v

theorem ne_nil_of_length {n : ℕ} (hn : 0 < n) (h : n ≤ s.length) : s ≠ [] := by
  rintro rfl
  rw [List.length_nil] at h
  omega

theorem all_not {cls : Char → Bool} (h : ∀ c ∈ s, (!cls c) = true) : ∀ c ∈ s, cls c = false :=
  fun c hc => by simpa using h c hc

theorem head_of_all {cls : Char → Bool} {b : Bool} (h : ∀ c ∈ s, cls c = b) :
    ∀ c ∈ s.head?, cls c = b :=
  fun c hc => h c (List.mem_of_head? hc)

theorem ends_of_not {stop : Char → Bool} (h : ∀ c ∈ v.head?, (!stop c) = false) :
    Ends stop v :=
  fun c hc => by simpa using h c hc

theorem botPath_find (h : find botPath u (t ++ v) = some ⟨t, gs⟩) :
    ∃ s, t = ['/', 'b', 'o', 't'] ++ s ∧ s ≠ [] ∧ (∀ c ∈ s, endsPath c = false) ∧
      Ends endsPath v := by
  obtain ⟨l, s, rfl, hl, hrun⟩ := find_chars_seq h
  obtain ⟨-, hleast, hall, hnext⟩ := find_last_run hrun
  refine ⟨s, ?_, ne_nil_of_length one_pos hleast, all_not hall, ends_of_not hnext⟩
  rw [ofClasses_literal.1 hl]
  rfl

theorem botPath_masks : Masks PathBeside botPath [.text ("/bot".toList ++ redacted)]
    (fun _ => ['/', 'b', 'o', 't']) [] where
  progress u w f h := by
    obtain ⟨v, rfl⟩ := find_eq_some h
    obtain ⟨s, ht, -⟩ := botPath_find h
    rw [ht]
    exact List.cons_ne_nil _ _
  of_find u f v _ h := by
    obtain ⟨s, ht, hne, hall, hends⟩ := botPath_find h
    refine ⟨_, s, by rw [ht, List.append_nil], forall₂_alike_refl _, rfl, hne, fun c hc => ?_,
      ⟨head_of_all hall, hends⟩⟩
    have hc := hall c hc
    rw [endsPath, Bool.or_eq_false_iff, Bool.or_eq_false_iff, Bool.or_eq_false_iff] at hc
    exact hc.1.1.2

theorem query_find (h : find query u (t ++ v) = some ⟨t, gs⟩) :
    ∃ s, t = ['?'] ++ s ∧ s ≠ [] ∧ (∀ c ∈ s, endsQuery c = false) ∧ Ends endsQuery v := by
  obtain ⟨l, s, rfl, hl, hrun⟩ := find_chars_seq h
  obtain ⟨-, hleast, hall, hnext⟩ := find_last_run hrun
  refine ⟨s, ?_, ne_nil_of_length one_pos hleast, all_not hall, ends_of_not hnext⟩
  rw [ofClasses_literal.1 hl]
  rfl

/-- What ends a query is no part of a mask, and no letter. -/
theorem of_endsQuery (h : endsQuery c = true) : c ∉ redacted ∧ isAlnum c = false := by
  constructor
  · intro hmem
    have hall : ∀ c ∈ redacted, endsQuery c = false := by decide
    rw [hall c hmem] at h
    cases h
  · by_contra halnum
    have hkey : isKeyChar c = true := by
      rw [isKeyChar, Bool.not_eq_false .. |>.mp halnum]
      rfl
    simp only [endsQuery, Bool.or_eq_true, decide_eq_true_eq] at h
    rcases h with (((h | rfl) | rfl) | rfl) | rfl
    · rw [not_isSpace_of_isKeyChar hkey] at h
      cases h
    all_goals exact absurd hkey (by decide)

theorem query_masks : Masks QueryBeside query [.text ("?".toList ++ redacted)]
    (fun _ => ['?']) [] where
  progress u w f h := by
    obtain ⟨v, rfl⟩ := find_eq_some h
    obtain ⟨s, ht, -⟩ := query_find h
    rw [ht]
    exact List.cons_ne_nil _ _
  of_find u f v _ h := by
    obtain ⟨s, ht, hne, hall, hends⟩ := query_find h
    have hlast : (u ++ ['?']).getLast? = some '?' := List.getLast?_concat
    refine ⟨_, s, by rw [ht, List.append_nil], forall₂_alike_refl _, rfl, hne, fun c hc => ?_,
      ⟨?_, hlast, head_of_all hall, hends⟩⟩
    · have hc := hall c hc
      simp only [endsQuery, Bool.or_eq_false_iff] at hc
      exact hc.1.1.1.1
    · exact beside_label hlast (.head _) (by decide) (by decide)
        (fun d hd => (of_endsQuery (hends d hd)).1) fun d hd => (of_endsQuery (hends d hd)).2

/-! ## Keys and tokens -/

/-- A word starts where a word character comes and none is before it. -/
theorem boundary_iff {isWord : Char → Bool} (hc : isWord c = true) :
    boundary isWord u (c :: w) = true ↔ Open isWord u := by
  show (u.getLast?.any isWord != Option.any isWord (some c)) = true ↔ _
  rw [Option.any_some, hc, Open]
  cases u.getLast? with
  | none => simp
  | some d => cases hd : isWord d <;> simp [hd]

theorem open_alnum_of_word (h : Open classes.isWord u) : Open isAlnum u := by
  intro c hc
  by_contra halnum
  have hword := h c hc
  rw [isWord_of_isAlnum (by simpa using halnum)] at hword
  cases hword

theorem isAlnum_of_not_isKeyChar (h : isKeyChar c = false) : isAlnum c = false := by
  rw [isKeyChar, Bool.or_eq_false_iff, Bool.or_eq_false_iff] at h
  exact h.1.1

/-- A decimal digit is no stop, and no bracket. -/
theorem not_isStop_of_isDigit (h : classes.isDigit c = true) :
    isStop c = false ∧ c ≠ '[' ∧ c ≠ ']' := by
  have hascii : ∀ d, d.toNat < 128 → isNumber d = false → c ≠ d := by
    rintro d hd hnumber rfl
    rw [classes.digit_ascii c hd, hnumber] at h
    cases h
  refine ⟨?_, hascii _ (by decide) (by decide), hascii _ (by decide) (by decide)⟩
  by_contra hstop
  simp only [isStop, Bool.or_eq_true, decide_eq_true_eq, Bool.not_eq_false] at hstop
  rcases hstop with (((((hspace | hc) | hc) | hc) | hc) | hc) | hc
  · rw [classes.not_space_of_word c (classes.word_of_digit c h)] at hspace
    cases hspace
  all_goals exact hascii _ (by decide) (by decide) hc

theorem not_isSpace_of_not_isStop (h : isStop c = false) : isSpace c = false := by
  simp only [isStop, Bool.or_eq_false_iff] at h
  exact h.1.1.1.1.1.1

theorem botToken_find (h : find (botToken classes) u (t ++ v) = some ⟨t, gs⟩) :
    Open classes.isWord u ∧ ∃ d k, t = d ++ ':' :: k ∧ 5 ≤ d.length ∧
      (∀ c ∈ d, classes.isDigit c = true) ∧ 20 ≤ k.length ∧ (∀ c ∈ k, isKeyChar c = true) ∧
        ∀ c ∈ v.head?, isKeyChar c = false := by
  obtain ⟨hbound, h⟩ := find_look_seq h
  obtain ⟨d, t, rfl, hd, hdigit, h⟩ := find_run_seq h
  obtain ⟨l, k, rfl, hl, h⟩ := find_chars_seq h
  obtain ⟨-, hk, hkey, hnext⟩ := find_last_run h
  have hcolon : l = [':'] := ofClasses_literal.1 hl
  subst hcolon
  refine ⟨?_, d, k, rfl, hd, hdigit, hk, hkey, hnext⟩
  cases d with
  | nil => cases hd
  | cons c d => exact (boundary_iff (classes.word_of_digit c (hdigit c (.head _)))).1 hbound

theorem botToken_masks : Masks (Beside [] isAlnum) (botToken classes) [.text redacted]
    (fun _ => []) [] where
  progress u w f h := by
    obtain ⟨v, rfl⟩ := find_eq_some h
    obtain ⟨-, d, k, ht, -⟩ := botToken_find h
    rw [ht]
    simp
  of_find u f v _ h := by
    obtain ⟨hopen, d, k, ht, hd, hdigit, hk, hkey, hnext⟩ := botToken_find h
    have hplain : ∀ c ∈ f.text, isSpace c = false ∧ c ≠ '[' ∧ c ≠ ']' := by
      intro c hc
      rw [ht] at hc
      rcases List.mem_append.1 hc with hc | hc
      · have hstop := not_isStop_of_isDigit (hdigit c hc)
        exact ⟨not_isSpace_of_not_isStop hstop.1, hstop.2⟩
      · rcases List.mem_cons.1 hc with rfl | hc
        · decide
        · exact ⟨not_isSpace_of_isKeyChar (hkey c hc), not_bracket_of (by decide) hkey c hc⟩
    refine ⟨[], f.text, by simp, .nil, rfl, ?_, fun c hc => (hplain c hc).1, ?_⟩
    · rw [ht]
      simp
    · rw [List.append_nil, List.nil_append]
      refine beside_run (fun _ h => h) ?_ (open_alnum_of_word hopen)
        (fun c hc => isAlnum_of_not_isKeyChar (hnext c hc)) ?_ fun c hc => (hplain c hc).2
      · obtain ⟨c, d, rfl⟩ := List.exists_cons_of_ne_nil (ne_nil_of_length (by decide) hd)
        intro e he
        rw [ht] at he
        obtain rfl := Option.some.inj he
        exact (not_isStop_of_isDigit (hdigit c (.head _))).1
      · rw [ht, List.length_append, List.length_cons]
        omega

theorem providerKey_find (h : find (providerKey classes) u (t ++ v) = some ⟨t, gs⟩) :
    Open classes.isWord u ∧ ∃ k, t = 's' :: 'k' :: '-' :: k ∧ 16 ≤ k.length ∧
      (∀ c ∈ k, isKeyChar c = true) ∧ ∀ c ∈ v.head?, isKeyChar c = false := by
  obtain ⟨hbound, h⟩ := find_look_seq h
  obtain ⟨l, k, rfl, hl, h⟩ := find_chars_seq h
  obtain ⟨-, hk, hkey, hnext⟩ := find_last_run h
  have hword : l = ['s', 'k', '-'] := ofClasses_literal.1 hl
  subst hword
  exact ⟨(boundary_iff (isWord_of_isAlnum (by decide))).1 hbound, k, rfl, hk, hkey, hnext⟩

theorem providerKey_masks : Masks (Beside [] isAlnum) (providerKey classes) [.text redacted]
    (fun _ => []) [] where
  progress u w f h := by
    obtain ⟨v, rfl⟩ := find_eq_some h
    obtain ⟨-, k, ht, -⟩ := providerKey_find h
    rw [ht]
    exact List.cons_ne_nil _ _
  of_find u f v _ h := by
    obtain ⟨hopen, k, ht, hk, hkey, hnext⟩ := providerKey_find h
    have hall : ∀ c ∈ f.text, isKeyChar c = true := by
      intro c hc
      rw [ht, show 's' :: 'k' :: '-' :: k = ['s', 'k', '-'] ++ k from rfl] at hc
      rcases List.mem_append.1 hc with hc | hc
      · exact (by decide : ∀ c ∈ ['s', 'k', '-'], isKeyChar c = true) c hc
      · exact hkey c hc
    refine ⟨[], f.text, by simp, .nil, rfl, by rw [ht]; exact List.cons_ne_nil _ _,
      fun c hc => not_isSpace_of_isKeyChar (hall c hc), ?_⟩
    rw [List.append_nil, List.nil_append]
    refine beside_run (fun _ h => h) (fun c hc => not_isStop_of_isKeyChar (hall c ?_))
      (open_alnum_of_word hopen) (fun c hc => isAlnum_of_not_isKeyChar (hnext c hc)) ?_
      (not_bracket_of (by decide) hall)
    · exact List.mem_of_head? hc
    · rw [ht]
      simp only [List.length_cons]
      omega

/-! ## Runs of a length -/

theorem open_of_notBehind {cls : Char → Bool} (h : notBehind cls u w = true) : Open cls u := by
  intro c hc
  rw [notBehind, Option.mem_def.1 hc] at h
  simpa using h

theorem head_of_notAhead {cls : Char → Bool} (h : notAhead [cls] u v = true) :
    ∀ c ∈ v.head?, cls c = false := by
  intro c hc
  cases v with
  | nil => cases hc
  | cons d v =>
      obtain rfl := Option.some.inj hc
      simpa [notAhead, starts] using h

/-- A pattern for a run of a length, with nothing of a class beside it. -/
theorem run_find {cls edge : Char → Bool} {n : ℕ}
    (h : find (.seq (.look (notBehind edge))
      (.seq (.run cls n (some n)) (.look (notAhead [edge])))) u (t ++ v) = some ⟨t, gs⟩) :
    Open edge u ∧ t.length = n ∧ (∀ c ∈ t, cls c = true) ∧ ∀ c ∈ v.head?, edge c = false := by
  obtain ⟨hbehind, h⟩ := find_look_seq h
  obtain ⟨t₁, t₂, g₁, g₂, rfl, -, hrun, h⟩ := find_seq h
  obtain ⟨-, hleast, hmost, hall⟩ := reads_run.1 hrun
  obtain ⟨-, rfl, hahead⟩ := reads_look.1 (reads_of_find h)
  refine ⟨open_of_notBehind hbehind, ?_, by simpa using hall, head_of_notAhead hahead⟩
  rw [List.append_nil]
  exact le_antisymm (hmost n rfl) hleast

theorem run_masks {cls edge : Char → Bool} {n : ℕ} (hn : 9 ≤ n)
    (hcls : ∀ c, cls c = true → isKeyChar c = true)
    (hedge : ∀ c, isAlnum c = true → edge c = true) :
    Masks (RunBeside edge) (.seq (.look (notBehind edge))
      (.seq (.run cls n (some n)) (.look (notAhead [edge])))) [.text redacted]
      (fun _ => []) [] where
  progress u w f h := by
    obtain ⟨v, rfl⟩ := find_eq_some h
    obtain ⟨-, hlength, -⟩ := run_find h
    exact ne_nil_of_length (by omega) hlength.ge
  of_find u f v _ h := by
    obtain ⟨hopen, hlength, hall, hnext⟩ := run_find h
    have hkey : ∀ c ∈ f.text, isKeyChar c = true := fun c hc => hcls c (hall c hc)
    refine ⟨[], f.text, by simp, .nil, rfl, ne_nil_of_length (by omega) hlength.ge,
      fun c hc => not_isSpace_of_isKeyChar (hkey c hc), ?_, hkey⟩
    rw [List.append_nil, List.nil_append]
    exact beside_run hedge (fun c hc => not_isStop_of_isKeyChar (hkey c (List.mem_of_head? hc)))
      hopen hnext (by omega) (not_bracket_of (by decide) hkey)

theorem isKeyChar_of_isAlnum (h : isAlnum c = true) : isKeyChar c = true := by
  rw [isKeyChar, h]
  rfl

theorem hexSecret_masks :
    Masks (RunBeside isAlnum) hexSecret [.text redacted] (fun _ => []) [] :=
  run_masks (by decide) (fun _ h => isKeyChar_of_isAlnum (isAlnum_of_isHex h)) fun _ h => h

theorem controlToken_masks :
    Masks (RunBeside isKeyChar) controlToken [.text redacted] (fun _ => []) [] :=
  run_masks (by decide) (fun _ h => h) fun _ => isKeyChar_of_isAlnum

/-! ## Userinfo -/

theorem userinfo_find (h : find (userinfo classes) u (t ++ v) = some ⟨t, gs⟩) :
    Open classes.isWord u ∧ ∃ scheme info, t = scheme ++ (info ++ ['@']) ∧ gs = [scheme] ∧
      IsScheme scheme ∧ IsUserinfo info := by
  obtain ⟨hbound, h⟩ := find_look_seq h
  obtain ⟨scheme, t, g₁, g₂, rfl, rfl, hscheme, h⟩ := find_group_seq h
  obtain ⟨info, t, rfl, hleast, hall, h⟩ := find_run_seq h
  obtain ⟨rfl, hat⟩ := reads_chars.1 (reads_of_find h)
  obtain ⟨c, a, g, g', rfl, hgs, hfirst, hrest⟩ := reads_seq.1 hscheme
  obtain ⟨a, l, g₃, g₄, rfl, hgs', hchars, hl⟩ := reads_seq.1 hrest
  obtain ⟨rfl, hletter⟩ := reads_chars.1 hfirst
  obtain ⟨rfl, -, -, ha⟩ := reads_run.1 hchars
  obtain ⟨rfl, hliteral⟩ := reads_chars.1 hl
  obtain ⟨c, r, hc, hr, rfl⟩ := List.forall₂_cons_left_iff.1 hletter
  cases hr
  have hslashes : l = [':', '/', '/'] := ofClasses_literal.1 hliteral
  have hat : t = ['@'] := ofClasses_literal.1 hat
  subst hslashes hat hgs' hgs
  refine ⟨?_, _, info, rfl, rfl, ⟨c, a, rfl, hc, ha⟩, ne_nil_of_length one_pos hleast,
    all_not hall⟩
  exact (boundary_iff (classes.word_of_fold c hc)).1 hbound

theorem IsScheme.ne_nil (h : IsScheme t) : t ≠ [] := by
  obtain ⟨c, a, rfl, -⟩ := h
  exact List.cons_ne_nil _ _

theorem userinfo_masks : Masks UserinfoBeside (userinfo classes)
    [.group 1, .text (redacted ++ "@".toList)] (fun f => f.groups.getD 0 []) ['@'] where
  progress u w f h := by
    obtain ⟨v, rfl⟩ := find_eq_some h
    obtain ⟨-, scheme, info, ht, -, hscheme, -⟩ := userinfo_find h
    rw [ht]
    exact List.append_ne_nil_of_left_ne_nil hscheme.ne_nil _
  of_find u f v _ h := by
    obtain ⟨-, scheme, info, ht, hgs, hscheme, hinfo⟩ := userinfo_find h
    refine ⟨scheme, info, ht, ?_, ?_, hinfo.1, fun c hc => ?_, ?_, hscheme.getLast?, rfl,
      hinfo.2⟩
    · rw [hgs]
      exact forall₂_alike_refl _
    · rfl
    · have hc := hinfo.2 c hc
      rw [endsUserinfo, Bool.or_eq_false_iff, Bool.or_eq_false_iff] at hc
      exact hc.1.1
    · refine beside_label hscheme.getLast? (.head _) (by decide) (by decide) ?_ ?_
      · intro d hd
        obtain rfl := Option.some.inj hd
        decide
      · intro d hd
        obtain rfl := Option.some.inj hd
        decide

/-! ## Credentials -/

/-- A word up to its end that does not start with a mask. -/
structure IsCredential (t v : Text) : Prop where
  ne_nil : t ≠ []
  word : ∀ c ∈ t, isSpace c = false
  ends : Ends isSpace v
  not_mark : ∀ m w, t ++ v = m ++ w → ¬IsMark m

theorem credential_find (h : find credential u (t ++ v) = some ⟨t, gs⟩) :
    gs = [] ∧ IsCredential t v := by
  obtain ⟨hahead, h⟩ := find_look_seq h
  obtain ⟨hgs, hleast, hall, hnext⟩ := find_last_run h
  refine ⟨hgs, ne_nil_of_length one_pos hleast, all_not hall, ends_of_not hnext, ?_⟩
  intro m w heq hm
  have hstarts : starts (ignoreCase "[redacted]") (t ++ v) = true :=
    starts_iff.2 ⟨m, w, heq, ofClasses_ignoreCase.2 hm⟩
  rw [notAhead, hstarts] at hahead
  cases hahead

/-- What follows is at white space, or at a mask, if no credential is read there. -/
theorem guarded_of_not_reads (u : Text) {b : Text}
    (h : ∀ t v, b = t ++ v → ¬Reads credential u t v []) : Guarded b := by
  by_contra hnot
  rw [Guarded, not_or] at hnot
  cases b with
  | nil => exact hnot.1 fun c hc => by cases hc
  | cons c b =>
      refine h [c] b rfl (reads_seq.2 ⟨[], [c], [], [], rfl, rfl, ?_, ?_⟩)
      · refine reads_look.2 ⟨rfl, rfl, ?_⟩
        rw [notAhead, Bool.not_eq_true', ← Bool.not_eq_true, starts_iff]
        rintro ⟨m, w, heq, hm⟩
        exact hnot.2 ⟨m, w, heq, ofClasses_ignoreCase.1 hm⟩
      · refine reads_run.2 ⟨rfl, le_rfl, fun n hn => (by cases hn), fun d hd => ?_⟩
        have hc : ¬isSpace c = true := fun hspace => hnot.1 fun e he => by
          rw [← Option.some.inj he]
          exact hspace
        rw [List.mem_singleton.1 hd]
        simpa using hc

theorem beside_word {c : Char} (hlast : u.getLast? = some c) (hc : c ∈ [' ', '=', ':'])
    (hends : Ends isSpace v) : WordBeside u s v where
  ends := hends
  toBeside := by
    have hlabel : ∀ c ∈ [' ', '=', ':'], fold c ∉ redacted ∧ isKeyChar c = false := by decide
    have hall : ∀ c ∈ redacted, isSpace c = false := by decide
    refine beside_label hlast hc (hlabel c hc).1 (hlabel c hc).2 (fun d hd hmem => ?_)
      fun d hd => ?_
    · have hspace := hends d hd
      rw [hall d hmem] at hspace
      cases hspace
    · by_contra hkey
      have hspace := hends d hd
      rw [not_isSpace_of_isKeyChar (by simpa using hkey)] at hspace
      cases hspace

/-- White space of a line is one blank. -/
theorem Spaced.eq_blank (h : Spaced (u ++ (t ++ v))) (ht : ∀ c ∈ t, isSpace c = true) :
    t = [] ∨ t = [' '] := by
  have hblank : ∀ c ∈ t, c = ' ' := fun c hc => h.blank c (by simp [hc]) (ht c hc)
  cases t with
  | nil => exact .inl rfl
  | cons c t =>
      cases t with
      | nil => exact .inr (by rw [hblank c (.head _)])
      | cons d t =>
          refine absurd ⟨u, t ++ v, ?_⟩ h.single
          rw [hblank c (.head _), hblank d (.tail _ (.head _))]
          simp

/-- A word that starts with a letter starts where no word character is before it. -/
theorem open_of_fold {word b : Text} (h : boundary classes.isWord u (b ++ w) = true)
    (hb : b.map fold = word) (hword : ∃ c ∈ word.head?, isSmall c = true) :
    Open classes.isWord u := by
  obtain ⟨l, hl, hsmall⟩ := hword
  cases b with
  | nil =>
      subst hb
      cases hl
  | cons c b =>
      subst hb
      obtain rfl := Option.some.inj hl
      exact (boundary_iff (classes.word_of_fold c hsmall)).1 h

theorem bearer_find (h : find (bearer classes) u (t ++ v) = some ⟨t, gs⟩) :
    Open classes.isWord u ∧ ∃ b w s, t = b ++ (w ++ s) ∧
      b.map fold = ['b', 'e', 'a', 'r', 'e', 'r'] ∧ w ≠ [] ∧ (∀ c ∈ w, isSpace c = true) ∧
        IsCredential s v := by
  obtain ⟨hbound, h⟩ := find_look_seq h
  obtain ⟨b, t, rfl, hb, h⟩ := find_chars_seq h
  obtain ⟨w, s, rfl, hleast, hw, h⟩ := find_run_seq h
  have hfold := ofClasses_ignoreCase.1 hb
  rw [List.append_assoc] at hbound
  exact ⟨open_of_fold hbound hfold ⟨'b', rfl, by decide⟩, b, w, s, rfl, hfold,
    ne_nil_of_length one_pos hleast, hw, (credential_find h).2⟩

/-- A letter in the case in which it is written. -/
theorem alike_of_fold (h : fold c = l) (hl : l ∈ ['e', 'a', 'r']) : Alike c l := by
  have hother : ∀ l ∈ ['e', 'a', 'r'], l ∉ ['i', 's', 'k'] := by decide
  have hall : ∀ n < 91, 65 ≤ n ∧ Char.ofNat (n + 32) ∈ ['e', 'a', 'r'] →
      (Char.ofNat n, Char.ofNat (n + 32)) ∈ recased := by decide
  rcases fold_cases h (hother l hl) with rfl | ⟨h₁, h₂, hc⟩
  · exact .inl rfl
  · refine .inr ?_
    have hmem := hall _ h₂ ⟨h₁, hc ▸ hl⟩
    rwa [Char.ofNat_toNat, hc] at hmem

theorem alike_bearer {b : Text} (h : b.map fold = ['b', 'e', 'a', 'r', 'e', 'r']) :
    List.Forall₂ Alike (b ++ [' ']) "Bearer ".toList := by
  obtain ⟨c, b, rfl, hc, hb⟩ := List.map_eq_cons_iff.1 h
  have hrest : ∀ (b l : Text), (∀ c ∈ l, c ∈ ['e', 'a', 'r']) → b.map fold = l →
      List.Forall₂ Alike b l := by
    intro b
    induction b with
    | nil =>
        rintro l - rfl
        exact .nil
    | cons c b ih =>
        rintro l hl rfl
        exact .cons (alike_of_fold rfl (hl _ (.head _)))
          (ih _ (fun d hd => hl d (.tail _ hd)) rfl)
  refine .cons ?_ (List.rel_append (hrest b ['e', 'a', 'r', 'e', 'r'] (by decide) hb)
    (.cons (.inl rfl) .nil))
  rcases eq_of_fold_eq_b hc with rfl | rfl
  · exact .inr (by decide)
  · exact .inl rfl

theorem bearer_masks : Masks WordBeside (bearer classes)
    [.text ("Bearer ".toList ++ redacted)] (fun _ => "Bearer ".toList) [] where
  progress u w f h := by
    obtain ⟨v, rfl⟩ := find_eq_some h
    obtain ⟨-, b, w, s, ht, -, hw, -⟩ := bearer_find h
    rw [ht]
    simp [hw]
  of_find u f v hx h := by
    obtain ⟨-, b, w, s, ht, hb, hw, hspace, hs⟩ := bearer_find h
    have hblank : w = [' '] := by
      have hx' : Spaced (u ++ b ++ (w ++ (s ++ v))) := by
        rw [ht] at hx
        simpa only [List.append_assoc] using hx
      exact (hx'.eq_blank hspace).resolve_left hw
    subst hblank
    refine ⟨b ++ [' '], s, by rw [ht]; simp, alike_bearer hb, by simp [expand, Slot.expand],
      hs.ne_nil, hs.word, ?_⟩
    rw [← List.append_assoc]
    exact beside_word List.getLast?_concat (.head _) hs.ends

/-! ## Keys with a value -/

theorem secretKey_reads (h : Reads secretKey u t v gs) : gs = [] ∧ t.map fold ∈ keyWords := by
  have hword : ∀ {word : String}, word.toList ∈ keyWords →
      Reads (.chars (ignoreCase word)) u t v gs → gs = [] ∧ t.map fold ∈ keyWords := by
    intro word hword h
    obtain ⟨hgs, ht⟩ := reads_chars.1 h
    exact ⟨hgs, by rwa [ofClasses_ignoreCase.1 ht]⟩
  rcases reads_alt.1 h with h | h
  · obtain ⟨t₁, t, g₁, g, rfl, rfl, hapi, h⟩ := reads_seq.1 h
    obtain ⟨t₂, t₃, g₂, g₃, rfl, rfl, hrun, hkey⟩ := reads_seq.1 h
    obtain ⟨rfl, hstart⟩ := reads_chars.1 hapi
    obtain ⟨rfl, -, hmost, hdash⟩ := reads_run.1 hrun
    obtain ⟨rfl, hend⟩ := reads_chars.1 hkey
    refine ⟨rfl, ?_⟩
    rw [List.map_append, List.map_append, ofClasses_ignoreCase.1 hstart,
      ofClasses_ignoreCase.1 hend]
    have hlength := hmost 1 rfl
    cases t₂ with
    | nil => decide
    | cons c t₂ =>
        obtain rfl : t₂ = [] := by
          rw [List.length_cons] at hlength
          exact List.length_eq_zero_iff.1 (by omega)
        have hc := hdash c (.head _)
        rw [Bool.or_eq_true, decide_eq_true_eq, decide_eq_true_eq] at hc
        rcases hc with rfl | rfl <;> decide
  · rcases reads_alt.1 h with h | h
    · exact hword (by decide) h
    · rcases reads_alt.1 h with h | h
      · exact hword (by decide) h
      · rcases reads_alt.1 h with h | h
        · exact hword (by decide) h
        · exact hword (by decide) h

theorem separator_reads : Reads separator u t v gs ↔ gs = [] ∧ IsSeparator t := by
  constructor
  · intro h
    obtain ⟨a, t, g₁, g₂, rfl, rfl, ha, h⟩ := reads_seq.1 h
    obtain ⟨c, b, g₃, g₄, rfl, rfl, hc, hb⟩ := reads_seq.1 h
    obtain ⟨rfl, -, -, hbefore⟩ := reads_run.1 ha
    obtain ⟨rfl, hsign⟩ := reads_chars.1 hc
    obtain ⟨rfl, -, -, hafter⟩ := reads_run.1 hb
    obtain ⟨d, r, hd, hr, rfl⟩ := List.forall₂_cons_left_iff.1 hsign
    cases hr
    exact ⟨rfl, a, d, b, rfl, by simpa using hd, hbefore, hafter⟩
  · rintro ⟨rfl, a, c, b, rfl, hc, ha, hb⟩
    refine reads_seq.2 ⟨a, c :: b, [], [], rfl, rfl, ?_, ?_⟩
    · exact reads_run.2 ⟨rfl, Nat.zero_le _, fun n hn => (by cases hn), ha⟩
    · refine reads_seq.2 ⟨[c], b, [], [], rfl, rfl, ?_, ?_⟩
      · exact reads_chars.2 ⟨rfl, .cons (by simpa using hc) .nil⟩
      · exact reads_run.2 ⟨rfl, Nat.zero_le _, fun n hn => (by cases hn), hb⟩

theorem keyWords_small : ∀ word ∈ keyWords, ∃ c ∈ word.head?, isSmall c = true := by
  have hall : ∀ word ∈ keyWords, word.head?.any isSmall = true := by decide
  intro word hword
  have hsmall := hall word hword
  rwa [Option.any_eq_true] at hsmall

theorem keyValue_find (h : find (keyValue classes) u (t ++ v) = some ⟨t, gs⟩) :
    Open classes.isWord u ∧ ∃ key sep s, t = key ++ (sep ++ s) ∧ gs = [key, sep] ∧
      key.map fold ∈ keyWords ∧ IsSeparator sep ∧ IsCredential s v := by
  obtain ⟨hbound, h⟩ := find_look_seq h
  obtain ⟨key, t, g₁, g₂, rfl, rfl, hkey, h⟩ := find_group_seq h
  obtain ⟨sep, s, g₃, g₄, rfl, rfl, hsep, h⟩ := find_group_seq h
  obtain ⟨rfl, hs⟩ := credential_find h
  obtain ⟨rfl, hmem⟩ := secretKey_reads hkey
  obtain ⟨rfl, hsign⟩ := separator_reads.1 hsep
  rw [List.append_assoc] at hbound
  exact ⟨open_of_fold hbound rfl (keyWords_small _ hmem), key, sep, s, rfl, rfl, hmem, hsign, hs⟩

theorem IsSeparator.ne_nil (h : IsSeparator t) : t ≠ [] := by
  obtain ⟨a, c, b, rfl, -⟩ := h
  simp

/-- A separator of a line ends with one of its signs, or with a blank. -/
theorem IsSeparator.getLast? (h : IsSeparator t) (hx : Spaced (u ++ (t ++ v))) :
    ∃ c, (w ++ t).getLast? = some c ∧ c ∈ [' ', '=', ':'] := by
  obtain ⟨a, c, b, rfl, hc, -, hb⟩ := h
  rcases List.eq_nil_or_concat' b with rfl | ⟨b, d, rfl⟩
  · refine ⟨c, ?_, ?_⟩
    · rw [← List.append_assoc, List.getLast?_concat]
    · rcases hc with rfl | rfl <;> decide
  · refine ⟨d, ?_, ?_⟩
    · have hsplit : w ++ (a ++ c :: (b ++ [d])) = w ++ (a ++ c :: b) ++ [d] := by simp
      rw [hsplit, List.getLast?_concat]
    · rw [hx.blank d (by simp) (hb d (by simp))]
      decide

theorem keyValue_masks : Masks WordBeside (keyValue classes)
    [.group 1, .group 2, .text redacted] (fun f => f.groups.flatten) [] where
  progress u w f h := by
    obtain ⟨v, rfl⟩ := find_eq_some h
    obtain ⟨-, key, sep, s, ht, -, -, hsep, -⟩ := keyValue_find h
    rw [ht]
    simp [hsep.ne_nil]
  of_find u f v hx h := by
    obtain ⟨-, key, sep, s, ht, hgs, hkey, hsep, hs⟩ := keyValue_find h
    have hx' : Spaced (u ++ key ++ (sep ++ (s ++ v))) := by
      rw [ht] at hx
      simpa only [List.append_assoc] using hx
    obtain ⟨c, hlast, hc⟩ := hsep.getLast? (w := u ++ key) hx'
    refine ⟨key ++ sep, s, by rw [ht]; simp, ?_, ?_, hs.ne_nil, hs.word, ?_⟩
    · rw [hgs]
      simpa using forall₂_alike_refl (key ++ sep)
    · rw [hgs]
      simp [expand, Slot.expand, hgs]
    · rw [← List.append_assoc]
      exact beside_word hlast hc hs.ends

end Cortex.Redaction
