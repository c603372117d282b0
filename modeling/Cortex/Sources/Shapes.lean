import Cortex.Sources.Locator

/-!
# The shapes of identifiers

What a work of arXiv and a DOI look like, whatever parser reads them: their characters, what
is read before and after them, and that no text is both.
-/

namespace Cortex.Sources

open PyText UrlSplit

variable {unicode : UnicodeData} {value text work rest token : List Char}

/-! ## Printable texts -/

/-- ASCII without spaces and controls. -/
def Printable (text : List Char) : Prop := ∀ c ∈ text, 32 < c.toNat ∧ c.toNat < 127

theorem printable_of_all (h : (text.all fun c => 32 < c.toNat ∧ c.toNat < 127) = true) :
    Printable text := by
  intro c hc
  exact of_decide_eq_true (List.all_eq_true.1 h c hc)

theorem Printable.append {s t : List Char} (hs : Printable s) (ht : Printable t) :
    Printable (s ++ t) := by
  intro c hc
  rcases List.mem_append.1 hc with hc | hc
  · exact hs c hc
  · exact ht c hc

theorem Printable.isAscii (h : Printable text) : isAscii text = true :=
  List.all_eq_true.2 fun c hc => decide_eq_true (lt_trans (h c hc).2 (by decide))

theorem Printable.strip (h : Printable text) : strip text = text := strip_eq_self fun c hc => by
  have hc := h c hc
  rw [isSpace, decide_eq_false_iff_not]
  omega

theorem Printable.clean (h : Printable text) : clean text = text :=
  clean_eq_self fun c hc => (h c hc).1

theorem Printable.normalize (h : Printable text) (hne : text ≠ []) {maximum : ℕ}
    (hlength : text.length ≤ maximum) : normalizeSourceText unicode text maximum = some text := by
  have hnfc : unicode.nfc text = text :=
    unicode.nfc_ascii text fun c hc => lt_trans (h c hc).2 (by decide)
  have hother : text.any unicode.isOther = false := by
    rw [List.any_eq_false]
    intro c hc
    rw [unicode.isOther_ascii c (h c hc).1.le (h c hc).2]
    exact Bool.false_ne_true
  simp only [normalizeSourceText, hnfc, hother, h.strip, hne, false_or, Nat.not_lt.2 hlength,
    Bool.false_eq_true, if_false]

theorem Printable.normalize_long (h : Printable text) {maximum : ℕ}
    (hlength : ¬text.length ≤ maximum) : normalizeSourceText unicode text maximum = none := by
  have hnfc : unicode.nfc text = text :=
    unicode.nfc_ascii text fun c hc => lt_trans (h c hc).2 (by decide)
  simp only [normalizeSourceText, hnfc, h.strip, Nat.lt_of_not_le hlength, or_true, if_true,
    ite_self]

/-- What `normalize_source_text` returns. -/
theorem normalizeSourceText_spec {maximum : ℕ}
    (h : normalizeSourceText unicode value maximum = some text) :
    strip text = text ∧ text ≠ [] ∧ text.length ≤ maximum := by
  simp only [normalizeSourceText] at h
  split_ifs at h with hother hbad
  obtain rfl := Option.some.inj h
  rw [not_or] at hbad
  exact ⟨strip_strip _, hbad.1, Nat.le_of_not_lt hbad.2⟩

/-! ## Works of arXiv -/

/-- `[0-9]{4}\.[0-9]{4,5}` -/
def isWork : List Char → Bool
  | a :: b :: c :: d :: '.' :: digits =>
      a.isDigit && b.isDigit && c.isDigit && d.isDigit && digits.all Char.isDigit &&
        (digits.length = 4 || digits.length = 5)
  | _ => false

/-- `(?:v[1-9][0-9]*)?` -/
def IsVersion (letters version : List Char) : Prop :=
  version = [] ∨ ∃ v first digits, version = v :: first :: digits ∧ v ∈ letters ∧
    first.isDigit = true ∧ first ≠ '0' ∧ digits.all Char.isDigit = true

/-- A work is read where no digit follows it. -/
theorem arxivWork_append (hwork : isWork work = true)
    (hrest : ∀ c tail, rest = c :: tail → c.isDigit = false) :
    arxivWork (work ++ rest) = some (work, rest) := by
  unfold isWork at hwork
  split at hwork
  · rename_i a b c d digits
    simp only [Bool.and_eq_true, Bool.or_eq_true, decide_eq_true_eq] at hwork
    obtain ⟨⟨⟨⟨⟨ha, hb⟩, hc⟩, hd⟩, hdigits⟩, hlength⟩ := hwork
    rw [List.all_eq_true] at hdigits
    have hstop : rest.takeWhile Char.isDigit = [] ∧ rest.dropWhile Char.isDigit = rest := by
      cases rest with
      | nil => exact ⟨rfl, rfl⟩
      | cons e tail =>
          have he := hrest e tail rfl
          exact ⟨List.takeWhile_cons_of_neg (by simp [he]),
            List.dropWhile_cons_of_neg (by simp [he])⟩
    have htake : (digits ++ rest).takeWhile Char.isDigit = digits := by
      rw [List.takeWhile_append_of_pos hdigits, hstop.1, List.append_nil]
    have hdrop : (digits ++ rest).dropWhile Char.isDigit = rest := by
      rw [List.dropWhile_append_of_pos hdigits, hstop.2]
    simp only [List.cons_append, arxivWork, htake, hdrop]
    exact if_pos ⟨ha, hb, hc, hd, hlength⟩
  · cases hwork

/-- What is read as a work is one. -/
theorem isWork_of_arxivWork (h : arxivWork text = some (work, rest)) : isWork work = true := by
  unfold arxivWork at h
  split at h
  · rename_i a b c d tail
    dsimp only at h
    split_ifs at h with hdigits
    obtain ⟨rfl, -⟩ := Prod.mk.inj (Option.some.inj h)
    obtain ⟨ha, hb, hc, hd, hlength⟩ := hdigits
    have hall : (tail.takeWhile Char.isDigit).all Char.isDigit = true :=
      List.all_eq_true.2 fun e he => List.mem_takeWhile_imp he
    simp only [isWork, ha, hb, hc, hd, hall, Bool.and_true, Bool.true_and, Bool.or_eq_true,
      decide_eq_true_eq]
    exact hlength
  · cases h

/-- A work is read as itself. -/
theorem arxivWork_work (h : isWork work = true) : arxivWork work = some (work, []) := by
  have happend : arxivWork (work ++ []) = some (work, []) :=
    arxivWork_append h fun c tail hnil => by cases hnil
  rwa [List.append_nil] at happend

/-- A work starts with a digit, and has none but printable characters. -/
theorem isWork_chars (h : isWork work = true) :
    (∃ c tail, work = c :: tail ∧ c.isDigit = true) ∧
      ∀ c ∈ work, c.isDigit = true ∨ c = '.' := by
  have hread := arxivWork_work h
  obtain ⟨-, hhead⟩ := arxivWork_self hread
  exact ⟨hhead, (arxivWork_chars hread).2⟩

theorem isWork_printable (h : isWork work = true) : Printable work := by
  intro c hc
  rcases (isWork_chars h).2 c hc with hdigit | rfl
  · have hbounds := isDigit_iff.1 hdigit
    omega
  · decide

/-! ## DOIs -/

theorem isDoiChar_iff {c : Char} : isDoiChar c = true ↔
    (48 ≤ c.toNat ∧ c.toNat ≤ 57 ∨ 65 ≤ c.toNat ∧ c.toNat ≤ 90 ∨ 97 ≤ c.toNat ∧ c.toNat ≤ 122) ∨
      c.toNat = 45 ∨ c.toNat = 46 ∨ c.toNat = 95 ∨ c.toNat = 59 ∨ c.toNat = 40 ∨ c.toNat = 41 ∨
        c.toNat = 47 ∨ c.toNat = 58 := by
  have heq : ∀ d : Char, c = d ↔ c.toNat = d.toNat := fun d => Char.toNat_inj.symm
  simp only [isDoiChar, Bool.or_eq_true, decide_eq_true_eq, isAlphanum_iff, heq, or_assoc]
  exact Iff.rfl

theorem isDoi_spec (h : isDoi token = true) :
    ∃ digits suffix, token = '1' :: '0' :: '.' :: (digits ++ '/' :: suffix) ∧
      4 ≤ digits.length ∧ digits.length ≤ 9 ∧ (∀ c ∈ digits, c.isDigit = true) ∧ suffix ≠ [] ∧
      ∀ c ∈ suffix, isDoiChar c = true := by
  unfold isDoi at h
  split at h
  · rename_i rest
    dsimp only at h
    split at h
    · rename_i suffix hsuffix
      simp only [Bool.and_eq_true, decide_eq_true_eq, List.all_eq_true] at h
      obtain ⟨⟨⟨hmin, hmax⟩, hne⟩, hchars⟩ := h
      refine ⟨rest.takeWhile Char.isDigit, suffix, ?_, hmin, hmax,
        fun c hc => List.mem_takeWhile_imp hc, hne, hchars⟩
      rw [← hsuffix, List.takeWhile_append_dropWhile]
    · cases h
  · cases h

theorem isDoi_intro {digits suffix : List Char} (hmin : 4 ≤ digits.length)
    (hmax : digits.length ≤ 9) (hdigits : ∀ c ∈ digits, c.isDigit = true) (hne : suffix ≠ [])
    (hchars : ∀ c ∈ suffix, isDoiChar c = true) :
    isDoi ('1' :: '0' :: '.' :: (digits ++ '/' :: suffix)) = true := by
  have htake : (digits ++ '/' :: suffix).takeWhile Char.isDigit = digits := by
    rw [List.takeWhile_append_of_pos hdigits, List.takeWhile_cons_of_neg (by decide),
      List.append_nil]
  have hdrop : (digits ++ '/' :: suffix).dropWhile Char.isDigit = '/' :: suffix := by
    rw [List.dropWhile_append_of_pos hdigits, List.dropWhile_cons_of_neg (by decide)]
  simp only [isDoi, htake, hdrop, hmin, hmax, hne, ne_eq, not_false_eq_true, decide_true,
    Bool.and_true, Bool.true_and, List.all_eq_true]
  exact hchars

theorem isDoi_chars (h : isDoi token = true) : ∀ c ∈ token, isDoiChar c = true := by
  obtain ⟨digits, suffix, rfl, -, -, hdigits, -, hchars⟩ := isDoi_spec h
  intro c hc
  simp only [List.mem_cons, List.mem_append] at hc
  rcases hc with rfl | rfl | rfl | hc | rfl | hc
  · decide
  · decide
  · decide
  · exact isDoiChar_iff.2 (.inl (.inl (isDigit_iff.1 (hdigits c hc))))
  · decide
  · exact hchars c hc

theorem isDoi_printable (h : isDoi token = true) : Printable token := by
  intro c hc
  have hbounds := isDoiChar_iff.1 (isDoi_chars h c hc)
  omega

/-- The case of a DOI does not matter. -/
theorem isDoi_lower (h : isDoi token = true) : isDoi (lower token) = true := by
  obtain ⟨digits, suffix, rfl, hmin, hmax, hdigits, hne, hchars⟩ := isDoi_spec h
  have hsame : lower digits = digits := by
    rw [lower]
    conv_rhs => rw [← List.map_id digits]
    refine List.map_congr_left fun c hc => Char.toNat_inj.1 ?_
    have hbounds := isDigit_iff.1 (hdigits c hc)
    rw [toNat_toLower, if_neg (by omega), id]
  have hlower : lower ('1' :: '0' :: '.' :: (digits ++ '/' :: suffix)) =
      '1' :: '0' :: '.' :: (digits ++ '/' :: lower suffix) := by
    conv_rhs => rw [← hsame]
    rw [show '1' :: '0' :: '.' :: (lower digits ++ '/' :: lower suffix) =
      lower ['1', '0', '.'] ++ (lower digits ++ lower ('/' :: suffix)) from rfl, ← lower_append,
      ← lower_append]
    rfl
  rw [hlower]
  refine isDoi_intro hmin hmax hdigits ?_ fun c hc => ?_
  · intro hnil
    exact hne (List.map_eq_nil_iff.1 hnil)
  · obtain ⟨d, hd, rfl⟩ := List.mem_map.1 hc
    have hbounds := isDoiChar_iff.1 (hchars d hd)
    rw [isDoiChar_iff, toNat_toLower]
    split_ifs <;> omega

/-! ## What stands before a DOI -/

theorem toLower_cases {c d : Char} (h : c.toLower = d) :
    c = d ∨ 65 ≤ c.toNat ∧ c.toNat + 32 = d.toNat := by
  have hnat := toNat_toLower c
  rw [h] at hnat
  split_ifs at hnat with hupper
  · exact .inr ⟨hupper.1, hnat.symm⟩
  · exact .inl (Char.toNat_inj.1 hnat.symm)

theorem doiPrefix_cases (h : lower (text.take 4) = doiPrefix) :
    ∃ d o i rest, text = d :: o :: i :: ':' :: rest ∧ (d = 'd' ∨ d = 'D') ∧
      (o = 'o' ∨ o = 'O') ∧ (i = 'i' ∨ i = 'I') := by
  have hlength := congrArg List.length h
  rw [length_lower, List.length_take, show doiPrefix.length = 4 from rfl] at hlength
  obtain ⟨d, o, i, x, rest, rfl⟩ : ∃ d o i x rest, text = d :: o :: i :: x :: rest := by
    rcases text with - | ⟨d, - | ⟨o, - | ⟨i, - | ⟨x, rest⟩⟩⟩⟩
    case cons.cons.cons.cons => exact ⟨d, o, i, x, rest, rfl⟩
    all_goals simp at hlength
  have hletters : [d.toLower, o.toLower, i.toLower, x.toLower] = ['d', 'o', 'i', ':'] := h
  simp only [List.cons.injEq, and_true] at hletters
  obtain ⟨hd, ho, hi, hx⟩ := hletters
  have hcolon : x = ':' := by
    rcases toLower_cases hx with rfl | ⟨hmin, hsum⟩
    · rfl
    · rw [show ':'.toNat = 58 from rfl] at hsum
      omega
  subst hcolon
  refine ⟨d, o, i, rest, rfl, ?_, ?_, ?_⟩
  · refine (toLower_cases hd).imp_right fun hsum => Char.toNat_inj.1 ?_
    exact Nat.add_right_cancel (hsum.2.trans (show 'd'.toNat = 'D'.toNat + 32 from rfl))
  · refine (toLower_cases ho).imp_right fun hsum => Char.toNat_inj.1 ?_
    exact Nat.add_right_cancel (hsum.2.trans (show 'o'.toNat = 'O'.toNat + 32 from rfl))
  · refine (toLower_cases hi).imp_right fun hsum => Char.toNat_inj.1 ?_
    exact Nat.add_right_cancel (hsum.2.trans (show 'i'.toNat = 'I'.toNat + 32 from rfl))

private theorem splitScheme_doi {d o i : Char} (hd : d = 'd' ∨ d = 'D') (ho : o = 'o' ∨ o = 'O')
    (hi : i = 'i' ∨ i = 'I') (rest : List Char) :
    splitScheme (d :: o :: i :: ':' :: rest) = ("doi".toList, rest) := by
  have hcut : cut ':' ([d, o, i] ++ ':' :: rest) = ([d, o, i], rest) := cut_append (by
    rcases hd with rfl | rfl <;> rcases ho with rfl | rfl <;> rcases hi with rfl | rfl <;> decide)
  have hmem : ':' ∈ d :: o :: i :: ':' :: rest := by simp
  rw [splitScheme, show d :: o :: i :: ':' :: rest = [d, o, i] ++ ':' :: rest from rfl, hcut]
  rcases hd with rfl | rfl <;> rcases ho with rfl | rfl <;> rcases hi with rfl | rfl <;>
    exact if_pos ⟨hmem, rfl, rfl⟩

/-- A text that starts with `doi:` has no other scheme. -/
theorem scheme_of_doiPrefix (h : lower (text.take 4) = doiPrefix) :
    (splitParts text).scheme = "doi".toList := by
  obtain ⟨d, o, i, rest, rfl, hd, ho, hi⟩ := doiPrefix_cases h
  have hclean : clean (d :: o :: i :: ':' :: rest) =
      d :: o :: i :: ':' :: rest.filter fun c => c ≠ '\t' ∧ c ≠ '\r' ∧ c ≠ '\n' := by
    rcases hd with rfl | rfl <;> rcases ho with rfl | rfl <;> rcases hi with rfl | rfl <;> rfl
  simp only [splitParts, hclean, splitScheme_doi hd ho hi]

/-- A DOI is no URL with an authority. -/
theorem netloc_of_doi (h : isDoi token = true) : (splitParts token).netloc = [] := by
  have hclean := (isDoi_printable h).clean
  obtain ⟨digits, suffix, rfl, -⟩ := isDoi_spec h
  have hscheme : splitScheme ('1' :: '0' :: '.' :: (digits ++ '/' :: suffix)) =
      ([], '1' :: '0' :: '.' :: (digits ++ '/' :: suffix)) := by
    have hhead : (cut ':' ('1' :: '0' :: '.' :: (digits ++ '/' :: suffix))).1.head?.any
        Char.isAlpha = false := by
      simp [cut]
    rw [splitScheme]
    refine if_neg ?_
    rintro ⟨-, halpha, -⟩
    exact Bool.false_ne_true (hhead.symm.trans halpha)
  simp only [splitParts, hclean, hscheme]
  rfl

/-- Nor is it one behind `doi:`. -/
theorem netloc_of_doiPrefix (h : lower (text.take 4) = doiPrefix)
    (hdoi : isDoi (text.drop 4) = true) : (splitParts text).netloc = [] := by
  obtain ⟨d, o, i, rest, rfl, hd, ho, hi⟩ := doiPrefix_cases h
  have hrest : isDoi rest = true := hdoi
  have hprintable : Printable (d :: o :: i :: ':' :: rest) := by
    have hletters : Printable [d, o, i, ':'] := by
      intro c hc
      simp only [List.mem_cons, List.not_mem_nil, or_false] at hc
      rcases hc with rfl | rfl | rfl | rfl
      · rcases hd with rfl | rfl <;> decide
      · rcases ho with rfl | rfl <;> decide
      · rcases hi with rfl | rfl <;> decide
      · decide
    exact hletters.append (isDoi_printable hrest)
  obtain ⟨digits, suffix, rfl, -⟩ := isDoi_spec hrest
  simp only [splitParts, hprintable.clean, splitScheme_doi hd ho hi]
  rfl

theorem hostname_of_netloc {split : SplitResult} (h : split.netloc = []) : split.hostname = [] := by
  rw [SplitResult.hostname, h]
  rfl

/-! ## No text is a work and a DOI -/

theorem arxivMatch_isDoi (h : isDoi text = true) : arxivMatch text = none := by
  obtain ⟨digits, suffix, rfl, -⟩ := isDoi_spec h
  have hprefix : lower (('1' :: '0' :: '.' :: (digits ++ '/' :: suffix)).take 6) ≠ arxivPrefix := by
    intro heq
    have hhead : some '1' = some 'a' := congrArg List.head? heq
    cases hhead
  have hwork : arxivWork ('1' :: '0' :: '.' :: (digits ++ '/' :: suffix)) = none := by
    unfold arxivWork
    split
    · rename_i heq
      simp only [List.cons.injEq] at heq
      obtain ⟨rfl, rfl, rfl, -⟩ := heq
      refine if_neg ?_
      rintro ⟨-, -, hdot, -⟩
      exact absurd hdot (by decide)
    · rfl
  rw [arxivMatch, if_neg hprefix, hwork]

theorem arxivMatch_doiPrefix (h : lower (text.take 4) = doiPrefix) : arxivMatch text = none := by
  obtain ⟨d, o, i, rest, rfl, hd, ho, hi⟩ := doiPrefix_cases h
  have hprefix : lower ((d :: o :: i :: ':' :: rest).take 6) ≠ arxivPrefix := by
    intro heq
    have hhead : some d.toLower = some 'a' := congrArg List.head? heq
    rcases hd with rfl | rfl <;> exact absurd hhead (by decide)
  have hwork : arxivWork (d :: o :: i :: ':' :: rest) = none := by
    unfold arxivWork
    split
    · rename_i heq
      simp only [List.cons.injEq] at heq
      obtain ⟨rfl, -⟩ := heq
      refine if_neg ?_
      rintro ⟨hdigit, -⟩
      rcases hd with rfl | rfl <;> exact absurd hdigit (by decide)
    · rfl
  rw [arxivMatch, if_neg hprefix, hwork]

end Cortex.Sources
