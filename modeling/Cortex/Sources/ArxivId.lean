import Cortex.Library.PyText
import Mathlib.Tactic.SplitIfs

/-!
# arXiv identifiers

`canonicalize_arxiv_id`: a modern identifier, with an optional `arXiv:` before it and an
optional version after it.
-/

namespace Cortex.Sources

open PyText

/-- `[0-9]{4}\.[0-9]{4,5}`, where no digit follows: the work, and what is after it. -/
def arxivWork : List Char → Option (List Char × List Char)
  | a :: b :: c :: d :: '.' :: rest =>
      let digits := rest.takeWhile Char.isDigit
      if a.isDigit ∧ b.isDigit ∧ c.isDigit ∧ d.isDigit ∧
          (digits.length = 4 ∨ digits.length = 5) then
        some (a :: b :: c :: d :: '.' :: digits, rest.dropWhile Char.isDigit)
      else none
  | _ => none

/-- `(?:v(?P<version>[1-9][0-9]*))?\Z` for either case of the letter; `int` reads at most
4300 digits. -/
def arxivVersion (letters : List Char) : List Char → Option (Option ℕ)
  | [] => some none
  | v :: first :: digits =>
      if v ∈ letters ∧ first.isDigit ∧ first ≠ '0' ∧ digits.all Char.isDigit ∧
          digits.length < 4300 then
        some (some (Nat.ofDigitChars 10 (first :: digits) 0))
      else none
  | _ => none

/-- A work and a version of it. -/
structure ArxivId where
  work : List Char
  version : Option ℕ
  deriving DecidableEq

def arxivPrefix : List Char := "arxiv:".toList

/-- `_ARXIV_RE.fullmatch` -/
def arxivMatch (text : List Char) : Option ArxivId :=
  match arxivWork (if lower (text.take 6) = arxivPrefix then text.drop 6 else text) with
  | some (work, rest) => (arxivVersion ['v', 'V'] rest).map (⟨work, ·⟩)
  | none => none

/-- `canonicalize_arxiv_id`; nothing where it raises. -/
def canonicalizeArxivId (value : List Char) : Option ArxivId :=
  if value.all fun c => c.toNat < 128 then arxivMatch (strip value) else none

theorem arxivWork_chars {text work rest : List Char} (h : arxivWork text = some (work, rest)) :
    work ≠ [] ∧ ∀ c ∈ work, c.isDigit = true ∨ c = '.' := by
  unfold arxivWork at h
  split at h
  · rename_i a b c d tail
    dsimp only at h
    split_ifs at h with hdigits
    obtain ⟨rfl, -⟩ := Prod.mk.inj (Option.some.inj h)
    refine ⟨List.cons_ne_nil _ _, fun e he => ?_⟩
    simp only [List.mem_cons] at he
    rcases he with rfl | rfl | rfl | rfl | rfl | he
    · exact .inl hdigits.1
    · exact .inl hdigits.2.1
    · exact .inl hdigits.2.2.1
    · exact .inl hdigits.2.2.2.1
    · exact .inr rfl
    · exact .inl (List.mem_takeWhile_imp he)
  · cases h

theorem arxivMatch_eq_some {text : List Char} {id : ArxivId} (h : arxivMatch text = some id) :
    ∃ start rest, arxivWork start = some (id.work, rest) ∧
      arxivVersion ['v', 'V'] rest = some id.version := by
  unfold arxivMatch at h
  split at h
  · rename_i work rest hwork
    obtain ⟨version, hversion, rfl⟩ := Option.map_eq_some_iff.1 h
    exact ⟨_, rest, hwork, hversion⟩
  · cases h

/-- A work has digits and a dot in it, and nothing else. -/
theorem canonicalizeArxivId_chars {value : List Char} {id : ArxivId}
    (h : canonicalizeArxivId value = some id) :
    id.work ≠ [] ∧ ∀ c ∈ id.work, c.isDigit = true ∨ c = '.' := by
  rw [canonicalizeArxivId] at h
  split_ifs at h
  obtain ⟨start, rest, hwork, -⟩ := arxivMatch_eq_some h
  exact arxivWork_chars hwork

/-- A work is an identifier of itself. -/
theorem arxivWork_self {text work rest : List Char} (h : arxivWork text = some (work, rest)) :
    arxivWork work = some (work, []) ∧ ∃ c tail, work = c :: tail ∧ c.isDigit = true := by
  unfold arxivWork at h
  split at h
  · rename_i a b c d tail
    dsimp only at h
    split_ifs at h with hdigits
    obtain ⟨rfl, -⟩ := Prod.mk.inj (Option.some.inj h)
    refine ⟨?_, a, _, rfl, hdigits.1⟩
    have hall : ∀ e ∈ tail.takeWhile Char.isDigit, e.isDigit = true :=
      fun e he => List.mem_takeWhile_imp he
    have htake : (tail.takeWhile Char.isDigit).takeWhile Char.isDigit =
        tail.takeWhile Char.isDigit := List.takeWhile_eq_self_iff.2 hall
    have hdrop : (tail.takeWhile Char.isDigit).dropWhile Char.isDigit = [] :=
      List.dropWhile_eq_nil_iff.2 hall
    simp only [arxivWork, htake, hdrop, if_pos hdigits]
  · cases h

theorem canonicalizeArxivId_work {value : List Char} {id : ArxivId}
    (h : canonicalizeArxivId value = some id) :
    canonicalizeArxivId id.work = some ⟨id.work, none⟩ := by
  have hchars := (canonicalizeArxivId_chars h).2
  rw [canonicalizeArxivId] at h
  split_ifs at h
  obtain ⟨start, rest, hwork, -⟩ := arxivMatch_eq_some h
  obtain ⟨hself, c, tail, hhead, hdigit⟩ := arxivWork_self hwork
  have hbounds : ∀ d ∈ id.work, 46 ≤ d.toNat ∧ d.toNat ≤ 57 := by
    intro d hd
    rcases hchars d hd with hdigit | rfl
    · have hbounds := isDigit_iff.1 hdigit
      omega
    · decide
  have hascii : (id.work.all fun c => c.toNat < 128) = true :=
    List.all_eq_true.2 fun d hd => decide_eq_true (Nat.lt_of_le_of_lt (hbounds d hd).2 (by decide))
  have hspace : strip id.work = id.work := strip_eq_self fun d hd => by
    have hd := hbounds d hd
    rw [isSpace, decide_eq_false_iff_not]
    omega
  have hprefix : lower (id.work.take 6) ≠ arxivPrefix := by
    intro heq
    have hfirst := congrArg List.head? heq
    rw [hhead, List.take_succ_cons, lower, List.map_cons, List.head?_cons] at hfirst
    have hnat := toNat_toLower c
    have ha : c.toLower = 'a' := Option.some.inj hfirst
    rw [ha, show 'a'.toNat = 97 from rfl] at hnat
    have hc := hbounds c (hhead ▸ .head _)
    split_ifs at hnat <;> omega
  rw [canonicalizeArxivId, if_pos hascii, hspace, arxivMatch, if_neg hprefix, hself]
  rfl

end Cortex.Sources
