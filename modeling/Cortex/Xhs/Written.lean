import Cortex.Library.Firsts
import Cortex.Sources.ArxivId
import Cortex.Sources.NormalizeUrl

/-!
# What a text writes

The arXiv identifiers and the URLs that are written in a caption or in the
transcription of an image, as the two regular expressions of the rules find them.
-/

namespace Cortex.Xhs

open PyText UrlSplit Sources Firsts

abbrev Text := List Char

/-! ## Identifiers -/

/-- The letters that are one up to their case. -/
def arxivLetters : List (List Char) := [['a', 'A'], ['r', 'R'], ['x', 'X'], ['i', 'I', 'İ', 'ı'], ['v', 'V']]

/-- `[0-9A-Za-z.]` up to case. -/
def isArxivWord (c : Char) : Bool :=
  c.isAlphanum || c = '.' || c = 'İ' || c = 'ı' || c = 'ſ' || c.toNat = 0x212A

/-- What is after `arxiv\s*[:：]?\s*`, if the text starts so. -/
def skipArxiv (text : Text) : Text :=
  if (text.take 5).length = 5 ∧
      ((text.take 5).zip arxivLetters).all fun (c, letters) => letters.contains c then
    let rest := lstrip (text.drop 5)
    lstrip (if rest.head? = some ':' ∨ rest.head? = some '：' then rest.tail else rest)
  else text

/-- `[0-9]{2}(?:0[1-9]|1[0-2])` -/
def isYearMonth (work : Text) : Bool :=
  match work with
  | _ :: _ :: '0' :: month :: _ => month ≠ '0'
  | _ :: _ :: '1' :: month :: _ => month = '0' || month = '1' || month = '2'
  | _ => false

/-- What is after `(v[0-9]+)?`. -/
def skipVersion (text : Text) : Text :=
  match text with
  | v :: digit :: rest =>
      if (v = 'v' ∨ v = 'V') ∧ digit.isDigit then rest.dropWhile Char.isDigit else text
  | _ => text

structure Match where
  /-- The whole match. -/
  group0 : Text
  group1 : Text
  deriving DecidableEq

/-- `_ARXIV_RE` at the start of a text, whatever is before it. -/
def arxivAt (text : Text) : Option Match :=
  match arxivWork (skipArxiv text) with
  | some (work, rest) =>
      if isYearMonth work then
        some ⟨text.take (text.length - (skipVersion rest).length), work⟩
      else none
  | none => none

/-- `finditer`: the character before, and how many characters belong to the last match. -/
def arxivScan : Option Char → ℕ → Text → List Match
  | _, _, [] => []
  | _, skip + 1, c :: text => arxivScan (some c) skip text
  | before, 0, c :: text =>
      match (if before.any isArxivWord then none else arxivAt (c :: text)) with
      | some found => found :: arxivScan (some c) (found.group0.length - 1) text
      | none => arxivScan (some c) 0 text

/-- `_ARXIV_RE.finditer`. -/
def arxivMatches (text : Text) : List Match := arxivScan none 0 text

/-- The identifier of a match. -/
def Match.arxivId (found : Match) : Option Text :=
  (canonicalizeArxivId found.group1).map ArxivId.work

/-- `arxiv_ids_in` -/
def arxivIdsIn (text : Text) : List Text := (arxivMatches text).filterMap Match.arxivId

/-- `_arxiv` -/
def arxiv (value : Option Text) : Option Text :=
  value.bind fun text => (arxivMatches text).head?.bind Match.arxivId

/-! ## URLs -/

def urlAlphabet : List Char := "-._~:/?#[]@!$&'()*+,;=%".toList

/-- `[A-Za-z0-9\-._~:/?#\[\]@!$&'()*+,;=%]` -/
def isUrlChar (c : Char) : Bool := c.isAlphanum || urlAlphabet.contains c

/-- `_URL_RE` at the start of a text. -/
def urlAt (text : Text) : Option Text :=
  let scheme := if "https://".toList.isPrefixOf text then 8
    else if "http://".toList.isPrefixOf text then 7 else 0
  let rest := (text.drop scheme).takeWhile isUrlChar
  if scheme = 0 ∨ rest = [] then none else some (text.take scheme ++ rest)

/-- `_URL_RE.finditer` -/
def urlScan : ℕ → Text → List Text
  | _, [] => []
  | skip + 1, _ :: text => urlScan skip text
  | 0, c :: text =>
      match urlAt (c :: text) with
      | some found => found :: urlScan (found.length - 1) text
      | none => urlScan 0 text

/-- `_URL_TRAILING` -/
def urlTrailing : List Char := ['.', ',', ';', ':', '!', '?', ')', ']', '}', '\'', '"']

def rstripTrailing (url : Text) : Text :=
  (url.reverse.dropWhile urlTrailing.contains).reverse

/-- `urls_in` -/
def urlsIn (ip : IpCheck) (text : Text) : List Text :=
  firsts id ((urlScan 0 text).filterMap fun found => normalizeUrl ip (rstripTrailing found))

/-- A URL is in the list if it is the normal form of one that is written. -/
theorem mem_urlsIn {ip : IpCheck} {text url : Text} :
    url ∈ urlsIn ip text ↔
      ∃ found ∈ urlScan 0 text, normalizeUrl ip (rstripTrailing found) = some url := by
  have hkeys := keys_firsts id ((urlScan 0 text).filterMap fun found =>
    normalizeUrl ip (rstripTrailing found)) url
  rw [List.map_id, List.map_id] at hkeys
  rw [urlsIn, hkeys, List.mem_filterMap]

theorem mem_arxivIdsIn {text id : Text} :
    id ∈ arxivIdsIn text ↔ ∃ found ∈ arxivMatches text, found.arxivId = some id :=
  List.mem_filterMap

/-- An identifier has no colon in it. -/
theorem Match.not_colon_arxivId {found : Match} {id : Text} (h : found.arxivId = some id) :
    ':' ∉ id := by
  obtain ⟨work, hwork, rfl⟩ := Option.map_eq_some_iff.1 h
  intro hmem
  exact absurd ((canonicalizeArxivId_chars hwork).2 _ hmem) (by decide)

end Cortex.Xhs
