import Cortex.Control.Errors
import Cortex.Xhs.Written
import Mathlib.Data.List.Sort

/-!
# Recommendations

`identify`: the rules find the papers whose identifiers are written, the verbatim filter
drops the items of the model that are not in the text they cite, and the merge joins the
two lists.

Unicode normalization with case folding, and the digest of a title, are parameters
(`Unicode`).
-/

namespace Cortex.Xhs

open PyText UrlSplit Sources Firsts

/-- What the standard library computes. -/
structure Unicode where
  /-- `unicodedata.normalize("NFKC", value).casefold()` -/
  fold : Text → Text
  fold_nil : fold [] = []
  /-- `hashlib.sha256(value.encode("utf-8")).hexdigest()[:16]` -/
  digest : Text → Text

/-- Case folding of ASCII texts, with a digest of short titles. -/
def asciiUnicode : Unicode where
  fold := lower
  fold_nil := rfl
  digest title := title.take 16

/-- A character of a word before the words of what follows it: it is in the first of
them, if the next character is in a word. -/
def glue (isPart : Char → Bool) (c : Char) (text : Text) (rest : List Text) : List Text :=
  match text, rest with
  | d :: _, word :: rest => if isPart d then (c :: word) :: rest else [c] :: word :: rest
  | _, rest => [c] :: rest

theorem glue_of_not {isPart : Char → Bool} {d : Char} (c : Char) (text : Text)
    (rest : List Text) (h : isPart d = false) : glue isPart c (d :: text) rest = [c] :: rest := by
  cases rest with
  | nil => rfl
  | cons word rest => simp [glue, h]

theorem glue_of_part {isPart : Char → Bool} {d : Char} (c : Char) (text word : Text)
    (rest : List Text) (h : isPart d = true) :
    glue isPart c (d :: text) (word :: rest) = (c :: word) :: rest := by
  simp [glue, h]

/-- `str.split()` without a separator. -/
def words : Text → List Text
  | [] => []
  | c :: text =>
      if isSpace c then words text else glue (fun d => !isSpace d) c text (words text)

attribute [grind =] words

/-- `normalize_match_text` -/
def normalizeMatchText (unicode : Unicode) (value : Text) : Text :=
  [' '].intercalate (words (unicode.fold value))

inductive UrlState where
  | none
  | fromText
  deriving DecidableEq

inductive Origin where
  | rule
  | model
  | ruleAndModel
  deriving DecidableEq

/-- A place of a note: an image, or the caption. -/
abbrev Place := Option ℤ

/-- An item of the model, after `parse_model_items`. -/
structure ModelItem where
  kind : Text
  title : Text
  image : Place
  quote : Text
  arxivId : Option Text
  url : Option Text
  deriving DecidableEq

structure Item where
  itemKey : Text
  kind : Text
  title : Text
  image : Place
  quote : Text
  arxivId : Option Text
  url : Option Text
  urlState : UrlState
  origin : Origin
  deriving DecidableEq

def paper : Text := "paper".toList

/-- `_sorted_transcriptions`; nothing where it raises. -/
def sortedTranscriptions (transcriptions : List (ℤ × Text)) : Option (List (ℤ × Text)) :=
  if (transcriptions.map Prod.fst).Nodup ∧ ∀ image ∈ transcriptions.map Prod.fst, 1 ≤ image then
    some (transcriptions.insertionSort fun a b => a.1 ≤ b.1)
  else none

/-- The texts of a note with their places, the images first. -/
def sources (caption : Text) (transcriptions : List (ℤ × Text)) : List (Place × Text) :=
  transcriptions.map (fun entry => (some entry.1, entry.2)) ++ [(none, caption)]

/-- `raw_texts.get` -/
def rawText (caption : Text) (transcriptions : List (ℤ × Text)) (image : Place) : Option Text :=
  (sources caption transcriptions).lookup image

/-- The prefix of the key of a paper. -/
def arxivKey (arxivId : Text) : Text := "arxiv:".toList ++ arxivId

/-- `_item_key` -/
def itemKey (unicode : Unicode) (kind : Text) (image : Place) (title : Text)
    (arxivId : Option Text) : Text :=
  match arxivId with
  | some id => arxivKey id
  | none =>
      let place := match image with
        | some image => (toString image).toList
        | none => "caption".toList
      kind ++ ':' :: (place ++ ':' :: unicode.digest (normalizeMatchText unicode title))

/-- The item of a match. -/
def ruleItem (image : Place) (found : Match) (arxivId : Text) : Item where
  itemKey := arxivKey arxivId
  kind := paper
  title := "arXiv:".toList ++ arxivId
  image := image
  quote := strip found.group0
  arxivId := some arxivId
  url := none
  urlState := .none
  origin := .rule

/-- `rule_items` -/
def ruleItems (caption : Text) (transcriptions : List (ℤ × Text)) : List Item :=
  firsts Item.arxivId <| (sources caption transcriptions).flatMap fun (image, text) =>
    (arxivMatches text).filterMap fun found => found.arxivId.map (ruleItem image found)

/-- `quote in cited` -/
def occurs (unicode : Unicode) (part text : Text) : Prop :=
  normalizeMatchText unicode part <:+: normalizeMatchText unicode text

instance (unicode : Unicode) (part text : Text) : Decidable (occurs unicode part text) :=
  inferInstanceAs (Decidable (_ <:+: _))

/-- The check of `verbatim_filter`. -/
def isVerbatim (unicode : Unicode) (caption : Text) (transcriptions : List (ℤ × Text))
    (item : ModelItem) : Bool :=
  match rawText caption transcriptions item.image with
  | some cited =>
      normalizeMatchText unicode item.quote ≠ [] ∧ normalizeMatchText unicode item.title ≠ [] ∧
        occurs unicode item.quote cited ∧ occurs unicode item.title cited
  | none => false

/-- `verbatim_filter`: the items that are kept, and how many are dropped. -/
def verbatimFilter (unicode : Unicode) (items : List ModelItem) (caption : Text)
    (transcriptions : List (ℤ × Text)) : List ModelItem × ℕ :=
  let kept := items.filter (isVerbatim unicode caption transcriptions)
  (kept, items.length - kept.length)

/-- The URL of an item that is not a paper. -/
def modelUrl (ip : IpCheck) (item : ModelItem) (cited : Text) : Option Text :=
  let written := urlsIn ip cited
  let quoted := urlsIn ip item.quote
  match item.url.bind (normalizeUrl ip) with
  | some proposed =>
      if proposed ∈ written then some proposed
      else if quoted.length = 1 then quoted.head?.filter (· ∈ written) else none
  | none => if quoted.length = 1 then quoted.head?.filter (· ∈ written) else none

/-- `_model_item` -/
def modelItem (unicode : Unicode) (ip : IpCheck) (item : ModelItem)
    (raw : Place → Option Text) : Item :=
  let cited := (raw item.image).getD []
  let arxivId := if item.kind = paper then (arxiv item.arxivId).filter (· ∈ arxivIdsIn cited)
    else none
  let url := if item.kind ≠ paper then modelUrl ip item cited else none
  { itemKey := itemKey unicode item.kind item.image item.title arxivId
    kind := item.kind
    title := item.title
    image := item.image
    quote := item.quote
    arxivId := arxivId
    url := url
    urlState := if url.isSome then .fromText else .none
    origin := .model }

/-- What the merge has done so far. -/
structure Merge where
  byArxiv : List Item
  merged : List Item
  seenTitles : List (Text × Place)

/-- The place of an item that a rule found too: the image of the rule, if it shows the
title and the quote. -/
def mergedImage (unicode : Unicode) (raw : Place → Option Text) (candidate rule : Item) : Place :=
  let shown := (raw rule.image).getD []
  if candidate.image = none ∧ rule.image ≠ none ∧ occurs unicode candidate.title shown ∧
      occurs unicode candidate.quote shown then rule.image
  else candidate.image

/-- One item of the model. -/
def mergeItem (unicode : Unicode) (ip : IpCheck) (raw : Place → Option Text) (merge : Merge)
    (item : ModelItem) : Merge :=
  let candidate := modelItem unicode ip item raw
  match candidate.arxivId.bind fun id => merge.byArxiv.find? (·.arxivId = some id) with
  | some rule =>
      { merge with
        byArxiv := merge.byArxiv.filter (·.arxivId ≠ rule.arxivId)
        merged := merge.merged ++ [{ candidate with
          origin := .ruleAndModel
          image := mergedImage unicode raw candidate rule }] }
  | none =>
      let key := (normalizeMatchText unicode candidate.title, candidate.image)
      if key ∈ merge.seenTitles then merge
      else { merge with
        merged := merge.merged ++ [candidate]
        seenTitles := key :: merge.seenTitles }

/-- `merge_items` -/
def mergeItems (unicode : Unicode) (ip : IpCheck) (rules : List Item) (model : List ModelItem)
    (caption : Text) (transcriptions : List (ℤ × Text)) : List Item :=
  let merge := model.foldl (mergeItem unicode ip (rawText caption transcriptions)) ⟨rules, [], []⟩
  firsts Item.itemKey (merge.merged ++ merge.byArxiv)

structure IdentifyOutcome where
  items : List Item
  dropped : ℕ
  ruleItems : ℕ
  modelItems : ℕ
  deriving DecidableEq

/-- `identify`; nothing where it raises. -/
def identify (unicode : Unicode) (ip : IpCheck) (caption : Text)
    (transcriptions : List (ℤ × Text)) (modelItems : List ModelItem) : Option IdentifyOutcome :=
  (sortedTranscriptions transcriptions).map fun transcriptions =>
    let rules := ruleItems caption transcriptions
    let (kept, dropped) := verbatimFilter unicode modelItems caption transcriptions
    { items := mergeItems unicode ip rules kept caption transcriptions
      dropped := dropped
      ruleItems := rules.length
      modelItems := modelItems.length }

end Cortex.Xhs
