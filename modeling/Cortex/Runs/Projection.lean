import Cortex.Runs.Store

/-!
# What clients see of a decision

A decision leaves the store through a projection: clients get the prompt and the
texts of the options where these look harmless, and an option only under an id
that is an identifier.  The event that announces the decision is projected by the
same function.

The sensitive patterns are regular expressions without groups.  A `Matcher` reads
one from a position of a text, ignoring case, and returns every place where a
match may end.
-/

namespace Cortex.Runs

open Control Time

/-! ## Patterns -/

/-- The lower case of a character, as far as `re.IGNORECASE` takes one for an ASCII letter. -/
def foldCase (c : Char) : Char :=
  if c.toNat = 0x130 ∨ c.toNat = 0x131 then 'i'
  else if c.toNat = 0x17f then 's'
  else if c.toNat = 0x212a then 'k'
  else c.toLower

/-- The places where a match may end: the character before each place, and the text after it. -/
abbrev Matcher := Option Char → Text → List (Option Char × Text)

namespace Matcher

/-- One character of a class. -/
def one (p : Char → Bool) : Matcher
  | _, [] => []
  | _, c :: rest => if p (foldCase c) then [(some c, rest)] else []

def andThen (m n : Matcher) : Matcher :=
  fun before text => (m before text).flatMap fun place => n place.1 place.2

def orElse (m n : Matcher) : Matcher :=
  fun before text => m before text ++ n before text

def nothing : Matcher := fun before text => [(before, text)]

/-- A text, in lower case. -/
def literal (text : String) : Matcher :=
  text.toList.foldr (fun c m => (one fun d => d = c).andThen m) nothing

def anyOf (texts : List String) : Matcher :=
  texts.foldr (fun text m => (literal text).orElse m) fun _ _ => []

/-- Any number of characters of a class. -/
def many (p : Char → Bool) : Matcher
  | before, [] => [(before, [])]
  | before, c :: rest =>
      (before, c :: rest) :: if p (foldCase c) then many p (some c) rest else []

/-- At least so many characters of a class. -/
def atLeast (p : Char → Bool) : ℕ → Matcher
  | 0 => many p
  | n + 1 => (one p).andThen (atLeast p n)

/-- `search`: the pattern matches somewhere in the text. -/
def search (m : Matcher) (before : Option Char) : Text → Bool
  | [] => (m before []).isEmpty = false
  | c :: rest => (m before (c :: rest)).isEmpty = false ∨ search m (some c) rest = true

end Matcher

section Patterns

-- `str.isalnum` of the characters outside ASCII.
variable (isAlnum : Char → Bool)

/-- `\w`. -/
def isWordChar (c : Char) : Bool :=
  if c.toNat < 128 then c.isAlphanum ∨ c = '_' else isAlnum c

/-- `\b`. -/
def wordBoundary : Matcher :=
  fun before text =>
    if before.any (isWordChar isAlnum) = text.head?.any (isWordChar isAlnum) then []
    else [(before, text)]

/-- A character of `[A-Za-z0-9]`, or of the further characters, in lower case. -/
def isAlnumOr (others : List Char) (c : Char) : Bool :=
  c.isLower ∨ c.isDigit ∨ c ∈ others

open Matcher

/-- `_SOURCE_TEXT_PATTERNS`. -/
def sourceTextPatterns : List Matcher :=
  [ (anyOf ["/users/", "/home/", "/private/", "/tmp/", "/etc/", "/var/", "/opt/", "/usr/",
      "/root/", "/volumes/", "/workspace/"]).orElse
        ((one Char.isLower).andThen (literal ":\\"))
  , (wordBoundary isAlnum).andThen (literal "file://")
  , (wordBoundary isAlnum).andThen <|
      (anyOf ["token", "apikey", "api_key", "api key", "api-key", "secret", "credential",
        "password", "authorization"]).andThen <|
        (many isSpace).andThen (one fun c => c ∈ [':', '='])
  , (wordBoundary isAlnum).andThen <| (literal "bearer").andThen <|
      (atLeast isSpace 1).andThen
        (atLeast (isAlnumOr ['.', '_', '~', '+', '/', '-']) 8)
  , (wordBoundary isAlnum).andThen <| (literal "sk-").andThen (atLeast (isAlnumOr ['_', '-']) 8)
  , (wordBoundary isAlnum).andThen <| (literal "gh").andThen <|
      (one fun c => c ∈ ['o', 'p', 's', 'u']).andThen <|
        (literal "_").andThen (atLeast (isAlnumOr []) 8)
  , (wordBoundary isAlnum).andThen <| (literal "akia").andThen (atLeast (isAlnumOr []) 12)
  , (wordBoundary isAlnum).andThen <| (literal "eyj").andThen <|
      (atLeast (isAlnumOr ['_', '-']) 8).andThen <| (literal ".").andThen <|
        (atLeast (isAlnumOr ['_', '-']) 8).andThen <| (literal ".").andThen <|
          (atLeast (isAlnumOr ['_', '-']) 8).andThen (wordBoundary isAlnum)
  , (literal "-----begin ").andThen <|
      (many fun c => c.isLower ∨ c = ' ').andThen (literal "private key-----") ]

/-- `_SENSITIVE_TEXT_PATTERNS`. -/
def sensitiveTextPatterns : List Matcher :=
  sourceTextPatterns isAlnum ++
    [anyOf ["<thinking>", "hidden reasoning", "internal reasoning", "chain-of-thought",
      "chain-of thought", "chain of-thought", "chain of thought"]]

def isSensitive (value : Text) : Bool :=
  (sensitiveTextPatterns isAlnum).any fun pattern => pattern.search none value

/-! ## Texts and identifiers -/

/-- `_safe_human_text`. -/
def safeHumanText (value : Text) (maximum : ℕ) : Option Text :=
  if value = [] ∨ maximum < value.length then none
  else if value.any (fun c => c.toNat < 32 ∧ c ∉ ['\n', '\r', '\t']) then none
  else if isSensitive isAlnum value then none
  else some value

/-- `_IDENTIFIER_RE`. -/
def isIdentifier : Text → Bool
  | [] => false
  | c :: rest =>
      c.isAlphanum ∧ rest.length ≤ 199 ∧
        rest.all (fun c => c.isAlphanum ∨ c ∈ ['_', '.', ':', '-']) = true

/-- `_safe_identifier`. -/
def safeIdentifier (value : Text) : Option Text :=
  if ¬isIdentifier value then none
  else if isSensitive isAlnum value then none
  else some value

/-- `_CATEGORY_RE`, in `_safe_category`. -/
def safeCategory (value : Text) : Option Text :=
  match value with
  | [] => none
  | c :: rest =>
      if c.isLower ∧ rest.length ≤ 99 ∧
          rest.all (fun c => c.isLower ∨ c.isDigit ∨ c ∈ ['_', '.', '-']) = true
      then some value else none

/-! ## Decisions -/

/-- `_REDACTED_DECISION_PROMPT`. -/
def redactedDecisionPrompt : Text := "Decision details are unavailable in this client.".toList

/-- `_project_decision_option`; the options of the store have no tone. -/
def projectDecisionOption (option : DecisionOption) : Option DecisionOption :=
  (safeIdentifier isAlnum option.id).map fun id =>
    { id
      label := option.label.bind fun label => safeHumanText isAlnum label 500
      description := option.description.bind fun text => safeHumanText isAlnum text 2000 }

/-- `project_decision_prompt_options`. -/
def projectDecisionPromptOptions (prompt : Text) (options : List DecisionOption) :
    Text × List DecisionOption :=
  let safeOptions := (options.take 100).filterMap (projectDecisionOption isAlnum)
  match safeHumanText isAlnum prompt 20000 with
  | some safePrompt =>
      (if safeOptions.isEmpty then redactedDecisionPrompt else safePrompt, safeOptions)
  | none => (redactedDecisionPrompt, safeOptions)

/-- A decision as clients see it. -/
structure PublicDecision where
  id : ℕ
  runId : ℕ
  attemptId : ℕ
  kind : Text
  prompt : Text
  options : List DecisionOption
  state : DecisionState
  resolution : Option Text
  revision : ℕ
  createdAt : Stamp
  resolvedAt : Option Stamp

/-- `project_public_decision`. -/
def projectPublicDecision (decision : Decision) : PublicDecision :=
  let projected := projectDecisionPromptOptions isAlnum decision.prompt decision.options
  { id := decision.id
    runId := decision.runId
    attemptId := decision.attemptId
    kind := (safeCategory decision.kind).getD "unavailable".toList
    prompt := projected.1
    options := projected.2
    state := decision.state
    resolution := decision.resolution.bind fun r => safeIdentifier isAlnum r.choice
    revision := decision.revision
    createdAt := decision.createdAt
    resolvedAt := decision.resolvedAt }

/-- The payload of a `decision.required` event. -/
structure DecisionRequired where
  decisionId : ℕ
  kind : Option Text
  prompt : Text
  options : List DecisionOption

/-- The payload of the event that `create_decision` inserts with a decision. -/
def decisionRequired (decision : Decision) : DecisionRequired :=
  { decisionId := decision.id
    kind := some decision.kind
    prompt := decision.prompt
    options := decision.options }

/-- `_project_payload` of a `decision.required` event. -/
def projectDecisionRequired (payload : DecisionRequired) : DecisionRequired :=
  let projected := projectDecisionPromptOptions isAlnum payload.prompt payload.options
  { decisionId := payload.decisionId
    kind := payload.kind.bind safeCategory
    prompt := projected.1
    options := projected.2 }

/-! ## The options that are listed -/

theorem safeIdentifier_eq_some {value id : Text} (h : safeIdentifier isAlnum value = some id) :
    id = value := by
  unfold safeIdentifier at h
  split at h
  · cases h
  · split at h
    · cases h
    · exact (Option.some.inj h).symm

/-- An option is listed under its own id. -/
theorem projectDecisionOption_id {option projected : DecisionOption}
    (h : projectDecisionOption isAlnum option = some projected) :
    projected.id = option.id ∧ (safeIdentifier isAlnum option.id).isSome := by
  obtain ⟨id, hid, rfl⟩ := Option.map_eq_some_iff.1 h
  exact ⟨safeIdentifier_eq_some isAlnum hid, by rw [hid]; rfl⟩

theorem projectDecisionOption_isSome {option : DecisionOption} :
    (projectDecisionOption isAlnum option).isSome = (safeIdentifier isAlnum option.id).isSome :=
  Option.isSome_map

theorem options_projectDecisionPromptOptions (prompt : Text) (options : List DecisionOption) :
    (projectDecisionPromptOptions isAlnum prompt options).2 =
      (options.take 100).filterMap (projectDecisionOption isAlnum) := by
  unfold projectDecisionPromptOptions
  split
  · rfl
  · rfl

/-- The ids of the options that are listed are those that are safe identifiers. -/
theorem ids_filterMap (options : List DecisionOption) :
    (options.filterMap (projectDecisionOption isAlnum)).map DecisionOption.id =
      (options.map DecisionOption.id).filter fun id => (safeIdentifier isAlnum id).isSome := by
  let safe (id : Text) : Bool := (safeIdentifier isAlnum id).isSome
  induction options with
  | nil => rfl
  | cons option options ih =>
      rw [List.map_cons]
      cases h : projectDecisionOption isAlnum option with
      | none =>
          have hunsafe : ¬(safeIdentifier isAlnum option.id).isSome := by
            rw [← projectDecisionOption_isSome, h]
            decide
          rw [List.filterMap_cons_none h, ih]
          exact (List.filter_cons_of_neg (p := safe) hunsafe).symm
      | some projected =>
          obtain ⟨hid, hsafe⟩ := projectDecisionOption_id isAlnum h
          rw [List.filterMap_cons_some h, List.map_cons, ih, hid]
          exact (List.filter_cons_of_pos (p := safe) hsafe).symm

/-- Up to a hundred options, all of them are listed just when all ids are safe. -/
theorem ids_listed_iff (prompt : Text) {options : List DecisionOption}
    (hlength : options.length ≤ 100) :
    (projectDecisionPromptOptions isAlnum prompt options).2.map DecisionOption.id =
        options.map DecisionOption.id ↔
      ∀ id ∈ options.map DecisionOption.id, (safeIdentifier isAlnum id).isSome := by
  rw [options_projectDecisionPromptOptions, List.take_of_length_le hlength, ids_filterMap]
  exact List.filter_eq_self

/-- Whatever is listed is an option of the decision. -/
theorem id_mem_of_listed {prompt : Text} {options : List DecisionOption} {option : DecisionOption}
    (h : option ∈ (projectDecisionPromptOptions isAlnum prompt options).2) :
    option.id ∈ options.map DecisionOption.id := by
  rw [options_projectDecisionPromptOptions] at h
  obtain ⟨source, hsource, hprojected⟩ := List.mem_filterMap.1 h
  rw [(projectDecisionOption_id isAlnum hprojected).1]
  exact List.mem_map_of_mem (List.mem_of_mem_take hsource)

end Patterns

end Cortex.Runs
