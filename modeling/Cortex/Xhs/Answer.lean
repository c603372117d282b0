import Cortex.Control.Errors
import Cortex.Xhs.Title

/-!
# The answer of the fallback

`interpret_answer` maps an answer of the model to a page to verify or to a decision,
`verification_decision` maps a verified page to a decision, and `check_decision` checks
every decision before it is applied.  Each of them checks and normalizes the same
fields again.
-/

namespace Cortex.Xhs

open PyText UrlSplit Sources

/-- A field of an object: absent or null, a text, or anything else. -/
inductive Field where
  | null
  | text (value : Text)
  | other
  deriving DecidableEq

def Field.ofOption : Option Text → Field
  | some value => .text value
  | none => .null

/-- The five fields of an answer, as they came. -/
structure RawAnswer where
  outcome : Field
  url : Field
  arxivId : Field
  reasonCode : Field
  reason : Field

/-- What the model answered. -/
inductive AnswerInput where
  | absent
  | malformed
  | object (answer : RawAnswer)

/-- An answer after `check_answer`. -/
structure Answer where
  outcome : Text
  url : Option Text
  arxivId : Option Text
  reasonCode : Option Text
  reason : Option Text
  deriving DecidableEq

/-- One field of `check_answer`; nothing where it raises. -/
def checkField (limit : ℕ) : Field → Option (Option Text)
  | .null => some none
  | .text value =>
      if limit < value.length then none
      else if strip value = [] then some none else some (some (strip value))
  | .other => none

/-- `check_answer`, with `_ANSWER_LIMITS`. -/
def checkAnswer (answer : RawAnswer) : Option Answer :=
  (checkField 64 answer.outcome).bind fun outcome =>
  (checkField 2048 answer.url).bind fun url =>
  (checkField 64 answer.arxivId).bind fun arxivId =>
  (checkField 64 answer.reasonCode).bind fun reasonCode =>
  (checkField 2000 answer.reason).bind fun reason =>
    outcome.map fun outcome => ⟨outcome, url, arxivId, reasonCode, reason⟩

/-- `public_reason`; nothing where it raises. -/
def publicReason : Field → Option (Option Text)
  | .null => some none
  | .other => none
  | .text value =>
      if value.any fun c => c.toNat < 32 && c ≠ '\n' && c ≠ '\t' then none
      else
        let text := Tokens.join ' ' (words value)
        if text = [] then some none
        else if 500 < text.length then none
        else some (some text)

/-- `PAPER_HOSTS` -/
def paperHosts : List Text :=
  ["arxiv.org".toList, "openreview.net".toList, "doi.org".toList, "aclanthology.org".toList]

/-- `is_paper_url`; nothing where it raises. -/
def isPaperUrl (ip : IpCheck) (url : Text) : Option Bool :=
  (urlsplit ip url).map fun split =>
    let host := ((lower split.hostname).reverse.dropWhile (· = '.')).reverse
    ".pdf".toList.isSuffixOf (lower split.path) ||
      paperHosts.any fun name => host = name || ('.' :: name).isSuffixOf host

/-- A decision, as a mapping: the value of each key that is there. -/
structure Decision where
  action : Field
  url : Option Field
  checkedTitle : Option Field
  arxivId : Option Field
  reasonCode : Option Field
  reason : Option Field
  otherKeys : Bool
  deriving DecidableEq

/-- A page to verify. -/
inductive Verify where
  | blog (url : Text)
  | arxiv (arxivId : Text)
  deriving DecidableEq

inductive Proposal where
  | error (text : Text)
  | answer (answer : Answer)
  deriving DecidableEq

structure Interpretation where
  proposal : Proposal
  verify : Option Verify
  decision : Option Decision
  deriving DecidableEq

def blogAction : Text := "blog".toList
def excludeAction : Text := "exclude".toList
def needsOperator : Text := "needs_operator".toList

/-- The decisions that are made. -/
def blogDecision (url checkedTitle : Text) (reason : Option Text) : Decision where
  action := .text blogAction
  url := some (.text url)
  checkedTitle := some (.text checkedTitle)
  arxivId := none
  reasonCode := none
  reason := some (.ofOption reason)
  otherKeys := false

def paperDecision (arxivId reason : Option Text) : Decision where
  action := .text paper
  url := none
  checkedTitle := none
  arxivId := some (.ofOption arxivId)
  reasonCode := none
  reason := some (.ofOption reason)
  otherKeys := false

def codeDecision (action reasonCode : Text) (reason : Option Text) : Decision where
  action := .text action
  url := none
  checkedTitle := none
  arxivId := none
  reasonCode := some (.text reasonCode)
  reason := some (.ofOption reason)
  otherKeys := false

/-- `EXCLUDE_REASONS` -/
def excludeReasons : List Text :=
  ["not_a_blog".toList, "not_a_recommendation".toList, "duplicate".toList]

/-- `UNDECIDED_REASONS` -/
def undecidedReasons : List Text :=
  ["insufficient_evidence".toList, "conflicting_evidence".toList]

/-- `NEEDS_OPERATOR_REASONS` -/
def needsOperatorReasons : List Text :=
  ["insufficient_evidence".toList, "conflicting_evidence".toList, "title_mismatch".toList,
    "not_a_blog".toList, "fetch_failed".toList, "outcome_unknown".toList]

/-- `_UNUSABLE` -/
def unusableReason : Text :=
  "The automatic review's answer did not fit the expected form.".toList

/-- `_operator` -/
def operator (proposal : Proposal) (reasonCode : Text) (reason : Option Text) : Interpretation :=
  ⟨proposal, none, some (codeDecision needsOperator reasonCode reason)⟩

def unusable (proposal : Proposal) : Interpretation :=
  operator proposal "insufficient_evidence".toList (some unusableReason)

def decided (answer : Answer) (decision : Decision) : Interpretation :=
  ⟨.answer answer, none, some decision⟩

/-- The authority id of an identifier. -/
def canonicalArxivId (value : Text) : Option Text :=
  (canonicalizeArxivId value).map ArxivId.work

theorem canonicalArxivId_again {value arxivId : Text} (h : canonicalArxivId value = some arxivId) :
    canonicalArxivId arxivId = some arxivId := by
  obtain ⟨id, hid, rfl⟩ := Option.map_eq_some_iff.1 h
  rw [canonicalArxivId, canonicalizeArxivId_work hid]
  rfl

/-- A corrected link; nothing where it raises. -/
def interpretUrl (ip : IpCheck) (answer : Answer) (kind : Text) : Option Interpretation :=
  match answer.arxivId, answer.url with
  | none, some url =>
      if kind = blogAction then
        match normalizeUrl ip url with
        | none => some (unusable (.answer answer))
        | some url =>
            (isPaperUrl ip url).map fun isPaper =>
              if isPaper then
                operator (.answer answer) "not_a_blog".toList
                  (some "The suggested link is a paper page, not a blog.".toList)
              else ⟨.answer { answer with url := some url }, some (.blog url), none⟩
      else some (unusable (.answer answer))
  | _, _ => some (unusable (.answer answer))

/-- An answer that is a paper. -/
def interpretPaper (answer : Answer) (reason : Option Text) : Interpretation :=
  match answer.arxivId with
  | none =>
      if answer.reasonCode = some "not_on_arxiv".toList then
        decided answer (paperDecision none reason)
      else unusable (.answer answer)
  | some arxivId =>
      match canonicalArxivId arxivId with
      | none => unusable (.answer answer)
      | some arxivId =>
          ⟨.answer { answer with arxivId := some arxivId }, some (.arxiv arxivId), none⟩

/-- The table of outcomes. -/
def interpretChecked (ip : IpCheck) (answer : Answer) (kind : Text) (reason : Option Text) :
    Option Interpretation :=
  if answer.outcome = "corrected_url".toList then interpretUrl ip answer kind
  else if answer.outcome = "reclassify_paper".toList then some (interpretPaper answer reason)
  else
    match answer.reasonCode with
    | some code =>
        if answer.outcome = excludeAction ∧ code ∈ excludeReasons then
          some (decided answer (codeDecision excludeAction code reason))
        else if answer.outcome = "undecided".toList ∧ code ∈ undecidedReasons then
          some (operator (.answer answer) code reason)
        else some (unusable (.answer answer))
    | none => some (unusable (.answer answer))

/-- `interpret_answer`; nothing where it raises. -/
def interpretAnswer (ip : IpCheck) (answer : AnswerInput) (kind : Text) (error : Option Text) :
    Option Interpretation :=
  match answer with
  | .absent =>
      let text := match error with
        | some (c :: text) => c :: text
        | _ => "no answer".toList
      some (unusable (.error (text.take 200)))
  | .malformed => some (unusable (.error "answer is malformed".toList))
  | .object raw =>
      match checkAnswer raw with
      | none => some (unusable (.error "answer is malformed".toList))
      | some answer =>
          match publicReason (.ofOption answer.reason) with
          | none => some (unusable (.answer answer))
          | some reason => interpretChecked ip answer kind reason

/-- `verification_request`; nothing where it raises. -/
def verificationRequest (ip : IpCheck) : Proposal → Option Verify
  | .error _ => none
  | .answer answer =>
      if answer.outcome = "corrected_url".toList then
        (answer.url.bind (normalizeUrl ip)).bind fun url =>
          (isPaperUrl ip url).bind fun isPaper => if isPaper then none else some (.blog url)
      else if answer.outcome = "reclassify_paper".toList then
        (answer.arxivId.bind canonicalArxivId).map .arxiv
      else none

/-! ## A verified page -/

/-- A fetched page. -/
structure Page where
  requestedUrl : Field
  finalUrl : Field
  title : Field
  ogTitle : Field
  paperHost : Bool

/-- What is kept of a page. -/
structure PageRecord where
  isBlog : Bool
  requestedUrl : Field
  finalUrl : Option Text
  title : Option Text
  ogTitle : Option Text
  paperHost : Bool
  titleMatched : Bool

/-- `_bounded_title` -/
def boundedTitle : Field → Option Text
  | .text value =>
      let text := Tokens.join ' ' (words (value.filter fun c => 32 ≤ c.toNat))
      if text = [] then none else some (text.take 1000)
  | _ => none

section Verification

variable (chars : WordChars) (unicode : Unicode) (ip : IpCheck)

/-- `verification_decision`; nothing where it raises. -/
def verificationDecision (request : Verify) (page : Page) (expectedTitle : Text)
    (reason : Option Text) : Option (Decision × PageRecord) :=
  let title := boundedTitle page.title
  let ogTitle := boundedTitle page.ogTitle
  let matched := titleMatches chars unicode expectedTitle [title, ogTitle]
  let finalUrl := match page.finalUrl with
    | .text url => some url
    | _ => none
  let record : PageRecord :=
    { isBlog := match request with
        | .blog _ => true
        | .arxiv _ => false
      requestedUrl := page.requestedUrl
      finalUrl := (finalUrl.map (·.take 2048)).filter (· ≠ [])
      title := title
      ogTitle := ogTitle
      paperHost := page.paperHost
      titleMatched := matched }
  match request with
  | .blog url =>
      -- each test is made only if the ones before it fail
      let isPaper :=
        if page.paperHost then some true
        else (isPaperUrl ip url).bind fun isPaper =>
          if isPaper then some true
          else match finalUrl with
            | some finalUrl => isPaperUrl ip finalUrl
            | none => some false
      isPaper.map fun isPaper =>
        if isPaper then
          (codeDecision needsOperator "not_a_blog".toList
            (some "The suggested link leads to a paper page, not a blog.".toList),
            { record with paperHost := true })
        else if matched then
          (blogDecision url ((ogTitle.or title).getD []) reason, record)
        else
          (codeDecision needsOperator "title_mismatch".toList
            (some "The suggested page's title does not match the recommendation.".toList), record)
  | .arxiv arxivId =>
      if matched then some (paperDecision (some arxivId) reason, record)
      else some (codeDecision needsOperator "title_mismatch".toList
        (some "The arXiv paper's title does not match the recommendation.".toList), record)

end Verification

/-! ## What may be applied -/

/-- A blog page. -/
def checkBlog (ip : IpCheck) (decision : Decision) (reason : Option Text) : Option Decision :=
  match decision.checkedTitle, decision.url with
  | some (.text title), some (.text url) =>
      if title = [] ∨ 1000 < title.length ∨ title.any (·.toNat = 0) then none
      else
        (normalizeUrl ip url).bind fun url =>
          (isPaperUrl ip url).bind fun isPaper =>
            if isPaper then none else some (blogDecision url title reason)
  | _, _ => none

/-- A paper. -/
def checkPaper (decision : Decision) (reason : Option Text) : Option Decision :=
  match decision.arxivId.getD .null with
  | .null => some (paperDecision none reason)
  | .text arxivId => (canonicalArxivId arxivId).map fun id => paperDecision (some id) reason
  | .other => none

/-- A decision with a code. -/
def checkCode (decision : Decision) (action : Text) (codes : List Text) (reason : Option Text) :
    Option Decision :=
  match decision.reasonCode with
  | some (.text code) => if code ∈ codes then some (codeDecision action code reason) else none
  | _ => none

/-- `check_decision`; nothing where it raises. -/
def checkDecision (ip : IpCheck) (decision : Decision) : Option Decision :=
  match decision.action with
  | .text action =>
      if decision.otherKeys then none
      else
        (publicReason (decision.reason.getD .null)).bind fun reason =>
          if action = blogAction then
            if decision.arxivId.isSome ∨ decision.reasonCode.isSome then none
            else checkBlog ip decision reason
          else if action = paper then
            if decision.url.isSome ∨ decision.checkedTitle.isSome ∨ decision.reasonCode.isSome then
              none
            else checkPaper decision reason
          else if action = excludeAction ∨ action = needsOperator then
            if decision.url.isSome ∨ decision.checkedTitle.isSome ∨ decision.arxivId.isSome then
              none
            else checkCode decision action
              (if action = excludeAction then excludeReasons else needsOperatorReasons) reason
          else none
  | _ => none

end Cortex.Xhs
