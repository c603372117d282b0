import Cortex.Control.Errors
import Cortex.Library.Table
import Cortex.Time.Stamp
import Mathlib.Data.List.Sort
import Mathlib.Data.List.Infix

/-!
# Recommendations, their reviews and corrections

The part of the XHS tables that the weekly fallback reads and writes: notes,
images, recommendations with their reviews, and the tasks that a correction
queues.  The free rules and the effect of a decision are here; the runs and their
items are in `Cortex.Fallback.Runs`.
-/

namespace Cortex.Fallback

open Control Time Transaction

inductive Kind
  | paper | blog | other
  deriving DecidableEq

inductive UrlState
  | none | fromText | autoMatched | unverified | notFound | operatorSet | failed
  deriving DecidableEq

/-- `_URL_BEARING_STATES`. -/
def UrlState.bearsUrl : UrlState → Bool
  | fromText | autoMatched | unverified | operatorSet => true
  | none | notFound | failed => false

inductive ImportState
  | none | staged | importing | imported | failed
  deriving DecidableEq

inductive NoteState
  | discovered | detailOk | assetsDone | ocrDone | identified | saved | unsupported | failed
  deriving DecidableEq

structure Recommendation where
  id : ℕ
  noteId : ℕ
  kind : Kind
  title : Text
  quote : Text
  imageOrdinal : Option ℕ
  arxivId : Option Text
  url : Option Text
  urlState : Option UrlState
  urlCheckedTitle : Option Text
  importState : ImportState
  revision : ℕ
  createdAt : Stamp
  deriving DecidableEq

structure Note where
  id : ℕ
  title : Text
  caption : Text
  state : NoteState
  contentVersion : ℕ
  revision : ℕ
  deriving DecidableEq

structure Image where
  noteId : ℕ
  ordinal : ℕ
  ocrOk : Bool
  ocrTextSha256 : Option Text
  deriving DecidableEq

inductive ReviewState
  | resolvedBlog | resolvedPaper | excluded | needsOperator | operatorOwned
  deriving DecidableEq

inductive Method
  | rule | model | operator
  deriving DecidableEq

inductive ReasonCode
  | arxivLink | duplicate | notOnArxiv | notABlog | notARecommendation | insufficientEvidence
  | conflictingEvidence | titleMismatch | fetchFailed | outcomeUnknown | operator
  deriving DecidableEq

inductive Field
  | kind | arxivId | url
  deriving DecidableEq

structure Review where
  recommendationId : ℕ
  state : ReviewState
  method : Method
  reasonCode : Option ReasonCode
  reason : Option Text
  correctedFields : List Field
  duplicateOf : Option ℕ
  runId : Option ℕ
  revision : ℕ
  deriving DecidableEq

/-- The subject keys of the tasks that a correction queues. -/
inductive Subject
  | blogImport (recommendationId number : ℕ)
  | save (noteId version : ℕ)
  deriving DecidableEq

/-- `GLOB 'blog:<id>:*'`. -/
def Subject.isImportOf (recommendationId : ℕ) : Subject → Bool
  | blogImport id _ => id = recommendationId
  | save _ _ => false

inductive TaskState
  | pending | running | done | failed | canceled
  deriving DecidableEq

structure Task where
  subject : Subject
  state : TaskState
  attempts : ℕ
  nextAttemptAt : Stamp
  deriving DecidableEq

instance : Keyed Recommendation ℕ := ⟨Recommendation.id⟩
instance : Keyed Note ℕ := ⟨Note.id⟩
instance : Keyed Image (ℕ × ℕ) := ⟨fun i => (i.noteId, i.ordinal)⟩
instance : Keyed Review ℕ := ⟨Review.recommendationId⟩
instance : Keyed Task Subject := ⟨Task.subject⟩

structure Library where
  recommendations : Table Recommendation
  notes : Table Note
  images : Table Image
  reviews : Table Review
  tasks : Table Task

/-- What the digest of an item's input commits to; the prompt version is a constant. -/
structure ModelInput where
  kind : Kind
  title : Text
  quote : Text
  url : Option Text
  urlState : Option UrlState
  urlCheckedTitle : Option Text
  noteTitle : Text
  /-- The caption, or the cited image with the hash of its transcription. -/
  cited : Text ⊕ ℕ × Option Text
  deriving DecidableEq

/-- The hash and the URL and identifier rules that this model does not contain. -/
structure Platform (Digest : Type) where
  inputSha256 : ModelInput → Digest
  normalizeUrl : Text → Except StoreError Text
  isPaperUrl : Text → Bool
  arxivIdFromUrl : Text → Option Text
  canonicalizeArxivId : Text → Except StoreError Text

/-! ## Decisions -/

inductive Decision
  | blog (url checkedTitle : Text) (reason : Option Text)
  | paper (arxivId : Option Text) (reason : Option Text)
  | exclude (reasonCode : ReasonCode) (reason : Option Text)
  | needsOperator (reasonCode : ReasonCode) (reason : Option Text)
  deriving DecidableEq

inductive Applied
  | blogQueued | paperCorrected | paperKept | excluded | needsOperator
  deriving DecidableEq

def reasonMax : ℕ := 500

/-- `" ".join(value.split())`. -/
def oneLine (value : Text) : Text :=
  [' '].intercalate ((value.splitOnP isSpace).filter fun word => ¬word.isEmpty)

/-- `public_reason`. -/
def publicReason : Option Text → Except StoreError (Option Text)
  | none => pure none
  | some value => do
      require (value.all fun c => 32 ≤ c.toNat ∨ c = '\n' ∨ c = '\t') (.valueError "reason is invalid")
      let text := oneLine value
      if text = [] then
        pure none
      else do
        require (text.length ≤ reasonMax) (.valueError "reason is invalid")
        pure (some text)

/-- `EXCLUDE_REASONS`. -/
def ReasonCode.excludes : ReasonCode → Bool
  | notABlog | notARecommendation | duplicate => true
  | _ => false

/-- `NEEDS_OPERATOR_REASONS`. -/
def ReasonCode.leavesToOperator : ReasonCode → Bool
  | insufficientEvidence | conflictingEvidence | titleMismatch | notABlog | fetchFailed
  | outcomeUnknown => true
  | _ => false

section Effects

variable {Digest : Type} (platform : Platform Digest)

/-- `check_decision`. -/
def checkDecision : Decision → Except StoreError Decision
  | .blog url checkedTitle reason => do
      let reason ← publicReason reason
      require (1 ≤ checkedTitle.length ∧ checkedTitle.length ≤ 1000 ∧ '\x00' ∉ checkedTitle)
        (.valueError "checked_title is invalid")
      let url ← platform.normalizeUrl url
      require (platform.isPaperUrl url = false) (.valueError "a paper page is not a blog")
      pure (.blog url checkedTitle reason)
  | .paper arxivId reason => do
      let reason ← publicReason reason
      match arxivId with
      | none => pure (.paper none reason)
      | some arxivId => do
          let arxivId ← platform.canonicalizeArxivId arxivId
          pure (.paper (some arxivId) reason)
  | .exclude reasonCode reason => do
      let reason ← publicReason reason
      require (reasonCode.excludes = true)
        (.valueError "reason_code is unsupported for this action")
      pure (.exclude reasonCode reason)
  | .needsOperator reasonCode reason => do
      let reason ← publicReason reason
      require (reasonCode.leavesToOperator = true)
        (.valueError "reason_code is unsupported for this action")
      pure (.needsOperator reasonCode reason)

/-! ## Reviews and corrections -/

/-- `merge_corrected_fields`: every field named, in the review's order. -/
def mergeCorrectedFields (fields corrected : List Field) : List Field :=
  [Field.kind, Field.arxivId, Field.url].filter fun f => f ∈ fields ∨ f ∈ corrected

/-- The `CHECK`s of `xhs_recommendation_reviews` and the guard of its duplicates. -/
def Review.Consistent (l : Library) (r : Review) : Prop :=
  (r.state = .excluded ∨ r.state = .needsOperator → r.reasonCode ≠ none) ∧
  (r.state = .operatorOwned → r.method = .operator ∧ r.reasonCode = none ∧ r.reason = none) ∧
  (r.duplicateOf ≠ none → r.duplicateOf ≠ some r.recommendationId ∧
    r.reasonCode = some .duplicate) ∧
  (∀ other, r.duplicateOf = some other →
    ∃ a ∈ l.recommendations.rows, ∃ b ∈ l.recommendations.rows, b.noteId = a.noteId ∧
      a.id = r.recommendationId ∧ b.id = other)

instance (l : Library) (r : Review) : Decidable (r.Consistent l) := by
  unfold Review.Consistent
  have : Decidable (∀ other, r.duplicateOf = some other →
      ∃ a ∈ l.recommendations.rows, ∃ b ∈ l.recommendations.rows, b.noteId = a.noteId ∧
        a.id = r.recommendationId ∧ b.id = other) :=
    match h : r.duplicateOf with
    | none => .isTrue (by simp)
    | some other => decidable_of_iff (∃ a ∈ l.recommendations.rows,
        ∃ b ∈ l.recommendations.rows, b.noteId = a.noteId ∧ a.id = r.recommendationId ∧
          b.id = other) (by simp)
  infer_instance

/-- `_xhs_set_review`. -/
def setReview (l : Library) (recommendationId : ℕ) (state : ReviewState) (method : Method)
    (reasonCode : Option ReasonCode) (reason : Option Text) (corrected : List Field)
    (duplicateOf runId : Option ℕ) (touch : Bool) : Except StoreError Library := do
  let reason ← publicReason reason
  let existing := l.reviews.get? recommendationId
  let row : Review :=
    { recommendationId, state, method, reasonCode, reason
      correctedFields :=
        mergeCorrectedFields ((existing.map Review.correctedFields).getD []) corrected
      duplicateOf, runId
      revision := (existing.map fun r => r.revision + 1).getD 0 }
  require (row.Consistent l) (.valueError "xhs recommendation review is inconsistent")
  let reviews ←
    match existing with
    | none => orRaise (l.reviews.insert? row) .integrityError
    | some _ => pure (l.reviews.update (fun r => r.recommendationId = recommendationId)
        (fun r => { row with recommendationId := r.recommendationId }))
  let recommendations :=
    if touch then
      l.recommendations.update (fun r => r.id = recommendationId)
        (fun r => { r with revision := r.revision + 1 })
    else l.recommendations
  pure { l with reviews, recommendations }

/-- `_xhs_create_task`: a repeat returns the first task, unchanged. -/
def createTask (l : Library) (subject : Subject) (now : Stamp) :
    Except StoreError (Library × Task × Bool) :=
  match l.tasks.get? subject with
  | some task => pure (l, task, false)
  | none => do
      let task : Task := { subject, state := .pending, attempts := 0, nextAttemptAt := now }
      let tasks ← orRaise (l.tasks.insert? task) .integrityError
      pure ({ l with tasks }, task, true)

/-- `_xhs_queue_save`: a finished task for the next version is made due again. -/
def queueSave (l : Library) (note : Note) (now : Stamp) : Except StoreError Library := do
  let subject := .save note.id (note.contentVersion + 1)
  let (l, task, fresh) ← createTask l subject now
  if ¬fresh ∧ task.state ∈ [TaskState.done, .failed, .canceled] then
    let tasks := l.tasks.update (fun t => t.subject = subject)
      (fun t => { t with state := .pending, attempts := 0, nextAttemptAt := now })
    pure { l with tasks }
  else
    pure l

/-- `_xhs_url_values`. -/
def urlValues (url : Option Text) (urlState : UrlState) :
    Except StoreError (Option Text × UrlState) :=
  if urlState.bearsUrl then
    match url with
    | none => throw (.valueError "url is required for this url_state")
    | some url => do
        let url ← platform.normalizeUrl url
        pure (some url, urlState)
  else do
    require (url = none) (.valueError "url is not allowed for this url_state")
    pure (none, urlState)

/-- The columns that `_xhs_correct_recommendation` is given. -/
structure Correction where
  kind : Option Kind := none
  arxivId : Option Text := none
  url : Option (Text × UrlState × Text) := none

def Correction.fields (c : Correction) : List Field :=
  (if c.kind.isSome then [Field.kind] else []) ++ (if c.arxivId.isSome then [Field.arxivId] else [])

/-- `_xhs_correct_recommendation`. -/
def correctRecommendation (l : Library) (recommendation : Recommendation) (c : Correction)
    (now : Stamp) : Except StoreError Library := do
  let arxivId ←
    match c.arxivId with
    | none => pure recommendation.arxivId
    | some arxivId => some <$> platform.canonicalizeArxivId arxivId
  let (url, urlState, urlCheckedTitle) ←
    match c.url with
    | none => pure (recommendation.url, recommendation.urlState, recommendation.urlCheckedTitle)
    | some (url, urlState, checkedTitle) => do
        let (url, urlState) ← urlValues platform (some url) urlState
        require (1 ≤ checkedTitle.length ∧ checkedTitle.length ≤ 1000)
          (.valueError "url_checked_title is invalid")
        pure (url, some urlState, some checkedTitle)
  let current ← orRaise (l.recommendations.get? recommendation.id)
    (.notFound "xhs recommendation")
  require (current.revision = recommendation.revision) .revisionConflict
  let recommendations := l.recommendations.update (fun r => r.id = recommendation.id)
    (fun r => { r with
      kind := c.kind.getD r.kind
      arxivId, url, urlState, urlCheckedTitle
      revision := r.revision + 1 })
  let notes := l.notes.update (fun n => n.id = recommendation.noteId)
    (fun n => { n with revision := n.revision + 1 })
  let note ← orRaise (notes.get? recommendation.noteId) (.notFound "xhs note")
  let l := { l with recommendations, notes }
  if note.state = .identified ∨ note.state = .saved then queueSave l note now else pure l

/-- `_xhs_queue_blog_import`, for an import that is no refetch. -/
def queueBlogImport (l : Library) (recommendation : Recommendation) (now : Stamp) :
    Except StoreError Library := do
  require (recommendation.kind = .blog ∧ recommendation.url ≠ none)
    (.invalidTransition "xhs_recommendation_not_importable" "importing")
  require (recommendation.importState ≠ .imported) (.invalidTransition "imported" "importing")
  let rows := l.tasks.rows.filter fun t => t.subject.isImportOf recommendation.id
  let l ←
    if rows.any fun t => t.state = .pending ∨ t.state = .running then
      pure l
    else do
      let (l, _, _) ← createTask l (.blogImport recommendation.id (rows.length + 1)) now
      pure l
  if recommendation.importState = .importing then
    pure l
  else do
    let current ← orRaise (l.recommendations.get? recommendation.id)
      (.notFound "xhs recommendation")
    require (current.revision = recommendation.revision) .revisionConflict
    let recommendations := l.recommendations.update (fun r => r.id = recommendation.id)
      (fun r => { r with importState := .importing, revision := r.revision + 1 })
    pure { l with recommendations }

/-- `ORDER BY created_at, id`. -/
def IsOlder (r r' : Recommendation) : Prop :=
  r.createdAt < r'.createdAt ∨ r.createdAt = r'.createdAt ∧ r.id ≤ r'.id

instance : DecidableRel IsOlder := fun r r' => by unfold IsOlder; infer_instance

/-- `_xhs_paper_in_note`. -/
def paperInNote (l : Library) (noteId : ℕ) (arxivId : Text) (otherThan : ℕ) : Option ℕ :=
  (((l.recommendations.rows.filter fun r => r.noteId = noteId ∧ r.kind = .paper ∧
    r.arxivId = some arxivId ∧ r.id ≠ otherThan).insertionSort IsOlder).map
      Recommendation.id).head?

def duplicateReason : Text :=
  "Another recommendation in this note is the same arXiv paper.".toList

/-- `_xhs_fallback_effect`: the review and the correction of one checked decision. -/
def fallbackEffect (l : Library) (recommendationId runId : ℕ) (decision : Decision)
    (now : Stamp) : Except StoreError (Library × Applied) := do
  let recommendation ← orRaise (l.recommendations.get? recommendationId)
    (.notFound "xhs recommendation")
  match decision with
  | .blog url checkedTitle reason => do
      require (recommendation.kind = .blog) (.invalidTransition "kind" "resolved_blog")
      let l ← correctRecommendation platform l recommendation
        { url := some (url, .autoMatched, checkedTitle) } now
      let l ← setReview l recommendationId .resolvedBlog .model none reason [.url] none
        (some runId) false
      let recommendation ← orRaise (l.recommendations.get? recommendationId)
        (.notFound "xhs recommendation")
      let l ← queueBlogImport l recommendation now
      pure (l, .blogQueued)
  | .paper arxivId reason =>
      match arxivId.bind fun id => paperInNote l recommendation.noteId id recommendationId with
      | some other => do
          let l ← setReview l recommendationId .excluded .model (some .duplicate)
            (some duplicateReason) [] (some other) (some runId) true
          pure (l, .excluded)
      | none => do
          let correction : Correction :=
            { kind := if recommendation.kind = .paper then none else some .paper
              arxivId := arxivId }
          let fields := correction.fields
          let l ←
            if fields = [] then pure l
            else correctRecommendation platform l recommendation correction now
          let l ← setReview l recommendationId .resolvedPaper .model
            (if arxivId = none then some .notOnArxiv else none) reason fields none (some runId)
            (fields = [])
          pure (l, if fields = [] then .paperKept else .paperCorrected)
  | .exclude reasonCode reason => do
      let l ← setReview l recommendationId .excluded .model (some reasonCode) reason [] none
        (some runId) true
      pure (l, .excluded)
  | .needsOperator reasonCode reason => do
      let l ← setReview l recommendationId .needsOperator .model (some reasonCode) reason [] none
        (some runId) true
      pure (l, .needsOperator)

/-! ## The free rules -/

def ruleBatchMax : ℕ := 100

structure RuleAction where
  recommendationId : ℕ
  noteId : ℕ
  arxivId : Text
  duplicateOf : Option ℕ

/-- `plan_rules`, over the papers known so far; the first paper of a key stays. -/
def planRules : ℕ → List (ℕ × Text × ℕ) → List Recommendation → List RuleAction
  | 0, _, _ => []
  | _, _, [] => []
  | limit + 1, known, blog :: blogs =>
      match blog.url.bind platform.arxivIdFromUrl with
      | none => planRules (limit + 1) known blogs
      | some arxivId =>
          match known.find? fun k => k.1 = blog.noteId ∧ k.2.1 = arxivId with
          | none =>
              { recommendationId := blog.id, noteId := blog.noteId, arxivId,
                duplicateOf := none } ::
                planRules limit (known ++ [(blog.noteId, arxivId, blog.id)]) blogs
          | some paper =>
              { recommendationId := blog.id, noteId := blog.noteId, arxivId,
                duplicateOf := some paper.2.2 } :: planRules limit known blogs

/-- The blogs of `_xhs_rule_plan`. -/
def ruleBlogs (l : Library) : List Recommendation :=
  (l.recommendations.rows.filter fun r => r.kind = .blog ∧
    (r.importState = .none ∨ r.importState = .failed) ∧
    (r.url.any fun url => decide ("arxiv.org/".toList <:+: url.map Char.toLower)) = true ∧
    r.urlState ≠ some .operatorSet ∧
    ∀ v ∈ l.reviews.rows, v.recommendationId = r.id → v.state = .resolvedBlog).insertionSort IsOlder

/-- The papers of `_xhs_rule_plan`. -/
def rulePapers (l : Library) (blogs : List Recommendation) : List (ℕ × Text × ℕ) :=
  ((l.recommendations.rows.filter fun r => r.kind = .paper ∧
    ∃ blog ∈ blogs, blog.noteId = r.noteId).insertionSort IsOlder).filterMap fun r =>
      match r.arxivId with
      | some arxivId => if arxivId = [] then none else some (r.noteId, arxivId, r.id)
      | none => none

def applyRule (l : Library) (action : RuleAction) (now : Stamp) : Except StoreError Library :=
  match action.duplicateOf with
  | none => do
      let recommendation ← orRaise (l.recommendations.get? action.recommendationId)
        (.notFound "xhs recommendation")
      let l ← correctRecommendation platform l recommendation
        { kind := some .paper, arxivId := some action.arxivId } now
      setReview l action.recommendationId .resolvedPaper .rule (some .arxivLink)
        (some ("The link is the arXiv page of ".toList ++ action.arxivId ++ ['.']))
        [.kind, .arxivId] none none false
  | some other =>
      setReview l action.recommendationId .excluded .rule (some .duplicate)
        (some duplicateReason) [] (some other) none true

/-- `_xhs_apply_fallback_rules`. -/
def applyFallbackRules (l : Library) (limit : ℕ) (now : Stamp) : Except StoreError Library :=
  let blogs := ruleBlogs l
  (planRules platform limit (rulePapers l blogs) blogs).foldlM
    (fun l action => applyRule platform l action now) l

/-! ## Candidates -/

/-- `ORDER BY kind = 'paper', created_at, id`. -/
def BlogsFirst (r r' : Recommendation) : Prop :=
  r.kind ≠ .paper ∧ r'.kind = .paper ∨ (r.kind = .paper ↔ r'.kind = .paper) ∧ IsOlder r r'

instance : DecidableRel BlogsFirst := fun r r' => by unfold BlogsFirst; infer_instance

/-- What a run may take: a recommendation of a saved note that was never reviewed. -/
def IsCandidate (l : Library) (r : Recommendation) : Prop :=
  (∃ n ∈ l.notes.rows, n.id = r.noteId ∧ n.state = .saved) ∧
  r.urlState ≠ some .operatorSet ∧
  (∀ v ∈ l.reviews.rows, v.recommendationId ≠ r.id) ∧
  ((r.kind = .blog ∧ (r.importState = .none ∨ r.importState = .failed) ∧
      ∀ t ∈ l.tasks.rows, (t.state = .pending ∨ t.state = .running) →
        t.subject.isImportOf r.id = false) ∨
    (r.kind = .paper ∧ r.arxivId = none ∧ r.importState = .none))

instance (l : Library) (r : Recommendation) : Decidable (IsCandidate l r) := by
  unfold IsCandidate
  infer_instance

/-- `_xhs_fallback_candidates`. -/
def fallbackCandidates (l : Library) : List Recommendation :=
  (l.recommendations.rows.filter fun r => IsCandidate l r).insertionSort BlogsFirst

/-- `_xhs_fallback_digest`. -/
def fallbackDigest (l : Library) (r : Recommendation) : Except StoreError Digest := do
  let note ← orRaise (l.notes.get? r.noteId) (.notFound "xhs note")
  let cited ←
    match r.imageOrdinal with
    | none => pure (.inl note.caption)
    | some ordinal => do
        let image ← orRaise (l.images.get? (r.noteId, ordinal)) (.notFound "xhs image")
        pure (.inr (ordinal, if image.ocrOk then image.ocrTextSha256 else none))
  pure (platform.inputSha256
    { kind := r.kind, title := r.title, quote := r.quote, url := r.url, urlState := r.urlState,
      urlCheckedTitle := r.urlCheckedTitle, noteTitle := note.title, cited })

end Effects

end Cortex.Fallback
