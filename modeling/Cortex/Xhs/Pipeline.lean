import Cortex.Xhs.Answer

/-!
# The answer pipeline is closed

What one step of the fallback accepts, the next one accepts too: the reason, the
identifier and the title of a decision are checked again with the same result.  Only a
URL is not: its normal form may be refused where it is normalized again
(`normalizeUrl_again_iff`), and `pipeline_closed_iff` says that nothing else goes wrong.
-/

namespace Cortex.Xhs

open PyText UrlSplit Sources

variable {chars : WordChars} {unicode : Unicode} {ip : IpCheck}

/-! ## Reasons -/

private theorem mem_glue {isPart : Char → Bool} {c d : Char} {text token : Text}
    {rest : List Text} (h : token ∈ glue isPart c text rest) (hd : d ∈ token) :
    d = c ∨ ∃ other ∈ rest, d ∈ other := by
  unfold glue at h
  split at h
  · rename_i word rest
    split_ifs at h
    · rcases List.mem_cons.1 h with rfl | h
      · exact (List.mem_cons.1 hd).imp id fun hd => ⟨word, .head _, hd⟩
      · exact .inr ⟨token, .tail _ h, hd⟩
    · rcases List.mem_cons.1 h with rfl | h
      · exact .inl (List.mem_singleton.1 hd)
      · exact .inr ⟨token, h, hd⟩
  · rcases List.mem_cons.1 h with rfl | h
    · exact .inl (List.mem_singleton.1 hd)
    · exact .inr ⟨token, h, hd⟩

/-- The words of a text are made of its characters. -/
private theorem mem_of_mem_words {text word : Text} {c : Char} (h : word ∈ words text)
    (hc : c ∈ word) : c ∈ text := by
  induction text generalizing word with
  | nil => cases h
  | cons d text ih =>
      rw [words] at h
      split_ifs at h
      · exact .tail _ (ih h hc)
      · rcases mem_glue h hc with rfl | ⟨other, hother, hc⟩
        · exact .head _
        · exact .tail _ (ih hother hc)

/-- A reason that is shown is shown again as it is. -/
theorem publicReason_again {field : Field} {reason : Option Text}
    (h : publicReason field = some reason) : publicReason (.ofOption reason) = some reason := by
  cases field with
  | null =>
      obtain rfl := Option.some.inj h
      rfl
  | other => cases h
  | text value =>
      rw [publicReason] at h
      split_ifs at h with hcontrol
      dsimp only at h
      split_ifs at h with hnil hlong
      · obtain rfl := Option.some.inj h
        rfl
      · obtain rfl := Option.some.inj h
        have hagain : words (Tokens.join ' ' (words value)) = words value :=
          words_join fun token => isToken_of_mem_words
        have hplain : ¬((Tokens.join ' ' (words value)).any fun c =>
            c.toNat < 32 && c ≠ '\n' && c ≠ '\t') = true := by
          rw [List.any_eq_true]
          rintro ⟨c, hc, hcontrolled⟩
          rcases Tokens.mem_join hc with rfl | ⟨word, hword, hc⟩
          · exact absurd hcontrolled (by decide)
          · exact hcontrol (List.any_eq_true.2 ⟨c, mem_of_mem_words hword hc, hcontrolled⟩)
        rw [Field.ofOption, publicReason, if_neg hplain, hagain, if_neg hnil, if_neg hlong]

/-! ## Decisions -/

/-- A decision that is applied: it is accepted, as it is when it is checked again, and it
imports no paper as a blog. -/
def Applied (ip : IpCheck) (decision : Decision) : Prop :=
  ∃ checked, checkDecision ip decision = some checked ∧
    checkDecision ip checked = some checked ∧
      ∀ url, checked.action = .text blogAction → checked.url = some (.text url) →
        isPaperUrl ip url = some false

theorem applied_code {action code : Text} {reason : Option Text}
    (hcode : action = excludeAction ∧ code ∈ excludeReasons ∨
      action = needsOperator ∧ code ∈ needsOperatorReasons)
    (hreason : publicReason (.ofOption reason) = some reason) :
    Applied ip (codeDecision action code reason) := by
  have hcheck : checkDecision ip (codeDecision action code reason) =
      some (codeDecision action code reason) := by
    have hblog : action ≠ blogAction ∧ action ≠ paper := by
      rcases hcode with ⟨rfl, -⟩ | ⟨rfl, -⟩ <;> decide
    have haction : action = excludeAction ∨ action = needsOperator := hcode.imp And.left And.left
    have hmem : code ∈ if action = excludeAction then excludeReasons else needsOperatorReasons := by
      rcases hcode with ⟨rfl, hcode⟩ | ⟨rfl, hcode⟩
      · rwa [if_pos rfl]
      · rwa [if_neg (by decide)]
    simp only [checkDecision, codeDecision, Option.getD_some, hreason, Option.bind_some,
      if_neg hblog.1, if_neg hblog.2, if_pos haction, checkCode, if_pos hmem]
    simp
  refine ⟨_, hcheck, hcheck, fun url haction => ?_⟩
  simp [codeDecision]

theorem applied_paper {arxivId reason : Option Text}
    (hid : ∀ id, arxivId = some id → canonicalArxivId id = some id)
    (hreason : publicReason (.ofOption reason) = some reason) :
    Applied ip (paperDecision arxivId reason) := by
  have hcheck : checkDecision ip (paperDecision arxivId reason) =
      some (paperDecision arxivId reason) := by
    have hpaper : paper ≠ blogAction := by decide
    have hinner : checkPaper (paperDecision arxivId reason) reason =
        some (paperDecision arxivId reason) := by
      cases arxivId with
      | none => rfl
      | some id =>
          simp only [checkPaper, paperDecision, Option.getD_some, Field.ofOption, hid id rfl,
            Option.map_some]
    rw [checkDecision]
    simp only [paperDecision, Option.getD_some, hreason, Option.bind_some, if_neg hpaper,
      if_true, Option.isSome_none]
    simpa [paperDecision] using hinner
  refine ⟨_, hcheck, hcheck, fun url haction => ?_⟩
  simp [paperDecision]

theorem applied_blog {url title : Text} {reason : Option Text}
    (htitle : title ≠ [] ∧ title.length ≤ 1000 ∧ ¬title.any (·.toNat = 0) = true)
    (hurl : normalizeUrl ip url = some url) (hpaper : isPaperUrl ip url = some false)
    (hreason : publicReason (.ofOption reason) = some reason) :
    Applied ip (blogDecision url title reason) := by
  have hcheck : checkDecision ip (blogDecision url title reason) =
      some (blogDecision url title reason) := by
    have hbad : ¬(title = [] ∨ 1000 < title.length ∨ title.any (·.toNat = 0) = true) := by
      rw [not_or, not_or, Nat.not_lt]
      exact htitle
    have hinner : checkBlog ip (blogDecision url title reason) reason =
        some (blogDecision url title reason) := by
      simp only [checkBlog, blogDecision, if_neg hbad, hurl, Option.bind_some, hpaper]
      rfl
    rw [checkDecision]
    simp only [blogDecision, Option.getD_some, hreason, Option.bind_some, if_true,
      Option.isSome_none]
    simpa [blogDecision] using hinner
  refine ⟨_, hcheck, hcheck, fun other haction hother => ?_⟩
  simp only [blogDecision, Option.some_inj, Field.text.injEq] at hother
  exact hother ▸ hpaper

/-! ## Titles -/

theorem boundedTitle_spec {field : Field} {title : Text} (h : boundedTitle field = some title) :
    title ≠ [] ∧ title.length ≤ 1000 ∧ ¬title.any (·.toNat = 0) = true := by
  cases field with
  | null => cases h
  | other => cases h
  | text value =>
      rw [boundedTitle] at h
      split_ifs at h with hnil
      obtain rfl := Option.some.inj h
      refine ⟨?_, ?_, ?_⟩
      · rw [Ne, List.take_eq_nil_iff, not_or]
        exact ⟨by decide, hnil⟩
      · rw [List.length_take]
        exact Nat.min_le_left _ _
      · rw [List.any_eq_true]
        rintro ⟨c, hc, hzero⟩
        rw [decide_eq_true_eq] at hzero
        rcases Tokens.mem_join (List.mem_of_mem_take hc) with rfl | ⟨word, hword, hc⟩
        · exact absurd hzero (by decide)
        · have hprintable := (List.mem_filter.1 (mem_of_mem_words hword hc)).2
          rw [decide_eq_true_eq] at hprintable
          omega

/-- A match is of a title that is there. -/
private theorem exists_title {expected : Text} {title ogTitle : Option Text}
    (h : titleMatches chars unicode expected [title, ogTitle] = true) :
    ∃ checked, ogTitle.or title = some checked := by
  rw [titleMatches] at h
  split_ifs at h
  cases ogTitle with
  | some ogTitle => exact ⟨ogTitle, rfl⟩
  | none =>
      cases title with
      | some title => exact ⟨title, rfl⟩
      | none => cases h

/-! ## Verification -/

/-- A request whose URL or identifier is its own normal form. -/
def Normal (ip : IpCheck) : Verify → Prop
  | .blog url => normalizeUrl ip url = some url
  | .arxiv arxivId => canonicalArxivId arxivId = some arxivId

/-- What a page supports is applied. -/
theorem applied_verification {request : Verify} {page : Page} {expectedTitle : Text}
    {reason : Option Text} {decision : Decision} {record : PageRecord}
    (hnormal : Normal ip request) (hreason : publicReason (.ofOption reason) = some reason)
    (h : verificationDecision chars unicode ip request page expectedTitle reason =
      some (decision, record)) : Applied ip decision := by
  have hmismatch : "title_mismatch".toList ∈ needsOperatorReasons := by decide
  have hnotBlog : "not_a_blog".toList ∈ needsOperatorReasons := by decide
  cases request with
  | arxiv arxivId =>
      simp only [verificationDecision] at h
      split_ifs at h
      · obtain ⟨rfl, -⟩ := Prod.mk.inj (Option.some.inj h)
        refine applied_paper (fun id hid => ?_) hreason
        obtain rfl := Option.some.inj hid
        exact hnormal
      · obtain ⟨rfl, -⟩ := Prod.mk.inj (Option.some.inj h)
        exact applied_code (.inr ⟨rfl, hmismatch⟩) (by decide +kernel)
  | blog url =>
      simp only [verificationDecision] at h
      obtain ⟨isPaper, hpaper, h⟩ := Option.map_eq_some_iff.1 h
      split_ifs at h with hisPaper hmatched
      · obtain ⟨rfl, -⟩ := Prod.mk.inj h
        exact applied_code (.inr ⟨rfl, hnotBlog⟩) (by decide +kernel)
      · obtain ⟨rfl, -⟩ := Prod.mk.inj h
        obtain ⟨checked, hchecked⟩ := exists_title hmatched
        have htitle : checked ≠ [] ∧ checked.length ≤ 1000 ∧
            ¬checked.any (·.toNat = 0) = true := by
          cases hog : boundedTitle page.ogTitle with
          | some ogTitle =>
              rw [hog, Option.some_or] at hchecked
              exact boundedTitle_spec (hog.trans hchecked)
          | none =>
              rw [hog, Option.none_or] at hchecked
              exact boundedTitle_spec hchecked
        rw [hchecked, Option.getD_some]
        refine applied_blog htitle hnormal ?_ hreason
        split_ifs at hpaper with hhost
        · exact absurd (Option.some.inj hpaper).symm hisPaper
        · obtain ⟨isPaper', hisPaper', hpaper⟩ := Option.bind_eq_some_iff.1 hpaper
          split_ifs at hpaper with htrue
          · exact absurd (Option.some.inj hpaper).symm hisPaper
          · rw [hisPaper', Bool.eq_false_iff.2 htrue]
      · obtain ⟨rfl, -⟩ := Prod.mk.inj h
        exact applied_code (.inr ⟨rfl, hmismatch⟩) (by decide +kernel)

/-! ## The pipeline -/

/-- What is asked of the answer to one item: it leads to a page to verify or to a decision,
the page is the one that the stored answer asks for, and every decision is applied. -/
def Closed (chars : WordChars) (unicode : Unicode) (ip : IpCheck) (answer : AnswerInput)
    (kind : Text) (error : Option Text) : Prop :=
  ∃ interpretation, interpretAnswer ip answer kind error = some interpretation ∧
    (interpretation.verify.isSome ↔ interpretation.decision = none) ∧
    (∀ verify, interpretation.verify = some verify →
      verificationRequest ip interpretation.proposal = some verify) ∧
    (∀ decision, interpretation.decision = some decision → Applied ip decision) ∧
    ∀ verify, interpretation.verify = some verify →
      ∀ page expectedTitle reason decision record,
        publicReason (.ofOption reason) = some reason →
        verificationDecision chars unicode ip verify page expectedTitle reason =
          some (decision, record) → Applied ip decision

/-- A corrected link of a blog whose normal form is no URL that is normalized again, and no
page of a paper. -/
def Stuck (ip : IpCheck) (answer : AnswerInput) (kind : Text) : Prop :=
  ∃ raw checked url normal, answer = .object raw ∧ checkAnswer raw = some checked ∧
    (publicReason (.ofOption checked.reason)).isSome ∧
    checked.outcome = "corrected_url".toList ∧ kind = blogAction ∧ checked.arxivId = none ∧
    checked.url = some url ∧ normalizeUrl ip url = some normal ∧
    isPaperUrl ip normal ≠ some true ∧ (Overfull url ∨ BareBracket url)

/-- How an answer that fits the form is read. -/
private theorem interpretAnswer_object {raw : RawAnswer} {checked : Answer} {reason : Option Text}
    (hchecked : checkAnswer raw = some checked)
    (hreason : publicReason (.ofOption checked.reason) = some reason) (kind : Text)
    (error : Option Text) :
    interpretAnswer ip (.object raw) kind error = interpretChecked ip checked kind reason := by
  simp only [interpretAnswer, hchecked, hreason]

private theorem interpretUrl_normal {checked : Answer} {kind url normal : Text}
    (hkind : kind = blogAction) (hid : checked.arxivId = none) (hurl : checked.url = some url)
    (hnormal : normalizeUrl ip url = some normal) :
    interpretUrl ip checked kind = (isPaperUrl ip normal).map fun isPaper =>
      if isPaper then
        operator (.answer checked) "not_a_blog".toList
          (some "The suggested link is a paper page, not a blog.".toList)
      else ⟨.answer { checked with url := some normal }, some (.blog normal), none⟩ := by
  simp only [interpretUrl, hid, hurl, if_pos hkind, hnormal]

private theorem verificationRequest_url {checked : Answer} {normal : Text}
    (houtcome : checked.outcome = "corrected_url".toList) :
    verificationRequest ip (.answer { checked with url := some normal }) =
      (normalizeUrl ip normal).bind fun url =>
        (isPaperUrl ip url).bind fun isPaper => if isPaper then none else some (.blog url) := by
  rw [verificationRequest, if_pos houtcome, Option.bind_some]

private theorem closed_decision {answer : AnswerInput} {kind : Text} {error : Option Text}
    {proposal : Proposal} {decision : Decision}
    (h : interpretAnswer ip answer kind error = some ⟨proposal, none, some decision⟩)
    (hdecision : Applied ip decision) : Closed chars unicode ip answer kind error := by
  have hnone : ∀ verify, (none : Option Verify) = some verify → False :=
    fun verify hsome => Option.some_ne_none verify hsome.symm
  refine ⟨_, h, by simp, fun verify hverify => (hnone verify hverify).elim, fun other hother => ?_,
    fun verify hverify => (hnone verify hverify).elim⟩
  obtain rfl := Option.some.inj hother
  exact hdecision

private theorem closed_unusable {answer : AnswerInput} {kind : Text} {error : Option Text}
    {proposal : Proposal}
    (h : interpretAnswer ip answer kind error = some (unusable proposal)) :
    Closed chars unicode ip answer kind error :=
  closed_decision h (applied_code (.inr ⟨rfl, by decide⟩) (by decide +kernel))

private theorem closed_verify {answer : AnswerInput} {kind : Text} {error : Option Text}
    {proposal : Proposal} {verify : Verify}
    (h : interpretAnswer ip answer kind error = some ⟨proposal, some verify, none⟩)
    (hrequest : verificationRequest ip proposal = some verify) (hnormal : Normal ip verify) :
    Closed chars unicode ip answer kind error := by
  refine ⟨_, h, by simp, fun other hother => ?_,
    fun decision hdecision => absurd hdecision.symm (Option.some_ne_none decision),
    fun other hother page expectedTitle reason decision record hreason hdecision => ?_⟩
  · obtain rfl := Option.some.inj hother
    exact hrequest
  · obtain rfl := Option.some.inj hother
    exact applied_verification hnormal hreason hdecision

/-- A corrected link, unless its normal form is refused. -/
private theorem closed_url {raw : RawAnswer} {checked : Answer} {kind : Text}
    {error reason : Option Text} (hchecked : checkAnswer raw = some checked)
    (hreason : publicReason (.ofOption checked.reason) = some reason)
    (houtcome : checked.outcome = "corrected_url".toList)
    (hstuck : ¬Stuck ip (.object raw) kind) :
    Closed chars unicode ip (.object raw) kind error := by
  have hinterpret : interpretAnswer ip (.object raw) kind error = interpretUrl ip checked kind := by
    rw [interpretAnswer_object hchecked hreason, interpretChecked, if_pos houtcome]
  have hunusable : interpretUrl ip checked kind = some (unusable (.answer checked)) →
      Closed chars unicode ip (.object raw) kind error :=
    fun h => closed_unusable (hinterpret.trans h)
  cases hid : checked.arxivId with
  | some arxivId => exact hunusable (by rw [interpretUrl, hid])
  | none =>
      cases hurl : checked.url with
      | none => exact hunusable (by rw [interpretUrl, hid, hurl])
      | some url =>
          by_cases hkind : kind = blogAction
          case neg => exact hunusable (by simp only [interpretUrl, hid, hurl, if_neg hkind])
          cases hnormal : normalizeUrl ip url with
          | none => exact hunusable (by simp only [interpretUrl, hid, hurl, if_pos hkind, hnormal])
          | some normal =>
              have hmap := interpretUrl_normal hkind hid hurl hnormal
              by_cases hpaper : isPaperUrl ip normal = some true
              · rw [hpaper, Option.map_some, if_pos rfl] at hmap
                exact closed_decision (hinterpret.trans hmap)
                  (applied_code (.inr ⟨rfl, by decide⟩) (by decide +kernel))
              · -- the normal form is its own, so the stored answer asks for the same page
                have hgood : ¬Overfull url ∧ ¬BareBracket url := by
                  rw [← not_or]
                  exact fun hbad => hstuck ⟨raw, checked, url, normal, rfl, hchecked,
                    by rw [hreason]; rfl, houtcome, hkind, hid, hurl, hnormal, hpaper, hbad⟩
                have hagain := (normalizeUrl_again_iff hnormal).2 hgood
                have hfalse : isPaperUrl ip normal = some false := by
                  have hsplit := urlsplit_of_normalizeUrl hagain (strip_of_normalizeUrl hnormal)
                  cases hvalue : isPaperUrl ip normal with
                  | none => simp [isPaperUrl, hsplit] at hvalue
                  | some isPaper =>
                      cases isPaper with
                      | false => rfl
                      | true => exact absurd hvalue hpaper
                rw [hfalse, Option.map_some, if_neg Bool.false_ne_true] at hmap
                refine closed_verify (hinterpret.trans hmap) ?_ hagain
                rw [verificationRequest_url houtcome, hagain, Option.bind_some, hfalse,
                  Option.bind_some, if_neg Bool.false_ne_true]

/-- An answer that is a paper. -/
private theorem closed_paper {raw : RawAnswer} {checked : Answer} {kind : Text}
    {error reason : Option Text} (hchecked : checkAnswer raw = some checked)
    (hreason : publicReason (.ofOption checked.reason) = some reason)
    (houtcome : checked.outcome ≠ "corrected_url".toList)
    (hpaper : checked.outcome = "reclassify_paper".toList) :
    Closed chars unicode ip (.object raw) kind error := by
  have hinterpret : interpretAnswer ip (.object raw) kind error =
      some (interpretPaper checked reason) := by
    rw [interpretAnswer_object hchecked hreason, interpretChecked, if_neg houtcome, if_pos hpaper]
  cases hid : checked.arxivId with
  | none =>
      by_cases hcode : checked.reasonCode = some "not_on_arxiv".toList
      · have hvalue : interpretPaper checked reason = decided checked (paperDecision none reason) := by
          simp only [interpretPaper, hid, if_pos hcode]
        rw [hvalue] at hinterpret
        exact closed_decision hinterpret (applied_paper
          (fun id hsome => absurd hsome.symm (Option.some_ne_none id)) (publicReason_again hreason))
      · have hvalue : interpretPaper checked reason = unusable (.answer checked) := by
          simp only [interpretPaper, hid, if_neg hcode]
        rw [hvalue] at hinterpret
        exact closed_unusable hinterpret
  | some arxivId =>
      cases hcanonical : canonicalArxivId arxivId with
      | none =>
          have hvalue : interpretPaper checked reason = unusable (.answer checked) := by
            simp only [interpretPaper, hid, hcanonical]
          rw [hvalue] at hinterpret
          exact closed_unusable hinterpret
      | some id =>
          have hvalue : interpretPaper checked reason =
              ⟨.answer { checked with arxivId := some id }, some (.arxiv id), none⟩ := by
            simp only [interpretPaper, hid, hcanonical]
          rw [hvalue] at hinterpret
          have hsame := canonicalArxivId_again hcanonical
          refine closed_verify hinterpret ?_ hsame
          rw [verificationRequest, if_neg houtcome, if_pos hpaper, Option.bind_some, hsame,
            Option.map_some]

private theorem undecided_needsOperator {code : Text} (h : code ∈ undecidedReasons) :
    code ∈ needsOperatorReasons := by
  simp only [undecidedReasons, List.mem_cons, List.not_mem_nil, or_false] at h
  rcases h with rfl | rfl <;> decide

/-- Every other answer leads to a decision. -/
private theorem closed_code {raw : RawAnswer} {checked : Answer} {kind : Text}
    {error reason : Option Text} (hchecked : checkAnswer raw = some checked)
    (hreason : publicReason (.ofOption checked.reason) = some reason)
    (houtcome : checked.outcome ≠ "corrected_url".toList)
    (hpaper : checked.outcome ≠ "reclassify_paper".toList) :
    Closed chars unicode ip (.object raw) kind error := by
  have hinterpret := @interpretAnswer_object ip _ _ _ hchecked hreason kind error
  have hagain := publicReason_again hreason
  rw [interpretChecked, if_neg houtcome, if_neg hpaper] at hinterpret
  split at hinterpret
  · split_ifs at hinterpret with hexclude hundecided
    · exact closed_decision hinterpret (applied_code (.inl ⟨rfl, hexclude.2⟩) hagain)
    · exact closed_decision hinterpret
        (applied_code (.inr ⟨rfl, undecided_needsOperator hundecided.2⟩) hagain)
    · exact closed_unusable hinterpret
  · exact closed_unusable hinterpret

/-- A stuck answer asks for a page that the stored answer does not ask for. -/
private theorem not_closed_of_stuck {answer : AnswerInput} {kind : Text} {error : Option Text}
    (hstuck : Stuck ip answer kind) : ¬Closed chars unicode ip answer kind error := by
  obtain ⟨raw, checked, url, normal, rfl, hchecked, hreason, houtcome, hkind, hid, hurl, hnormal,
    hpaper, hbad⟩ := hstuck
  rintro ⟨interpretation, hinterpret, -, hrequest, -⟩
  obtain ⟨reason, hreason⟩ := Option.isSome_iff_exists.1 hreason
  rw [interpretAnswer_object hchecked hreason, interpretChecked, if_pos houtcome,
    interpretUrl_normal hkind hid hurl hnormal] at hinterpret
  obtain ⟨isPaper, hisPaper, rfl⟩ := Option.map_eq_some_iff.1 hinterpret
  cases isPaper with
  | true => exact hpaper hisPaper
  | false =>
      rw [if_neg Bool.false_ne_true] at hrequest
      have hagain := hrequest (.blog normal) rfl
      rw [verificationRequest_url houtcome] at hagain
      obtain ⟨again, hagain, h⟩ := Option.bind_eq_some_iff.1 hagain
      obtain ⟨isPaper', -, h⟩ := Option.bind_eq_some_iff.1 h
      split_ifs at h
      obtain rfl := Verify.blog.inj (Option.some.inj h)
      have hgood := (normalizeUrl_again_iff hnormal).1 hagain
      exact hbad.elim hgood.1 hgood.2

/-- The pipeline is closed, unless the normal form of a corrected link is refused. -/
theorem pipeline_closed_iff (chars : WordChars) (unicode : Unicode) (ip : IpCheck)
    (answer : AnswerInput) (kind : Text) (error : Option Text) :
    Closed chars unicode ip answer kind error ↔ ¬Stuck ip answer kind := by
  constructor
  · exact fun h hstuck => not_closed_of_stuck hstuck h
  · intro hstuck
    cases answer with
    | absent => exact closed_unusable rfl
    | malformed => exact closed_unusable rfl
    | object raw =>
        cases hchecked : checkAnswer raw with
        | none =>
            have hvalue : interpretAnswer ip (.object raw) kind error =
                some (unusable (.error "answer is malformed".toList)) := by
              simp only [interpretAnswer, hchecked]
            exact closed_unusable hvalue
        | some checked =>
            cases hreason : publicReason (.ofOption checked.reason) with
            | none =>
                have hvalue : interpretAnswer ip (.object raw) kind error =
                    some (unusable (.answer checked)) := by
                  simp only [interpretAnswer, hchecked, hreason]
                exact closed_unusable hvalue
            | some reason =>
                by_cases houtcome : checked.outcome = "corrected_url".toList
                · exact closed_url hchecked hreason houtcome hstuck
                · by_cases hpaper : checked.outcome = "reclassify_paper".toList
                  · exact closed_paper hchecked hreason houtcome hpaper
                  · exact closed_code hchecked hreason houtcome hpaper

/-- The answer that a link is corrected to a URL. -/
def correctedUrl (url : Text) : RawAnswer where
  outcome := .text "corrected_url".toList
  url := .text url
  arxivId := .null
  reasonCode := .null
  reason := .null

/-- A host without a dot, and longer than those of papers, is none of them. -/
private theorem not_paperHost {n : ℕ} (hn : 100 ≤ n) :
    (paperHosts.any fun name => List.replicate n 'a' = name ||
      ('.' :: name).isSuffixOf (List.replicate n 'a')) = false := by
  rw [List.any_eq_false]
  intro name hname
  rw [Bool.or_eq_true, not_or, decide_eq_true_eq, List.isSuffixOf_iff_suffix]
  constructor
  · rintro rfl
    have hshort : ∀ name ∈ paperHosts, name.length < 100 := by decide
    have hlength := hshort _ hname
    rw [List.length_replicate] at hlength
    omega
  · intro hsuffix
    exact absurd (List.eq_of_mem_replicate (hsuffix.subset (.head _))) (by decide)

private theorem isPaperUrl_longValue :
    isPaperUrl noAddress ("http://".toList ++ List.replicate 1993 'a' ++ ['/']) ≠ some true := by
  have hparts : splitParts ("http://".toList ++ List.replicate 1993 'a' ++ ['/']) =
      ⟨"http".toList, List.replicate 1993 'a', ['/'], [], []⟩ := by
    decide +kernel
  have hhost : lower (SplitResult.hostname ⟨"http".toList, List.replicate 1993 'a', ['/'], [], []⟩) =
      List.replicate 1993 'a' := by
    have hhost := longValue_parts.2.2
    rwa [host, longValue_parts.2.1] at hhost
  intro hpaper
  rw [isPaperUrl, urlsplit, hparts] at hpaper
  obtain ⟨split, hsplit, hpaper⟩ := Option.map_eq_some_iff.1 hpaper
  split_ifs at hsplit
  obtain rfl := Option.some.inj hsplit
  have hdots : ((List.replicate 1993 'a').reverse.dropWhile fun c => c = '.').reverse =
      List.replicate 1993 'a' := by
    rw [List.reverse_replicate, dropWhile_eq_self fun c hc => ?_, List.reverse_replicate]
    rw [List.eq_of_mem_replicate hc]
    decide
  simp only [hhost, hdots, not_paperHost (n := 1993) (by decide), Bool.or_false] at hpaper
  exact absurd hpaper (by decide)

/-- Two answers that are stuck: a link whose normal form has lost its brackets, and one
whose normal form is too long. -/
theorem corrected_url_stuck :
    ¬Closed asciiWords asciiUnicode noAddress (.object (correctedUrl "http://[v1.[x]/".toList))
        blogAction none ∧
      ¬Closed asciiWords asciiUnicode noAddress
        (.object (correctedUrl ("http://".toList ++ List.replicate 1993 'a'))) blogAction none := by
  constructor
  · refine not_closed_of_stuck ⟨_, ⟨"corrected_url".toList, some "http://[v1.[x]/".toList, none, none,
      none⟩, "http://[v1.[x]/".toList, "http://v1.[x/".toList, rfl, by decide +kernel, rfl, rfl, rfl,
      rfl, rfl, by decide +kernel, by decide +kernel, .inr ?_⟩
    exact ⟨by decide +kernel, by decide +kernel⟩
  · refine not_closed_of_stuck ⟨_, ⟨"corrected_url".toList,
      some ("http://".toList ++ List.replicate 1993 'a'), none, none, none⟩,
      "http://".toList ++ List.replicate 1993 'a', "http://".toList ++ List.replicate 1993 'a' ++ ['/'],
      rfl, by decide +kernel, rfl, rfl, rfl, rfl, rfl, normalizeUrl_longValue,
      isPaperUrl_longValue, .inl overfull_longValue⟩

end Cortex.Xhs
