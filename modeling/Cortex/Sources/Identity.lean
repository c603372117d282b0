import Cortex.Sources.Intent
import Cortex.Sources.Pages

/-!
# The identity of a locator

A normalized locator is a page, or a file of the workspace, and it is read again by another
branch of `canonicalize_source_locator` than the text it came from.  There it has the same
identity, but for a DOI of more than 984 characters: its page has more than the 1000
characters that `canonicalize_doi` takes.

`ReadAs` sums up what is accepted, and `Spells` lists the texts that name a work.
-/

namespace Cortex.Sources

open PyText UrlSplit

variable {unicode : UnicodeData} {ip : IpCheck} {value text work path token : List Char}
  {digest : Option (List Char)} {locator : CanonicalLocator}

/-! ## What is accepted -/

theorem isWork_of_arxivPath {id : ArxivId} (h : arxivPath path = some id) :
    isWork id.work = true := by
  simp only [arxivPath] at h
  split_ifs at h with hview
  split at h
  · cases h
  · rename_i work rest hwork
    split_ifs at h
    all_goals
      obtain ⟨version, -, rfl⟩ := Option.map_eq_some_iff.1 h
      exact isWork_of_arxivWork hwork

theorem isWork_of_canonicalizeArxivId {id : ArxivId} (h : canonicalizeArxivId text = some id) :
    isWork id.work = true := by
  rw [canonicalizeArxivId] at h
  split_ifs at h
  obtain ⟨start, rest, hwork, -⟩ := arxivMatch_eq_some h
  exact isWork_of_arxivWork hwork


/-- How a text is accepted; a DOI is read from no other text than that of a DOI. -/
inductive ReadAs (unicode : UnicodeData) (ip : IpCheck) (text : List Char)
    (digest : Option (List Char)) : CanonicalLocator → Prop
  | arxiv {id : ArxivId} {kind : ClaimKind} (hwork : isWork id.work = true)
      (hdoi : ∀ candidate, doiCandidate ip text = some candidate → isDoi candidate = false) :
      ReadAs unicode ip text digest { arxivLocator id with claimKind := kind }
  | doi {candidate : List Char} {kind : ClaimKind}
      (hcandidate : doiCandidate ip text = some candidate) (hdoi : isDoi candidate = true) :
      ReadAs unicode ip text digest (doiLocator (lower candidate) kind)
  | file {segments : List (List Char)} {identity : List Char}
      (hscheme : cortexScheme.isPrefixOf text = true)
      (hparse : parseResourceUri unicode ip text = some segments)
      (hsegments : (segments.all fun segment =>
        (normalizeSourceText unicode segment 1000).isSome) = true)
      (hidentity : isSha256 identity = true)
      (hdoi : doiCandidate ip text = none) :
      ReadAs unicode ip text digest ⟨.sha256, lower identity, text, .localFile, none⟩

/-- The candidate of a URL is the path of its page. -/
theorem doiCandidate_url {split : SplitResult} (hsplit : urlsplit ip text = some split)
    (hscheme : split.scheme ≠ "doi".toList) (hcontains : contains schemeSeparator text = true) :
    doiCandidate ip text = (plainUrl ip text).bind fun split =>
      if split.hostname = "doi.org".toList ∧ split.path.head? = some '/' then
        some (split.path.drop 1)
      else none := by
  have hprefix : lower (text.take 4) ≠ doiPrefix := by
    intro h
    rw [urlsplit] at hsplit
    split_ifs at hsplit
    rw [← Option.some.inj hsplit] at hscheme
    exact hscheme (scheme_of_doiPrefix h)
  rw [doiCandidate, if_neg hprefix, if_pos hcontains]
  cases plainUrl ip text with
  | none => rfl
  | some split => rfl

/-- What `plainUrl` returns are the parts of the URL. -/
theorem plainUrl_spec {split : SplitResult} (h : plainUrl ip text = some split) :
    urlsplit ip text = some split ∧ split.scheme = "https".toList := by
  rw [plainUrl] at h
  split at h
  · cases h
  · rename_i split' hsplit
    split_ifs at h with hparts
    obtain rfl := Option.some.inj h
    simp only [not_or, Decidable.not_not] at hparts
    exact ⟨hsplit, hparts.1⟩

private theorem canonicalizeDoi_spec {doi : CanonicalLocator} (hstrip : strip text = text)
    (h : canonicalizeDoi ip text = some doi) :
    ∃ candidate kind, doiCandidate ip text = some candidate ∧ isDoi candidate = true ∧
      doi = doiLocator (lower candidate) kind := by
  rw [canonicalizeDoi, hstrip] at h
  generalize (if contains schemeSeparator text = true then ClaimKind.url else .doi) = kind at h
  split_ifs at h
  split at h
  · cases h
  · rename_i candidate hcandidate
    split_ifs at h with hdoi
    exact ⟨candidate, kind, hcandidate, hdoi, (Option.some.inj h).symm⟩

theorem readAs (h : canonicalizeSourceLocator unicode ip value digest = some locator) :
    ∃ text, normalizeSourceText unicode value 2000 = some text ∧
      ReadAs unicode ip text digest locator := by
  rw [canonicalizeSourceLocator] at h
  split at h
  · cases h
  · rename_i text htext
    obtain ⟨hstrip, hne, hlength⟩ := normalizeSourceText_spec htext
    refine ⟨text, htext, ?_⟩
    split_ifs at h with hcortex hdigest hcontains harxiv hdoi
    · split at h
      · rename_i segments identity hparse
        split_ifs at h with hsegments hidentity
        obtain rfl := Option.some.inj h
        obtain ⟨-, split, hsplit, hscheme⟩ := parseResourceUri_spec hparse
        refine .file hcortex hparse hsegments hidentity ?_
        have hcontains : contains schemeSeparator text = true := by
          obtain ⟨rest, hrest⟩ := List.isPrefixOf_iff_prefix.1 hcortex
          exact decide_eq_true ⟨"cortex".toList, rest, by rw [← hrest]; rfl⟩
        have hplain : plainUrl ip text = none := by
          cases hcase : plainUrl ip text with
          | none => rfl
          | some split' =>
              obtain ⟨hsplit', hscheme'⟩ := plainUrl_spec hcase
              rw [hsplit] at hsplit'
              obtain rfl := Option.some.inj hsplit'
              rw [hscheme] at hscheme'
              exact absurd hscheme' (by decide)
        rw [doiCandidate_url hsplit (by rw [hscheme]; decide) hcontains, hplain, Option.bind_none]
      · cases h
    · split at h
      · cases h
      · rename_i split hsplit
        split_ifs at h with harxiv hdoi
        · rw [canonicalizeLocator] at h
          split_ifs at h
          split at h
          · cases h
          · rename_i split' hplain
            obtain ⟨hsplit', hscheme⟩ := plainUrl_spec hplain
            rw [hsplit] at hsplit'
            obtain rfl := Option.some.inj hsplit'
            split_ifs at h
            obtain ⟨id, hid, rfl⟩ := Option.map_eq_some_iff.1 h
            refine .arxiv (isWork_of_arxivPath hid) fun candidate hcandidate => ?_
            rw [doiCandidate_url hsplit (by rw [hscheme]; decide) hcontains, hplain,
              Option.bind_some] at hcandidate
            split_ifs at hcandidate with hhost
            rw [hhost.1] at harxiv
            exact absurd harxiv (by decide)
        · obtain ⟨doi, hread, rfl⟩ := Option.map_eq_some_iff.1 h
          obtain ⟨candidate, kind, hcandidate, hdoi, rfl⟩ := canonicalizeDoi_spec hstrip hread
          exact .doi hcandidate hdoi
    · obtain ⟨id, hid, rfl⟩ := Option.map_eq_some_iff.1 h
      refine .arxiv (isWork_of_canonicalizeArxivId hid) fun candidate hcandidate => ?_
      obtain ⟨id', hid'⟩ := Option.isSome_iff_exists.1 harxiv
      rw [doiCandidate] at hcandidate
      split_ifs at hcandidate with hprefix
      · rw [arxivMatch_doiPrefix hprefix] at hid'
        cases hid'
      · obtain rfl := Option.some.inj hcandidate
        cases hdoi : isDoi text with
        | false => rfl
        | true =>
            rw [arxivMatch_isDoi hdoi] at hid'
            cases hid'
    · obtain ⟨doi, hread, rfl⟩ := Option.map_eq_some_iff.1 h
      obtain ⟨candidate, kind, hcandidate, hdoi, rfl⟩ := canonicalizeDoi_spec hstrip hread
      exact .doi hcandidate hdoi

/-! ## Spellings -/

/-- The texts that name a work of an authority. -/
inductive Spells (ip : IpCheck) : Authority × List Char → List Char → Prop
  /-- An identifier, with `arXiv:` before it or not, and a version or not. -/
  | arxivId {start work version : List Char} (hstart : start = [] ∨ lower start = arxivPrefix)
      (hwork : isWork work = true) (hversion : IsVersion ['v', 'V'] version) :
      Spells ip (.arxiv, work) (start ++ (work ++ version))
  /-- The page of a work or of its PDF. -/
  | arxivPage {text view work version suffix : List Char} {split : SplitResult}
      (hcontains : contains schemeSeparator text = true) (hsplit : urlsplit ip text = some split)
      (hscheme : split.scheme = "https".toList) (hhost : split.hostname ∈ arxivHosts)
      (hpath : split.path = view ++ (work ++ (version ++ suffix)))
      (hview : view = "/abs/".toList ∧ suffix = [] ∨
        view = "/pdf/".toList ∧ (suffix = [] ∨ suffix = ".pdf".toList))
      (hwork : isWork work = true) (hversion : IsVersion ['v'] version) :
      Spells ip (.arxiv, work) text
  /-- The token of a DOI. -/
  | doi {token : List Char} (hdoi : isDoi token = true) : Spells ip (.doi, lower token) token
  /-- The token with `doi:` before it. -/
  | doiPrefixed {start token : List Char} (hstart : lower start = doiPrefix)
      (hdoi : isDoi token = true) : Spells ip (.doi, lower token) (start ++ token)
  /-- The page of a DOI. -/
  | doiPage {text token : List Char} {split : SplitResult}
      (hcontains : contains schemeSeparator text = true) (hsplit : urlsplit ip text = some split)
      (hscheme : split.scheme = "https".toList) (hhost : split.hostname = "doi.org".toList)
      (hpath : split.path = '/' :: token) (hdoi : isDoi token = true) :
      Spells ip (.doi, lower token) text

/-- A locator, without what normalization removes, names the work. -/
def Names (unicode : UnicodeData) (ip : IpCheck) (value : List Char)
    (work : Authority × List Char) : Prop :=
  ∃ text, normalizeSourceText unicode value 2000 = some text ∧ Spells ip work text

variable {name : Authority × List Char}

private theorem IsVersion.head {letters version : List Char} (h : IsVersion letters version) :
    version = [] ∨ ∃ c tail, version = c :: tail ∧ c ∈ letters := by
  rcases h with rfl | ⟨c, first, digits, rfl, hc, -⟩
  · exact .inl rfl
  · exact .inr ⟨c, first :: digits, rfl, hc⟩

/-- No digit follows a work. -/
private theorem not_digit_after {version suffix : List Char} (hversion : IsVersion ['v'] version)
    (hsuffix : suffix = [] ∨ suffix = ".pdf".toList) (c : Char) (tail : List Char)
    (h : version ++ suffix = c :: tail) : c.isDigit = false := by
  rcases hversion.head with rfl | ⟨d, rest, rfl, hd⟩
  · rcases hsuffix with rfl | rfl
    · cases h
    · obtain ⟨rfl, -⟩ := List.cons.inj (show '.' :: ['p', 'd', 'f'] = c :: tail from h)
      decide
  · obtain ⟨rfl, -⟩ := List.cons.inj h
    rw [List.mem_singleton.1 hd]
    decide

private theorem arxivPath_work {view version suffix : List Char} {id : ArxivId}
    (hview : view = "/abs/".toList ∧ suffix = [] ∨
      view = "/pdf/".toList ∧ (suffix = [] ∨ suffix = ".pdf".toList))
    (hwork : isWork work = true) (hversion : IsVersion ['v'] version)
    (h : arxivPath (view ++ (work ++ (version ++ suffix))) = some id) : id.work = work := by
  have hlength : view.length = 5 := by
    rcases hview with ⟨rfl, -⟩ | ⟨rfl, -⟩ <;> decide
  have hsuffix : suffix = [] ∨ suffix = ".pdf".toList := by
    rcases hview with ⟨-, hsuffix⟩ | ⟨-, hsuffix⟩
    · exact .inl hsuffix
    · exact hsuffix
  have hread := arxivWork_append hwork fun c tail heq => not_digit_after hversion hsuffix c tail heq
  simp only [arxivPath, ← hlength, List.drop_left, hread] at h
  split_ifs at h
  all_goals
    obtain ⟨version, -, rfl⟩ := Option.map_eq_some_iff.1 h
    rfl

/-! ### Identifiers -/

private theorem version_length {letters version : List Char} (hversion : IsVersion letters version)
    (hlength : version.length ≤ 2000) : (arxivVersion letters version).isSome = true := by
  rcases hversion with rfl | ⟨v, first, digits, rfl, hv, hfirst, hzero, hdigits⟩
  · rfl
  · have hshort : digits.length < 4300 := by
      simp only [List.length_cons] at hlength
      omega
    rw [arxivVersion, if_pos ⟨hv, hfirst, hzero, hdigits, hshort⟩]
    rfl

/-- An identifier is matched as its work. -/
private theorem arxivMatch_spelled {start version : List Char}
    (hstart : start = [] ∨ lower start = arxivPrefix) (hwork : isWork work = true)
    (hversion : IsVersion ['v', 'V'] version) :
    arxivMatch (start ++ (work ++ version)) =
      (arxivVersion ['v', 'V'] version).map (⟨work, ·⟩) := by
  have hread : arxivWork (work ++ version) = some (work, version) :=
    arxivWork_append hwork fun c tail heq => by
      rcases hversion.head with rfl | ⟨d, rest, rfl, hd⟩
      · cases heq
      · obtain ⟨rfl, -⟩ := List.cons.inj heq
        simp only [List.mem_cons, List.not_mem_nil, or_false] at hd
        rcases hd with rfl | rfl <;> decide
  have hdrop : (if lower ((start ++ (work ++ version)).take 6) = arxivPrefix then
      (start ++ (work ++ version)).drop 6 else start ++ (work ++ version)) = work ++ version := by
    rcases hstart with rfl | hstart
    · refine if_neg fun heq => ?_
      obtain ⟨⟨c, tail, rfl, hdigit⟩, -⟩ := isWork_chars hwork
      have hhead : some c.toLower = some 'a' := congrArg List.head? heq
      have hletter := toLower_cases (Option.some.inj hhead)
      have hbounds := isDigit_iff.1 hdigit
      rcases hletter with rfl | ⟨hmin, -⟩
      · exact absurd hbounds (by decide)
      · omega
    · have hlength := congrArg List.length hstart
      rw [length_lower, show arxivPrefix.length = 6 from rfl] at hlength
      rw [← hlength, List.take_left, List.drop_left, if_pos hstart]
  rw [arxivMatch, hdrop, hread]

private theorem slash_not_mem {start version : List Char}
    (hstart : start = [] ∨ lower start = arxivPrefix) (hwork : isWork work = true)
    (hversion : IsVersion ['v', 'V'] version) : '/' ∉ start ++ (work ++ version) := by
  intro hmem
  rcases List.mem_append.1 hmem with hmem | hmem
  · rcases hstart with rfl | hstart
    · cases hmem
    · have hlower : '/' ∈ lower start := (mem_lower_iff (by decide)).2 hmem
      rw [hstart] at hlower
      exact absurd hlower (by decide)
  · rcases List.mem_append.1 hmem with hmem | hmem
    · rcases (isWork_chars hwork).2 '/' hmem with hdigit | hdot
      · exact absurd hdigit (by decide)
      · exact absurd hdot (by decide)
    · rcases hversion with rfl | ⟨v, first, digits, rfl, hv, hfirst, -, hdigits⟩
      · cases hmem
      · rcases List.mem_cons.1 hmem with rfl | hmem
        · exact absurd hv (by decide)
        · rcases List.mem_cons.1 hmem with rfl | hmem
          · exact absurd hfirst (by decide)
          · exact absurd (List.all_eq_true.1 hdigits '/' hmem) (by decide)

private theorem not_contains (h : '/' ∉ text) :
    contains schemeSeparator text = false ∧ cortexScheme.isPrefixOf text = false := by
  constructor
  · refine decide_eq_false fun hpart => h (hpart.subset ?_)
    decide
  · rw [Bool.eq_false_iff]
    intro hprefix
    exact h ((List.isPrefixOf_iff_prefix.1 hprefix).subset (by decide))

private theorem names_arxivId {start version : List Char}
    (hstart : start = [] ∨ lower start = arxivPrefix) (hwork : isWork work = true)
    (hversion : IsVersion ['v', 'V'] version)
    (htext : normalizeSourceText unicode value 2000 = some (start ++ (work ++ version)))
    (h : canonicalizeSourceLocator unicode ip value digest = some locator) :
    locator.canonicalId = (.arxiv, work) := by
  obtain ⟨hstrip, -, hlength⟩ := normalizeSourceText_spec htext
  obtain ⟨hcontains, hcortex⟩ := not_contains (slash_not_mem hstart hwork hversion)
  have hmatch := arxivMatch_spelled hstart hwork hversion
  have hsome : (arxivMatch (start ++ (work ++ version))).isSome = true := by
    rw [hmatch, Option.isSome_map]
    refine version_length hversion ?_
    rw [List.length_append, List.length_append] at hlength
    omega
  rw [canonicalizeSourceLocator, htext] at h
  simp only [hcortex, hcontains, hsome, Bool.false_eq_true, if_false, if_true] at h
  split_ifs at h
  obtain ⟨id, hid, rfl⟩ := Option.map_eq_some_iff.1 h
  rw [canonicalizeArxivId] at hid
  split_ifs at hid
  rw [hstrip, hmatch] at hid
  obtain ⟨version', -, rfl⟩ := Option.map_eq_some_iff.1 hid
  rfl

/-! ### DOIs -/

private theorem names_token (htext : normalizeSourceText unicode value 2000 = some text)
    (hnetloc : (splitParts text).netloc = [])
    (hcandidate : contains schemeSeparator text = false → doiCandidate ip text = some token)
    (harxiv : arxivMatch text = none) (hcortex : cortexScheme.isPrefixOf text = false)
    (h : canonicalizeSourceLocator unicode ip value digest = some locator) :
    locator.canonicalId = (.doi, lower token) := by
  obtain ⟨hstrip, -, -⟩ := normalizeSourceText_spec htext
  rw [canonicalizeSourceLocator, htext] at h
  simp only [hcortex, harxiv, Bool.false_eq_true, if_false, Option.isSome_none] at h
  split_ifs at h with hdigest hcontains hform
  · split at h
    · cases h
    · rename_i split hsplit
      have hhost : split.hostname = [] := by
        rw [urlsplit] at hsplit
        split_ifs at hsplit
        rw [← Option.some.inj hsplit]
        exact hostname_of_netloc hnetloc
      rw [hhost, if_neg (by decide), if_neg (by decide)] at h
      cases h
  · obtain ⟨doi, hread, rfl⟩ := Option.map_eq_some_iff.1 h
    obtain ⟨candidate, kind, hfound, -, rfl⟩ := canonicalizeDoi_spec hstrip hread
    rw [hcandidate (Bool.eq_false_iff.2 hcontains)] at hfound
    obtain rfl := Option.some.inj hfound
    rfl

/-! ### All of them -/

private theorem not_cortex_of_https (unicode : UnicodeData) {split : SplitResult}
    (hsplit : urlsplit ip text = some split) (hscheme : split.scheme = "https".toList) :
    parseResourceUri unicode ip text = none := by
  cases hparse : parseResourceUri unicode ip text with
  | none => rfl
  | some segments =>
      obtain ⟨-, split', hsplit', hscheme'⟩ := parseResourceUri_spec hparse
      rw [hsplit] at hsplit'
      obtain rfl := Option.some.inj hsplit'
      rw [hscheme] at hscheme'
      exact absurd hscheme' (by decide)

/-- An accepted spelling of a work has the identity of the work. -/
theorem canonicalId_of_names (hname : Names unicode ip value name)
    (h : canonicalizeSourceLocator unicode ip value digest = some locator) :
    locator.canonicalId = name := by
  obtain ⟨text, htext, hspells⟩ := hname
  obtain ⟨hstrip, -, -⟩ := normalizeSourceText_spec htext
  cases hspells with
  | arxivId hstart hwork hversion => exact names_arxivId hstart hwork hversion htext h
  | arxivPage hcontains hsplit hscheme hhost hpath hview hwork hversion =>
      have hnot := not_cortex_of_https unicode hsplit hscheme
      rw [canonicalizeSourceLocator, htext] at h
      simp only [hcontains, hsplit, hhost, if_true] at h
      split_ifs at h
      · rw [hnot] at h
        cases h
      · rw [canonicalizeLocator] at h
        split_ifs at h
        split at h
        · cases h
        · rename_i split' hplain
          obtain ⟨hsplit', -⟩ := plainUrl_spec hplain
          rw [hsplit] at hsplit'
          obtain rfl := Option.some.inj hsplit'
          split_ifs at h
          obtain ⟨id, hid, rfl⟩ := Option.map_eq_some_iff.1 h
          rw [hpath] at hid
          exact congrArg (Prod.mk Authority.arxiv) (arxivPath_work hview hwork hversion hid)
  | doi hdoi =>
      refine names_token htext (netloc_of_doi hdoi) (fun hcontains => ?_)
        (arxivMatch_isDoi hdoi) ?_ h
      · have hprefix : lower (text.take 4) ≠ doiPrefix := fun heq => by
          obtain ⟨digits, suffix, rfl, -⟩ := isDoi_spec hdoi
          have hhead : some '1' = some 'd' := congrArg List.head? heq
          cases hhead
        rw [doiCandidate, if_neg hprefix, hcontains]
        rfl
      · obtain ⟨digits, suffix, rfl, -⟩ := isDoi_spec hdoi
        rfl
  | @doiPrefixed start token hstart hdoi =>
      have hlength := congrArg List.length hstart
      rw [length_lower, show doiPrefix.length = 4 from rfl] at hlength
      have htake : (start ++ token).take 4 = start := by rw [← hlength, List.take_left]
      have hdrop : (start ++ token).drop 4 = token := by rw [← hlength, List.drop_left]
      have hprefix : lower ((start ++ token).take 4) = doiPrefix := by rw [htake, hstart]
      refine names_token htext (netloc_of_doiPrefix hprefix (by rw [hdrop]; exact hdoi))
        (fun _ => ?_) (arxivMatch_doiPrefix hprefix) ?_ h
      · rw [doiCandidate, if_pos hprefix, hdrop]
      · obtain ⟨d, o, i, rest, heq, hd, -⟩ := doiPrefix_cases hprefix
        rw [heq]
        rcases hd with rfl | rfl <;> rfl
  | doiPage hcontains hsplit hscheme hhost hpath hdoi =>
      have hnot := not_cortex_of_https unicode hsplit hscheme
      have hother : "doi.org".toList ∉ arxivHosts := by decide
      rw [canonicalizeSourceLocator, htext] at h
      simp only [hcontains, hsplit, hhost, hother, if_true, if_false] at h
      split_ifs at h
      · rw [hnot] at h
        cases h
      · obtain ⟨doi, hread, rfl⟩ := Option.map_eq_some_iff.1 h
        obtain ⟨candidate, kind, hfound, -, rfl⟩ := canonicalizeDoi_spec hstrip hread
        rw [doiCandidate_url hsplit (by rw [hscheme]; decide) hcontains,
          Option.bind_eq_some_iff] at hfound
        obtain ⟨split', hplain, hfound⟩ := hfound
        obtain ⟨hsplit', -⟩ := plainUrl_spec hplain
        rw [hsplit] at hsplit'
        obtain rfl := Option.some.inj hsplit'
        split_ifs at hfound
        rw [hpath] at hfound
        obtain rfl := Option.some.inj hfound
        rfl

/-! ## Reading a normalized locator -/

/-- The normalized locator is accepted, with the identity that it came from. -/
def Reread (unicode : UnicodeData) (ip : IpCheck) (locator : CanonicalLocator) : Prop :=
  ∃ again, canonicalizeSourceLocator unicode ip locator.normalizedLocator
      (if locator.authority = .sha256 then some locator.authorityId else none) = some again ∧
    again.canonicalId = locator.canonicalId ∧
    again.normalizedLocator = locator.normalizedLocator

/-- A DOI whose page has more than 1000 characters. -/
def LongDoi (unicode : UnicodeData) (ip : IpCheck) (value : List Char) : Prop :=
  ∃ text candidate, normalizeSourceText unicode value 2000 = some text ∧
    doiCandidate ip text = some candidate ∧ isDoi candidate = true ∧ 984 < candidate.length

/-- A file of the workspace is read as it was. -/
private theorem reread_file {segments : List (List Char)} {identity : List Char}
    (htext : normalizeSourceText unicode value 2000 = some text)
    (hscheme : cortexScheme.isPrefixOf text = true)
    (hparse : parseResourceUri unicode ip text = some segments)
    (hsegments : (segments.all fun segment =>
      (normalizeSourceText unicode segment 1000).isSome) = true)
    (hidentity : isSha256 identity = true) :
    canonicalizeSourceLocator unicode ip text (some (lower identity)) =
      some ⟨.sha256, lower identity, text, .localFile, none⟩ := by
  obtain ⟨-, hne, hlength⟩ := normalizeSourceText_spec htext
  have hprintable := (parseResourceUri_spec hparse).1
  rw [canonicalizeSourceLocator, hprintable.normalize hne hlength]
  simp only [hscheme, hparse, hsegments, isSha256_lower hidentity, lower_lower, if_true]

theorem reread_iff (h : canonicalizeSourceLocator unicode ip value digest = some locator) :
    Reread unicode ip locator ↔ ¬LongDoi unicode ip value := by
  obtain ⟨text, htext, haccepted⟩ := readAs h
  cases haccepted with
  | @arxiv id kind hwork hdoi =>
      refine iff_of_true ⟨_, canonicalize_arxivPage hwork, rfl, rfl⟩ ?_
      rintro ⟨text', candidate, htext', hcandidate, hlong, -⟩
      obtain rfl := Option.some.inj (htext.symm.trans htext')
      rw [hdoi candidate hcandidate] at hlong
      cases hlong
  | @doi candidate kind hcandidate hdoi =>
      have hpage := canonicalize_doiPage unicode ip (isDoi_lower hdoi) (lower_lower candidate)
      rw [length_lower] at hpage
      constructor
      · rintro ⟨again, hagain, -⟩ ⟨text', candidate', htext', hcandidate', -, hlong⟩
        obtain rfl := Option.some.inj (htext.symm.trans htext')
        obtain rfl := Option.some.inj (hcandidate.symm.trans hcandidate')
        rw [if_neg (Nat.not_le.2 hlong)] at hpage
        cases hpage.symm.trans hagain
      · intro hshort
        have hlength : candidate.length ≤ 984 :=
          Nat.le_of_not_lt fun hlong => hshort ⟨text, candidate, htext, hcandidate, hdoi, hlong⟩
        rw [if_pos hlength] at hpage
        exact ⟨_, hpage, rfl, rfl⟩
  | @file segments identity hscheme hparse hsegments hidentity hdoi =>
      refine iff_of_true ⟨_, reread_file htext hscheme hparse hsegments hidentity, rfl, rfl⟩ ?_
      rintro ⟨text', candidate, htext', hcandidate, -⟩
      obtain rfl := Option.some.inj (htext.symm.trans htext')
      rw [hdoi] at hcandidate
      cases hcandidate

/-! ## The identity of a work -/

/-- Of two accepted locators: both are read again as what they are, and they have one identity
exactly if they spell one work.  This is so unless one of them is a long DOI. -/
theorem locator_identity_iff {value value' : List Char} {digest digest' : Option (List Char)}
    {locator locator' : CanonicalLocator}
    (h : canonicalizeSourceLocator unicode ip value digest = some locator)
    (h' : canonicalizeSourceLocator unicode ip value' digest' = some locator') :
    (Reread unicode ip locator ∧ Reread unicode ip locator' ∧
      ∀ name name', Names unicode ip value name → Names unicode ip value' name' →
        (locator.canonicalId = locator'.canonicalId ↔ name = name')) ↔
      ¬LongDoi unicode ip value ∧ ¬LongDoi unicode ip value' := by
  rw [reread_iff h, reread_iff h']
  refine ⟨fun hall => ⟨hall.1, hall.2.1⟩, fun hshort => ⟨hshort.1, hshort.2, ?_⟩⟩
  intro name name' hname hname'
  rw [canonicalId_of_names hname h, canonicalId_of_names hname' h']

/-- Two versions of a paper. -/
theorem locator_identity_iff_versions :
    (Reread asciiData noAddress (arxivLocator ⟨"2301.00001".toList, some 1⟩) ∧
      Reread asciiData noAddress (arxivLocator ⟨"2301.00001".toList, some 2⟩) ∧
      ∀ name name', Names asciiData noAddress "2301.00001v1".toList name →
        Names asciiData noAddress "arXiv:2301.00001v2".toList name' →
        ((arxivLocator ⟨"2301.00001".toList, some 1⟩).canonicalId =
          (arxivLocator ⟨"2301.00001".toList, some 2⟩).canonicalId ↔ name = name')) ↔
      ¬LongDoi asciiData noAddress "2301.00001v1".toList ∧
        ¬LongDoi asciiData noAddress "arXiv:2301.00001v2".toList := by
  have hfirst : canonicalizeSourceLocator asciiData noAddress "2301.00001v1".toList none =
      some (arxivLocator ⟨"2301.00001".toList, some 1⟩) := by decide +kernel
  have hsecond : canonicalizeSourceLocator asciiData noAddress "arXiv:2301.00001v2".toList none =
      some (arxivLocator ⟨"2301.00001".toList, some 2⟩) := by decide +kernel
  exact locator_identity_iff hfirst hsecond

/-- A DOI of 985 characters. -/
def longDoi : List Char := "10.1234/".toList ++ List.replicate 977 'a'

/-- A long DOI is accepted, and its page is not. -/
theorem longDoi_lost :
    ∃ locator, canonicalizeSourceLocator asciiData noAddress longDoi none = some locator ∧
      locator.authority = .doi ∧
      canonicalizeSourceLocator asciiData noAddress locator.normalizedLocator none = none := by
  have hdoi : isDoi longDoi = true := by decide +kernel
  have hlower : lower longDoi = longDoi := by decide +kernel
  have haccepted : canonicalizeSourceLocator asciiData noAddress longDoi none =
      some (doiLocator longDoi .doi) := by decide +kernel
  have hlength : ¬longDoi.length ≤ 984 := by decide +kernel
  refine ⟨_, haccepted, rfl, ?_⟩
  have hpage := canonicalize_doiPage asciiData noAddress hdoi hlower
  rw [if_neg hlength] at hpage
  exact hpage

end Cortex.Sources
