import Cortex.Sources.Shapes

/-!
# Pages and files

The normalized locators, read as locators: the page of a work, the page of a DOI, and the URI
of a file, which has the one spelling that `parse_resource_uri` accepts.
-/

namespace Cortex.Sources

open PyText UrlSplit

variable {unicode : UnicodeData} {ip : IpCheck} {text work token : List Char}

/-! ## Pages -/

/-- The hosts of the normalized pages. -/
def IsPageHost (host : List Char) : Prop := host = "arxiv.org".toList ∨ host = "doi.org".toList

/-- What may stand in the path of a page. -/
structure PagePath (path : List Char) : Prop where
  absolute : path.head? = some '/'
  printable : Printable path
  question : '?' ∉ path
  hash : '#' ∉ path
  percent : '%' ∉ path

def page (host path : List Char) : List Char := "https://".toList ++ (host ++ path)

variable {host path : List Char}

theorem IsPageHost.printable (h : IsPageHost host) : Printable host := by
  apply printable_of_all
  rcases h with rfl | rfl <;> decide

theorem page_printable (hhost : IsPageHost host) (hpath : PagePath path) :
    Printable (page host path) := by
  have hscheme : Printable "https://".toList := printable_of_all (by decide)
  exact hscheme.append (hhost.printable.append hpath.printable)

theorem urlsplit_page (hhost : IsPageHost host) (hpath : PagePath path) :
    urlsplit ip (page host path) = some ⟨"https".toList, host, path, [], []⟩ := by
  have hjoin : page host path = join "https".toList host path [] := by
    rw [join, if_pos rfl, List.append_nil]
    rfl
  have hundelimited : ∀ c ∈ host, isDelimiter c = false := by
    have hall : host.all (fun c => !isDelimiter c) = true := by
      rcases hhost with rfl | rfl <;> decide
    intro c hc
    have hnot := List.all_eq_true.1 hall c hc
    rwa [Bool.not_eq_true'] at hnot
  have hbrackets : bracketsOk ip host = true := by rcases hhost with rfl | rfl <;> rfl
  have hnetloc : ip.checkNetloc host = true :=
    ip.ascii host fun c hc => lt_trans (hhost.printable c hc).2 (by decide)
  have hparts : Parts "https".toList host path [] :=
    { lowerScheme := ⟨rfl, rfl, rfl⟩
      undelimited := hundelimited
      absolute := ⟨hpath.absolute, hpath.question, hpath.hash⟩
      unhashed := List.not_mem_nil
      printable := fun c hc => (page_printable hhost hpath c (hjoin ▸ hc)).1 }
  rw [hjoin, urlsplit_join hparts, if_pos ⟨hbrackets, hnetloc⟩]

theorem anyTail_isEscape (h : '%' ∉ path) : anyTail isEscape path = false := by
  rw [anyTail, List.any_eq_false]
  intro tail htail hescape
  unfold isEscape at hescape
  split at hescape
  · exact h (((List.mem_tails _ _).1 htail).subset (.head _))
  · cases hescape

theorem plainUrl_page (hhost : IsPageHost host) (hpath : PagePath path) :
    plainUrl ip (page host path) = some ⟨"https".toList, host, path, [], []⟩ := by
  have hport : (SplitResult.mk "https".toList host path [] []).port = some none := by
    rcases hhost with rfl | rfl <;> rfl
  have hcredentials : '@' ∉ host := by
    intro hmem
    have hall : host.all (· ≠ '@') = true := by rcases hhost with rfl | rfl <;> decide
    exact of_decide_eq_true (List.all_eq_true.1 hall '@' hmem) rfl
  rw [plainUrl, urlsplit_page hhost hpath]
  simp only [hport, hcredentials, anyTail_isEscape hpath.percent, ne_eq, not_true_eq_false,
    or_self, Bool.false_eq_true, if_false]

theorem hostname_page (hhost : IsPageHost host) :
    (SplitResult.mk "https".toList host path [] []).hostname = host := by
  rcases hhost with rfl | rfl <;> rfl

theorem contains_page : contains schemeSeparator (page host path) = true :=
  decide_eq_true ⟨"https".toList, host ++ path, rfl⟩

theorem not_cortex_page : cortexScheme.isPrefixOf (page host path) = false := rfl

theorem page_ne_nil : page host path ≠ [] :=
  List.append_ne_nil_of_left_ne_nil (by decide) _

theorem length_page : (page host path).length = 8 + (host.length + path.length) := by
  have hlength : ∀ scheme : List Char, scheme.length = 8 →
      (scheme ++ (host ++ path)).length = 8 + (host.length + path.length) := by
    intro scheme hscheme
    rw [List.length_append, List.length_append, hscheme]
  exact hlength _ (by decide)

/-- A page whose path starts so. -/
private theorem append_page {locator scheme view : List Char}
    (h : locator = scheme ++ (host ++ view)) (rest : List Char) :
    locator ++ rest = scheme ++ (host ++ (view ++ rest)) := by
  rw [h, List.append_assoc, List.append_assoc]

/-- A page is read by the parser of its host. -/
theorem canonicalize_page (hhost : IsPageHost host) (hpath : PagePath path)
    (hlength : (page host path).length ≤ 2000) :
    canonicalizeSourceLocator unicode ip (page host path) none =
      if host = "arxiv.org".toList then canonicalizeLocator ip (page host path)
      else (canonicalizeDoi ip (page host path)).map ({ · with claimKind := .url }) := by
  rw [canonicalizeSourceLocator, (page_printable hhost hpath).normalize page_ne_nil hlength]
  simp only [not_cortex_page, contains_page, urlsplit_page hhost hpath, hostname_page hhost,
    Option.isSome_none, Bool.false_eq_true, if_false, if_true]
  rcases hhost with rfl | rfl
  · have hmem : "arxiv.org".toList ∈ arxivHosts := .head _
    rw [if_pos hmem, if_pos rfl]
  · have hnot : "doi.org".toList ∉ arxivHosts := by decide
    have hne : "doi.org".toList ≠ "arxiv.org".toList := by decide
    rw [if_neg hnot, if_pos rfl, if_neg hne]

theorem isWork_length (h : isWork work = true) : work.length ≤ 10 := by
  unfold isWork at h
  split at h
  · simp only [Bool.and_eq_true, Bool.or_eq_true, decide_eq_true_eq] at h
    simp only [List.length_cons]
    omega
  · cases h

private theorem workPath (h : isWork work = true) : PagePath ("/abs/".toList ++ work) := by
  have hview : Printable "/abs/".toList := printable_of_all (by decide)
  have hnot : ∀ c : Char, c ∉ "/abs/".toList → c.isDigit = false → c ≠ '.' →
      c ∉ "/abs/".toList ++ work := by
    intro c hview hdigit hdot hmem
    rcases List.mem_append.1 hmem with hmem | hmem
    · exact hview hmem
    · rcases (isWork_chars h).2 c hmem with hc | hc
      · rw [hdigit] at hc
        cases hc
      · exact hdot hc
  exact ⟨rfl, hview.append (isWork_printable h), hnot '?' (by decide) (by decide) (by decide),
    hnot '#' (by decide) (by decide) (by decide), hnot '%' (by decide) (by decide) (by decide)⟩

/-- The page of a work names the work. -/
theorem canonicalize_arxivPage (h : isWork work = true) :
    canonicalizeSourceLocator unicode ip ("https://arxiv.org/abs/".toList ++ work) none =
      some { arxivLocator ⟨work, none⟩ with claimKind := .url } := by
  have hpage : "https://arxiv.org/abs/".toList ++ work =
      page "arxiv.org".toList ("/abs/".toList ++ work) :=
    append_page (show "https://arxiv.org/abs/".toList =
      "https://".toList ++ ("arxiv.org".toList ++ "/abs/".toList) by decide) work
  have hhost : IsPageHost "arxiv.org".toList := .inl rfl
  have hlength : (page "arxiv.org".toList ("/abs/".toList ++ work)).length ≤ 2000 := by
    have hwork := isWork_length h
    have hhost : "arxiv.org".toList.length = 9 := by decide
    have hview : ("/abs/".toList ++ work).length = 5 + work.length := List.length_append
    rw [length_page]
    omega
  have hread := arxivWork_work h
  have hpath : arxivPath ("/abs/".toList ++ work) = some ⟨work, none⟩ := by
    have htake : ("/abs/".toList ++ work).take 5 = "/abs/".toList := rfl
    have hdrop : ("/abs/".toList ++ work).drop 5 = work := rfl
    rw [arxivPath, htake, hdrop, hread]
    rfl
  have hascii := (page_printable hhost (workPath h)).isAscii
  have hmem : "arxiv.org".toList ∈ arxivHosts := .head _
  rw [hpage, canonicalize_page hhost (workPath h) hlength, if_pos rfl, canonicalizeLocator,
    if_neg (by simp only [page_ne_nil, hascii, Nat.not_lt.2 hlength, not_true_eq_false, or_self,
      not_false_eq_true]), plainUrl_page hhost (workPath h)]
  simp only [hostname_page hhost, hmem, if_true, hpath, Option.map_some]

private theorem doiPath (h : isDoi token = true) : PagePath ('/' :: token) := by
  have hslash : Printable ['/'] := printable_of_all (by decide)
  have hnot : ∀ c : Char, c ≠ '/' → isDoiChar c = false → c ∉ '/' :: token := by
    intro c hslash hdoi hmem
    rcases List.mem_cons.1 hmem with hmem | hmem
    · exact hslash hmem
    · rw [isDoi_chars h c hmem] at hdoi
      cases hdoi
  exact ⟨rfl, hslash.append (isDoi_printable h), hnot '?' (by decide) (by decide),
    hnot '#' (by decide) (by decide), hnot '%' (by decide) (by decide)⟩

/-- The page of a DOI names the DOI, unless it is too long. -/
theorem canonicalize_doiPage (unicode : UnicodeData) (ip : IpCheck) (h : isDoi token = true)
    (hlower : lower token = token) :
    canonicalizeSourceLocator unicode ip ("https://doi.org/".toList ++ token) none =
      if token.length ≤ 984 then some (doiLocator token .url) else none := by
  have hpage : "https://doi.org/".toList ++ token = page "doi.org".toList ('/' :: token) :=
    append_page (show "https://doi.org/".toList =
      "https://".toList ++ ("doi.org".toList ++ ['/']) by decide) token
  have hhost : IsPageHost "doi.org".toList := .inr rfl
  have hlength : (page "doi.org".toList ('/' :: token)).length = token.length + 16 := by
    have hhost : "doi.org".toList.length = 7 := by decide
    rw [length_page, List.length_cons]
    omega
  have hprintable := page_printable hhost (doiPath h)
  have hdoi : canonicalizeDoi ip (page "doi.org".toList ('/' :: token)) =
      if token.length ≤ 984 then some (doiLocator token .url) else none := by
    by_cases hlong : token.length ≤ 984
    · have hprefix : lower ((page "doi.org".toList ('/' :: token)).take 4) ≠ doiPrefix := by
        intro heq
        have hhead : some 'h' = some 'd' := congrArg List.head? heq
        cases hhead
      have hcandidate : doiCandidate ip (page "doi.org".toList ('/' :: token)) = some token := by
        rw [doiCandidate, if_neg hprefix, if_pos contains_page, plainUrl_page hhost (doiPath h)]
        simp only [hostname_page hhost, List.head?_cons, and_self, if_true, List.drop_succ_cons,
          List.drop_zero]
      have hshort : ¬1000 < (page "doi.org".toList ('/' :: token)).length := by omega
      rw [if_pos hlong, canonicalizeDoi, if_neg (by simp only [page_ne_nil, hshort,
        hprintable.isAscii, not_true_eq_false, or_self, not_false_eq_true]), hprintable.strip,
        hcandidate]
      simp only [h, if_true, hlower, contains_page]
    · have hbad : 1000 < (page "doi.org".toList ('/' :: token)).length := by omega
      rw [if_neg hlong, canonicalizeDoi, if_pos (.inr (.inl hbad))]
  rw [hpage]
  by_cases hshort : (page "doi.org".toList ('/' :: token)).length ≤ 2000
  · rw [canonicalize_page hhost (doiPath h) hshort, if_neg (by decide), hdoi]
    split
    · rfl
    · rfl
  · rw [if_neg (by omega), canonicalizeSourceLocator, hprintable.normalize_long hshort]

/-! ## Files -/

private theorem hexDigit_printable {n : ℕ} (hn : n < 16) :
    32 < (hexDigit n).toNat ∧ (hexDigit n).toNat < 127 := by
  have hall : ∀ n < 16, 32 < (hexDigit n).toNat ∧ (hexDigit n).toNat < 127 := by decide
  exact hall n hn

theorem quoteByte_printable (byte : UInt8) : Printable (quoteByte byte) := by
  unfold quoteByte
  split
  · rename_i hkept
    intro c hc
    rw [List.mem_singleton.1 hc]
    have heq : ∀ d : Char, Char.ofNat byte.toNat = d ↔ (Char.ofNat byte.toNat).toNat = d.toNat :=
      fun d => Char.toNat_inj.symm
    simp only [isUnreserved, Bool.and_eq_true, Bool.or_eq_true, decide_eq_true_eq, isAlphanum_iff,
      heq] at hkept
    have hmarks : '-'.toNat = 45 ∧ '.'.toNat = 46 ∧ '_'.toNat = 95 ∧ '~'.toNat = 126 := by decide
    omega
  · have hlt := byte.toNat_lt
    intro c hc
    simp only [List.mem_cons, List.not_mem_nil, or_false] at hc
    rcases hc with rfl | rfl | rfl
    · decide
    · exact hexDigit_printable (by omega)
    · exact hexDigit_printable (Nat.mod_lt _ (by decide))

theorem isRoot_printable (h : isRoot text = true) : Printable text := by
  unfold isRoot at h
  split at h
  · rename_i first rest
    have hlower : ∀ c : Char, c.isLower = true → 32 < c.toNat ∧ c.toNat < 127 := by
      intro c hc
      have halpha : c.isAlpha = true := by
        show (c.isUpper || c.isLower) = true
        rw [hc, Bool.or_true]
      have hbounds := isAlpha_iff.1 halpha
      omega
    simp only [Bool.and_eq_true, Bool.or_eq_true, decide_eq_true_eq, List.all_eq_true] at h
    intro c hc
    rcases List.mem_cons.1 hc with rfl | hc
    · exact hlower c h.1.1
    · rcases h.2 c hc with (hletter | hdigit) | rfl
      · exact hlower c hletter
      · have hbounds := isDigit_iff.1 hdigit
        omega
      · decide
  · cases h

/-- The URI of a file, as it is accepted. -/
theorem parseResourceUri_spec {segments : List (List Char)}
    (h : parseResourceUri unicode ip text = some segments) :
    Printable text ∧ ∃ split, urlsplit ip text = some split ∧ split.scheme = "cortex".toList := by
  simp only [parseResourceUri] at h
  split_ifs at h with hform
  simp only [not_or, Decidable.not_not] at hform
  obtain ⟨-, -, -, hroot⟩ := hform
  split at h
  · cases h
  · rename_i split hsplit
    split_ifs at h with hparts hsegments
    simp only [not_or, Decidable.not_not] at hparts
    split at h
    · cases h
    · rename_i decoded hdecoded
      split_ifs at h with htext
      refine ⟨?_, split, hsplit, hparts.1⟩
      rw [htext]
      have hscheme : Printable cortexScheme := printable_of_all (by decide)
      have hquoted : Printable (decoded.flatMap fun segment => '/' :: quote segment) := by
        intro c hc
        obtain ⟨segment, -, hc⟩ := List.mem_flatMap.1 hc
        rcases List.mem_cons.1 hc with rfl | hc
        · decide
        · obtain ⟨byte, -, hc⟩ := List.mem_flatMap.1 hc
          exact quoteByte_printable byte c hc
      exact (hscheme.append (isRoot_printable hroot)).append hquoted

theorem isSha256_lower {digest : List Char} (h : isSha256 digest = true) :
    isSha256 (lower digest) = true := by
  rw [isSha256, Bool.and_eq_true, decide_eq_true_eq, List.all_eq_true] at h ⊢
  refine ⟨(length_lower digest).trans h.1, fun c hc => ?_⟩
  obtain ⟨d, hd, rfl⟩ := List.mem_map.1 hc
  rw [isHex_toLower]
  exact h.2 d hd

end Cortex.Sources
