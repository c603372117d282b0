import Cortex.Library.Decimal
import Cortex.Library.UrlSplit

/-!
# Blog URLs

`normalize_url`, the identity of a blog page: the scheme and the host in lower case,
without the default port and the fragment, an absent path as `/`.

The normal form may be one character longer than what was given, and it has no
brackets around the address of a future version without a colon.  These are the
two ways in which it is not a URL that is accepted again.
-/

namespace Cortex.Sources

open PyText UrlSplit

/-- `_URL_DEFAULT_PORTS`. -/
def urlDefaultPort (scheme : List Char) : Option ℕ :=
  if scheme = "http".toList then some 80
  else if scheme = "https".toList then some 443
  else none

/-- `_URL_CHARACTERS_RE`. -/
def urlCharacters (value : List Char) : Bool :=
  (value.all fun c => 0x21 ≤ c.toNat ∧ c.toNat ≤ 0x7E) ∧ 1 ≤ value.length ∧ value.length ≤ 2000

def bracketed (host : List Char) : List Char :=
  if ':' ∈ host then '[' :: (host ++ [']']) else host

def portSuffix (default : ℕ) : Option ℕ → List Char
  | some port => if port ≠ default then ':' :: Nat.toDigits 10 port else []
  | none => []

/-- The path of a page; an absent one is the root. -/
def pagePath (path : List Char) : List Char := if path = [] then ['/'] else path

/-- `normalize_url`; nothing where it raises. -/
def normalizeUrl (ip : IpCheck) (value : List Char) : Option (List Char) :=
  let value := strip value
  if urlCharacters value then
    (urlsplit ip value).bind fun split =>
    split.port.bind fun port =>
    (urlDefaultPort (lower split.scheme)).bind fun default =>
      let host := lower split.hostname
      if '@' ∈ split.netloc ∨ host = [] ∨ '%' ∈ host then none
      else some (join (lower split.scheme) (bracketed host ++ portSuffix default port)
        (pagePath split.path) split.query)
  else none

variable {ip : IpCheck} {value url : List Char}

/-- The parts of a value. -/
def urlParts (value : List Char) : SplitResult := splitParts (strip value)

def host (value : List Char) : List Char := lower (urlParts value).hostname

/-- The port that is asked. -/
def effectivePort (value : List Char) : Option ℕ :=
  (urlParts value).port.bind fun port => port.or (urlDefaultPort (urlParts value).scheme)

/-- Two values that name one page. -/
structure SamePage (value other : List Char) : Prop where
  scheme : (urlParts value).scheme = (urlParts other).scheme
  host : host value = host other
  port : effectivePort value = effectivePort other
  path : pagePath (urlParts value).path = pagePath (urlParts other).path
  query : (urlParts value).query = (urlParts other).query

/-- The port is written as it is normalized. -/
def PortKept (split : SplitResult) : Prop :=
  split.netloc.getLast? ≠ some ':' ∧
    ∀ port, split.port = some (some port) →
      urlDefaultPort split.scheme ≠ some port ∧
        ((hostinfo split.netloc).2.head? = some '0' → (hostinfo split.netloc).2.length = 1)

/-- A value of 2000 characters, of which nothing is dropped, without a path. -/
structure Overfull (value : List Char) : Prop where
  length : (strip value).length = 2000
  path : (urlParts value).path = []
  unhashed : '#' ∉ strip value
  query : (urlParts value).query = [] → '?' ∉ strip value
  port : PortKept (urlParts value)
  brackets : '[' ∈ (urlParts value).netloc → ':' ∈ host value

/-- An address of a future version with a bracket in it, and no colon. -/
def BareBracket (value : List Char) : Prop := '[' ∈ host value ∧ ':' ∉ host value

/-! ## What is accepted -/

/-- An accepted value and its normal form. -/
structure Accepted (ip : IpCheck) (value url : List Char) (default : ℕ) (port : Option ℕ) :
    Prop where
  printable : ∀ c ∈ strip value, 0x21 ≤ c.toNat ∧ c.toNat ≤ 0x7E
  length : 1 ≤ (strip value).length ∧ (strip value).length ≤ 2000
  brackets : bracketsOk ip (urlParts value).netloc = true
  netloc : ip.checkNetloc (urlParts value).netloc = true
  parsed : (urlParts value).port = some port
  scheme : urlDefaultPort (lower (urlParts value).scheme) = some default
  credentials : '@' ∉ (urlParts value).netloc
  nonempty : host value ≠ []
  zone : '%' ∉ host value
  url : url = join (lower (urlParts value).scheme) (bracketed (host value) ++
    portSuffix default port) (pagePath (urlParts value).path) (urlParts value).query

theorem normalizeUrl_eq_some_iff :
    normalizeUrl ip value = some url ↔ ∃ default port, Accepted ip value url default port := by
  rw [normalizeUrl]
  constructor
  · intro h
    split_ifs at h with hchars
    obtain ⟨split, hsplit, h⟩ := Option.bind_eq_some_iff.1 h
    obtain ⟨port, hport, h⟩ := Option.bind_eq_some_iff.1 h
    obtain ⟨default, hdefault, h⟩ := Option.bind_eq_some_iff.1 h
    rw [urlsplit] at hsplit
    split_ifs at hsplit with hbrackets
    obtain rfl := Option.some.inj hsplit
    dsimp only at h
    split_ifs at h with hbad
    rw [not_or, not_or] at hbad
    simp only [urlCharacters, List.all_eq_true, decide_eq_true_eq] at hchars
    exact ⟨default, port, hchars.1, hchars.2, hbrackets.1, hbrackets.2, hport, hdefault, hbad.1, hbad.2.1,
      hbad.2.2, (Option.some.inj h).symm⟩
  · rintro ⟨default, port, h⟩
    have hchars : urlCharacters (strip value) = true := by
      simpa only [urlCharacters, List.all_eq_true, decide_eq_true_eq] using
        ⟨h.printable, h.length⟩
    have hsplit : urlsplit ip (strip value) = some (urlParts value) :=
      if_pos ⟨h.brackets, h.netloc⟩
    have hgood : ¬('@' ∈ (urlParts value).netloc ∨ lower (urlParts value).hostname = [] ∨
        '%' ∈ lower (urlParts value).hostname) := by
      rw [not_or, not_or]
      exact ⟨h.credentials, h.nonempty, h.zone⟩
    simp only [if_pos hchars, hsplit, Option.bind_some, h.parsed, h.scheme]
    rw [if_neg hgood, h.url, Sources.host]

theorem urlDefaultPort_eq_some {scheme : List Char} {default : ℕ}
    (h : urlDefaultPort scheme = some default) :
    scheme = "http".toList ∨ scheme = "https".toList := by
  rw [urlDefaultPort] at h
  split_ifs at h with hhttp hhttps
  · exact .inl hhttp
  · exact .inr hhttps

/-- Both schemes are in lower case. -/
theorem isLower_scheme {scheme : List Char} {default : ℕ}
    (h : urlDefaultPort scheme = some default) : ∀ c ∈ scheme, c.isLower = true := by
  have hall : scheme.all Char.isLower = true := by
    obtain hscheme | hscheme := urlDefaultPort_eq_some h <;> rw [hscheme] <;> decide
  exact List.all_eq_true.1 hall

namespace Accepted

variable {default : ℕ} {port : Option ℕ} (h : Accepted ip value url default port)
include h

theorem scheme_ne_nil : (urlParts value).scheme ≠ [] := by
  intro hnil
  have hdefault := h.scheme
  rw [hnil] at hdefault
  obtain hscheme | hscheme := urlDefaultPort_eq_some hdefault <;> exact absurd hscheme (by decide)

theorem netloc_ne_nil : (urlParts value).netloc ≠ [] := by
  intro hnil
  refine h.nonempty ?_
  simp only [host, SplitResult.hostname, hnil]
  decide

theorem parted : Parted (strip value) (urlParts value) :=
  parted_splitParts (fun c hc => Nat.lt_of_lt_of_le (by decide) (h.printable c hc).1)
    h.netloc_ne_nil h.scheme_ne_nil

theorem lower_scheme : lower (urlParts value).scheme = (urlParts value).scheme := by
  obtain ⟨scheme, query, fragment, hscheme, -⟩ := h.parted.eq
  rw [← hscheme, lower_lower]

theorem hosted : Hosted ip (urlParts value).netloc (hostinfo (urlParts value).netloc).1
    (hostinfo (urlParts value).netloc).2 :=
  hosted_hostinfo h.brackets h.credentials

/-- There is no zone, so the whole host is in lower case. -/
theorem host_eq : host value = lower (hostinfo (urlParts value).netloc).1 := by
  have hzone : '%' ∉ (urlParts value).hostname := fun hmem =>
    h.zone ((mem_lower_iff (by decide)).2 hmem)
  have hnone : '%' ∉ (hostinfo (urlParts value).netloc).1 := by
    intro hmem
    refine hzone (List.mem_append_right _ ?_)
    obtain ⟨before, after, heq, hbefore⟩ := List.eq_append_cons_of_mem hmem
    have hall : ∀ c ∈ before, decide (c ≠ '%') = true :=
      fun c hc => decide_eq_true fun hc' => hbefore (hc' ▸ hc)
    rw [heq, List.dropWhile_append_of_pos hall]
    simp
  have hall : ∀ c ∈ (hostinfo (urlParts value).netloc).1, decide (c ≠ '%') = true :=
    fun c hc => decide_eq_true fun hc' => hnone (hc' ▸ hc)
  rw [host, SplitResult.hostname, cut_of_not_mem hnone, List.dropWhile_eq_nil_iff.2 hall,
    List.append_nil, lower_lower]

end Accepted

/-! ## The normal form -/

private theorem printable_of_isDigit {c : Char} (hc : c.isDigit = true) :
    0x21 ≤ c.toNat ∧ c.toNat ≤ 0x7E := by
  have hbounds := isDigit_iff.1 hc
  omega

private theorem printable_of_isLower {c : Char} (hc : c.isLower = true) :
    0x21 ≤ c.toNat ∧ c.toNat ≤ 0x7E := by
  have halpha : c.isAlpha = true := by
    show (c.isUpper || c.isLower) = true
    rw [hc, Bool.or_true]
  have hbounds := isAlpha_iff.1 halpha
  omega

theorem mem_portSuffix {default : ℕ} {port : Option ℕ} {c : Char}
    (h : c ∈ portSuffix default port) : c = ':' ∨ c.isDigit = true := by
  unfold portSuffix at h
  split at h
  · split_ifs at h
    · exact (List.mem_cons.1 h).imp_right (Nat.isDigit_of_mem_toDigits (by decide) (by decide))
    · cases h
  · cases h

theorem separated_portSuffix (default : ℕ) (port : Option ℕ) :
    Separated (portSuffix default port) ((portSuffix default port).drop 1) := by
  unfold portSuffix
  split
  · split_ifs
    · exact .inr rfl
    · exact .inl ⟨rfl, rfl⟩
  · exact .inl ⟨rfl, rfl⟩

private theorem not_mem_portSuffix {default : ℕ} {port : Option ℕ} {c : Char} (hcolon : c ≠ ':')
    (hdigit : c.isDigit = false) : c ∉ portSuffix default port := by
  intro h
  obtain rfl | h := mem_portSuffix h
  · exact hcolon rfl
  · rw [h] at hdigit
    cases hdigit

namespace Accepted

variable {default : ℕ} {port : Option ℕ} (h : Accepted ip value url default port)
include h

theorem close_not_mem : ']' ∉ host value := by
  rw [h.host_eq, mem_lower_iff (by decide)]
  exact h.hosted.close

/-- The authority of the normal form, unless its host would be read as a bracket. -/
theorem hosted_authority (hbracket : ¬BareBracket value) :
    Hosted ip (bracketed (host value) ++ portSuffix default port) (host value)
      ((portSuffix default port).drop 1) := by
  have hseparated := separated_portSuffix default port
  rw [bracketed]
  split_ifs with hcolon
  · have hcheck : checkBracketedHost ip (host value) = true := by
      rw [h.host_eq]
      refine checkBracketedHost_lower (h.hosted.check ?_)
      rwa [h.host_eq, mem_lower_iff (by decide)] at hcolon
    rw [List.cons_append, List.append_assoc, List.singleton_append]
    exact Hosted.bracketed hseparated h.close_not_mem hcheck
  · refine Hosted.bare hseparated hcolon ?_ ?_
    · rw [List.mem_append, not_or]
      exact ⟨fun hopen => hbracket ⟨hopen, hcolon⟩, not_mem_portSuffix (by decide) (by decide)⟩
    · rw [List.mem_append, not_or]
      exact ⟨h.close_not_mem, not_mem_portSuffix (by decide) (by decide)⟩

theorem mem_authority {c : Char} (hc : c ∈ bracketed (host value) ++ portSuffix default port) :
    (∃ d ∈ (urlParts value).netloc, d.toLower = c) ∨ c = '[' ∨ c = ']' ∨ c = ':' ∨
      c.isDigit = true := by
  rcases List.mem_append.1 hc with hc | hc
  · have hmem : c ∈ host value ∨ c = '[' ∨ c = ']' := by
      rw [bracketed] at hc
      split_ifs at hc
      · simpa [or_assoc, or_left_comm, or_comm] using hc
      · exact .inl hc
    rcases hmem with hmem | hbracket | hbracket
    · rw [h.host_eq] at hmem
      obtain ⟨d, hd, hlower⟩ := List.mem_map.1 hmem
      exact .inl ⟨d, h.hosted.subset d hd, hlower⟩
    · exact .inr (.inl hbracket)
    · exact .inr (.inr (.inl hbracket))
  · exact .inr (.inr (.inr (mem_portSuffix hc)))

theorem authority_credentials : '@' ∉ bracketed (host value) ++ portSuffix default port := by
  intro hmem
  rcases h.mem_authority hmem with ⟨d, hd, hlower⟩ | hother
  · exact h.credentials ((mem_lower_iff (by decide)).1 (List.mem_map.2 ⟨d, hd, hlower⟩))
  · exact absurd hother (by decide)

private theorem mem_value {c : Char} (hc : c ∈ (urlParts value).netloc ∨
    c ∈ (urlParts value).path ∨ c ∈ (urlParts value).query) : c ∈ strip value := by
  obtain ⟨scheme, query, fragment, -, heq, hquery, -⟩ := h.parted.eq
  have hsubset : c ∈ (urlParts value).query → c ∈ query := by
    obtain ⟨-, hnil⟩ | rfl := hquery
    · rw [hnil]
      exact fun hc => absurd hc List.not_mem_nil
    · exact List.mem_cons_of_mem _
  rw [heq]
  simp only [List.mem_append, List.mem_cons]
  rcases hc with hc | hc | hc
  · exact .inr (.inr (.inr (.inr (.inl hc))))
  · exact .inr (.inr (.inr (.inr (.inr (.inl hc)))))
  · exact .inr (.inr (.inr (.inr (.inr (.inr (.inl (hsubset hc)))))))

theorem printable_authority {c : Char}
    (hc : c ∈ bracketed (host value) ++ portSuffix default port) :
    0x21 ≤ c.toNat ∧ c.toNat ≤ 0x7E := by
  rcases h.mem_authority hc with ⟨d, hd, rfl⟩ | rfl | rfl | rfl | hdigit
  · have hprintable := h.printable d (h.mem_value (.inl hd))
    rw [toNat_toLower]
    split_ifs <;> omega
  · decide
  · decide
  · decide
  · exact printable_of_isDigit hdigit

theorem printable_url : ∀ c ∈ url, 0x21 ≤ c.toNat ∧ c.toNat ≤ 0x7E := by
  intro c hc
  rw [h.url, join, List.mem_append, h.lower_scheme] at hc
  rcases hc with hc | hc
  · have hdefault := h.scheme
    rw [h.lower_scheme] at hdefault
    exact printable_of_isLower (isLower_scheme hdefault c hc)
  · rw [List.mem_cons, List.mem_cons, List.mem_cons, List.mem_append] at hc
    rcases hc with rfl | rfl | rfl | hc | hc
    · decide
    · decide
    · decide
    · exact h.printable_authority hc
    rcases List.mem_append.1 hc with hc | hc
    · rw [pagePath] at hc
      split_ifs at hc
      · obtain rfl := List.mem_singleton.1 hc
        decide
      · exact h.printable c (h.mem_value (.inr (.inl hc)))
    · split_ifs at hc
      · cases hc
      · rcases List.mem_cons.1 hc with rfl | hc
        · decide
        · exact h.printable c (h.mem_value (.inr (.inr hc)))

theorem parts : Parts (urlParts value).scheme (bracketed (host value) ++ portSuffix default port)
    (pagePath (urlParts value).path) (urlParts value).query where
  lowerScheme := by
    have hdefault := h.scheme
    rw [h.lower_scheme] at hdefault
    obtain hscheme | hscheme := urlDefaultPort_eq_some hdefault <;> rw [hscheme] <;> decide
  undelimited := by
    intro c hc
    rcases h.mem_authority hc with ⟨d, hd, rfl⟩ | rfl | rfl | rfl | hdigit
    · have hnone := h.parted.undelimited d hd
      by_contra hdelimiter
      simp only [isDelimiter, Bool.not_eq_false, Bool.or_eq_true, decide_eq_true_eq] at hdelimiter
      have hmem : d.toLower ∈ lower (urlParts value).netloc := List.mem_map.2 ⟨d, hd, rfl⟩
      rcases hdelimiter with (heq | heq) | heq <;> rw [heq, mem_lower_iff (by decide)] at hmem <;>
        exact absurd (h.parted.undelimited _ hmem) (by decide)
    · decide
    · decide
    · decide
    · by_contra hdelimiter
      simp only [isDelimiter, Bool.not_eq_false, Bool.or_eq_true, decide_eq_true_eq] at hdelimiter
      rcases hdelimiter with (rfl | rfl) | rfl <;> exact absurd hdigit (by decide)
  absolute := by
    rw [pagePath]
    split_ifs with hpath
    · decide
    · exact ⟨h.parted.path.resolve_left hpath, h.parted.unquestioned, h.parted.pathUnhashed⟩
  unhashed := h.parted.queryUnhashed
  printable := by
    have hurl := h.printable_url
    rw [h.url, h.lower_scheme] at hurl
    exact fun c hc => Nat.lt_of_lt_of_le (by decide) (hurl c hc).1

theorem strip_url : strip url = url := by
  refine strip_eq_self fun c hc => ?_
  have hprintable := h.printable_url c hc
  rw [isSpace, decide_eq_false_iff_not]
  omega

/-- The normal form is split into its parts. -/
theorem urlParts_url : urlParts url = ⟨(urlParts value).scheme,
    bracketed (host value) ++ portSuffix default port, pagePath (urlParts value).path,
    (urlParts value).query, []⟩ := by
  rw [urlParts, h.strip_url, h.url, h.lower_scheme, splitParts_join h.parts]

/-- The port of an accepted value, from its text. -/
theorem port_cases : (port = none ∧ (hostinfo (urlParts value).netloc).2 = []) ∨
    ∃ number, port = some number ∧ number ≤ 65535 ∧ (hostinfo (urlParts value).netloc).2 ≠ [] ∧
      (hostinfo (urlParts value).netloc).2.all Char.isDigit = true ∧
      number = Nat.ofDigitChars 10 (hostinfo (urlParts value).netloc).2 0 := by
  have hparsed := h.parsed
  rw [SplitResult.port_eq rfl] at hparsed
  split_ifs at hparsed with hnil hdigits
  · exact .inl ⟨(Option.some.inj hparsed).symm, hnil⟩
  · exact .inr ⟨_, (Option.some.inj hparsed).symm, hdigits.2, hnil, hdigits.1, rfl⟩

theorem effectivePort_eq : effectivePort value = port.or (some default) := by
  have hscheme := h.scheme
  rw [h.lower_scheme] at hscheme
  rw [effectivePort, h.parsed, Option.bind_some, hscheme]

/-- The normal form is accepted, and it is its own. -/
theorem again (hlength : url.length ≤ 2000) (hbracket : ¬BareBracket value) :
    ∃ again, Accepted ip url url default again := by
  have hhosted := h.hosted_authority hbracket
  have hinfo := hhosted.hostinfo h.authority_credentials
  have hscheme := h.scheme
  rw [h.lower_scheme] at hscheme
  have hhostname : (urlParts url).hostname = host value := by
    have hlower : lower (host value) = host value := by rw [host, lower_lower]
    have hall : ∀ c ∈ host value, decide (c ≠ '%') = true :=
      fun c hc => decide_eq_true fun hc' => h.zone (hc' ▸ hc)
    rw [SplitResult.hostname, h.urlParts_url]
    simp only [hinfo]
    rw [cut_of_not_mem h.zone, List.dropWhile_eq_nil_iff.2 hall, List.append_nil, hlower]
  have hhost : host url = host value := by rw [host, hhostname, host, lower_lower]
  obtain ⟨again, hagain, hsuffix⟩ : ∃ again, (urlParts url).port = some again ∧
      portSuffix default again = portSuffix default port := by
    rw [SplitResult.port_eq (show (hostinfo (urlParts url).netloc).2 =
      (portSuffix default port).drop 1 by rw [h.urlParts_url, hinfo])]
    obtain ⟨rfl, -⟩ | ⟨number, rfl, hmax, -⟩ := h.port_cases
    · exact ⟨none, rfl, rfl⟩
    · by_cases hdefault : number = default
      · have hnil : portSuffix default (some number) = [] := if_neg (not_not.2 hdefault)
        rw [hnil]
        exact ⟨none, rfl, rfl⟩
      · have hdigits : portSuffix default (some number) = ':' :: Nat.toDigits 10 number :=
          if_pos hdefault
        have hall : (Nat.toDigits 10 number).all Char.isDigit = true :=
          List.all_eq_true.2 fun c => Nat.isDigit_of_mem_toDigits (by decide) (by decide)
        rw [hdigits, List.drop_one, List.tail_cons, if_neg Nat.toDigits_ne_nil,
          Nat.ofDigitChars_ten_toDigits, if_pos ⟨hall, hmax⟩]
        exact ⟨some number, rfl, hdigits⟩
  have hpath : pagePath (pagePath (urlParts value).path) = pagePath (urlParts value).path := by
    have hne : pagePath (urlParts value).path ≠ [] := by
      rw [pagePath]
      split_ifs with hpath
      · exact List.cons_ne_nil _ _
      · exact hpath
    exact if_neg hne
  refine ⟨again, ?_, ?_, ?_, ?_, hagain, ?_, ?_, ?_, ?_, ?_⟩
  · rw [h.strip_url]
    exact h.printable_url
  · rw [h.strip_url]
    refine ⟨?_, hlength⟩
    rw [h.url, join, List.length_append, List.length_cons]
    omega
  · rw [h.urlParts_url]
    exact hhosted.bracketsOk h.authority_credentials
  · rw [h.urlParts_url]
    exact ip.ascii _ fun c hc => Nat.lt_of_le_of_lt (h.printable_authority hc).2 (by decide)
  · rw [h.urlParts_url, h.lower_scheme]
    exact hscheme
  · rw [h.urlParts_url]
    exact h.authority_credentials
  · rw [hhost]
    exact h.nonempty
  · rw [hhost]
    exact h.zone
  · rw [hhost, hsuffix, h.urlParts_url, hpath, h.url]

end Accepted

/-! ## One normal form for one page -/

private theorem portSuffix_or (default : ℕ) (port : Option ℕ) :
    portSuffix default port = portSuffix default (port.or (some default)) := by
  cases port with
  | none => exact (if_neg (not_not.2 rfl)).symm
  | some number => rfl

private theorem portSuffix_inj {default : ℕ} {port other : Option ℕ}
    (h : portSuffix default port = portSuffix default other) :
    port.or (some default) = other.or (some default) := by
  have hnone : ∀ {other : Option ℕ}, portSuffix default other = [] →
      other.or (some default) = some default := by
    intro other hnil
    cases other with
    | none => rfl
    | some number =>
        rw [portSuffix] at hnil
        split_ifs at hnil with hdefault
        exact congrArg some (not_not.1 hdefault)
  by_cases hnil : portSuffix default port = []
  · rw [hnone hnil, hnone (h ▸ hnil)]
  · have hsome : ∀ {other : Option ℕ}, portSuffix default other ≠ [] →
        ∃ number, other = some number ∧
          portSuffix default other = ':' :: Nat.toDigits 10 number := by
      intro other hne
      cases other with
      | none => exact absurd rfl hne
      | some number =>
          rw [portSuffix] at hne ⊢
          split_ifs at hne ⊢
          · exact ⟨number, rfl, rfl⟩
          · exact absurd rfl hne
    obtain ⟨number, rfl, hport⟩ := hsome hnil
    obtain ⟨number', rfl, hother⟩ := hsome (h ▸ hnil)
    rw [hport, hother] at h
    have hdigits := congrArg (fun text => Nat.ofDigitChars 10 text 0) (List.cons.inj h).2
    simp only [Nat.ofDigitChars_ten_toDigits] at hdigits
    rw [hdigits]

private theorem authority_inj {host host' suffix suffix' text text' : List Char}
    (hsuffix : Separated suffix text) (hsuffix' : Separated suffix' text')
    (hclose : ']' ∉ host) (hclose' : ']' ∉ host') (hnone : ']' ∉ suffix) (hnone' : ']' ∉ suffix')
    (h : bracketed host ++ suffix = bracketed host' ++ suffix') :
    host = host' ∧ suffix = suffix' := by
  -- only a host with a colon has a bracket behind it
  have hmem : ∀ {host suffix : List Char}, ']' ∉ host → ']' ∉ suffix →
      (']' ∈ bracketed host ++ suffix ↔ ':' ∈ host) := by
    intro host suffix hclose hnone
    rw [List.mem_append, bracketed]
    split_ifs with hcolon
    · simp [hcolon]
    · simp [hcolon, hclose, hnone]
  have hiff : ':' ∈ host ↔ ':' ∈ host' := by rw [← hmem hclose hnone, h, hmem hclose' hnone']
  by_cases hcolon : ':' ∈ host
  · rw [bracketed, if_pos hcolon, bracketed, if_pos (hiff.1 hcolon)] at h
    simp only [List.cons_append, List.append_assoc, List.nil_append, List.cons.injEq,
      true_and] at h
    have hcut := congrArg (cut ']') h
    rw [cut_append hclose, cut_append hclose'] at hcut
    exact ⟨congrArg Prod.fst hcut, congrArg Prod.snd hcut⟩
  · rw [bracketed, if_neg hcolon, bracketed, if_neg (mt hiff.2 hcolon)] at h
    have hcut := congrArg (cut ':') h
    rw [hsuffix.cut hcolon, hsuffix'.cut (mt hiff.2 hcolon)] at hcut
    obtain rfl : host = host' := congrArg Prod.fst hcut
    exact ⟨rfl, List.append_cancel_left h⟩

/-- Two accepted values have one normal form exactly if they name one page. -/
theorem Accepted.eq_iff {other otherUrl : List Char} {default default' : ℕ}
    {port port' : Option ℕ} (h : Accepted ip value url default port)
    (h' : Accepted ip other otherUrl default' port') :
    url = otherUrl ↔ SamePage value other := by
  have hdefault : (urlParts value).scheme = (urlParts other).scheme → default = default' := by
    intro hscheme
    have hport := h.scheme
    rw [hscheme, h'.scheme] at hport
    exact (Option.some.inj hport).symm
  constructor
  · intro heq
    have hparts := h.urlParts_url
    rw [heq, h'.urlParts_url, SplitResult.mk.injEq] at hparts
    obtain ⟨hscheme, hauthority, hpath, hquery, -⟩ := hparts
    obtain rfl := hdefault hscheme.symm
    obtain ⟨hhost, hsuffix⟩ := authority_inj (separated_portSuffix _ _) (separated_portSuffix _ _)
      h'.close_not_mem h.close_not_mem (not_mem_portSuffix (by decide) (by decide))
      (not_mem_portSuffix (by decide) (by decide)) hauthority
    refine ⟨hscheme.symm, hhost.symm, ?_, hpath.symm, hquery.symm⟩
    rw [h.effectivePort_eq, h'.effectivePort_eq, portSuffix_inj hsuffix]
  · intro hsame
    obtain rfl := hdefault hsame.scheme
    have hport := hsame.port
    rw [h.effectivePort_eq, h'.effectivePort_eq] at hport
    rw [h.url, h'.url, hsame.scheme, hsame.host, hsame.path, hsame.query, portSuffix_or default port,
      hport, ← portSuffix_or]

/-! ## How long the normal form is -/

private theorem length_portSuffix {default : ℕ} {port : Option ℕ} {rest text : List Char}
    (hrest : Separated rest text)
    (hport : (port = none ∧ text = []) ∨ ∃ number, port = some number ∧ number ≤ 65535 ∧
      text ≠ [] ∧ text.all Char.isDigit = true ∧ number = Nat.ofDigitChars 10 text 0) :
    (portSuffix default port).length ≤ rest.length ∧
      ((portSuffix default port).length = rest.length ↔ (text = [] → rest = []) ∧
        ∀ number, port = some number →
          default ≠ number ∧ (text.head? = some '0' → text.length = 1)) := by
  obtain ⟨rfl, rfl⟩ | ⟨number, rfl, -, hne, hdigits, hnumber⟩ := hport
  · refine ⟨Nat.zero_le _, ?_⟩
    rw [show portSuffix default none = [] from rfl, List.length_nil, eq_comm,
      List.length_eq_zero_iff]
    exact ⟨fun hnil => ⟨fun _ => hnil, fun number hsome => by cases hsome⟩,
      fun hnil => hnil.1 rfl⟩
  · obtain rfl : rest = ':' :: text := hrest.resolve_left fun h => hne h.2
    obtain ⟨hle, heq⟩ := Decimal.length_toDigits_ofDigitChars hdigits hne
    rw [← hnumber] at hle heq
    by_cases hdefault : number = default
    · rw [show portSuffix default (some number) = [] from if_neg (not_not.2 hdefault)]
      refine ⟨Nat.zero_le _, ⟨fun h => by simp at h, fun h => ?_⟩⟩
      exact absurd hdefault.symm (h.2 number rfl).1
    · rw [show portSuffix default (some number) = ':' :: Nat.toDigits 10 number from
        if_pos hdefault, List.length_cons, List.length_cons]
      refine ⟨Nat.succ_le_succ hle, ⟨fun h => ?_, fun h => ?_⟩⟩
      · refine ⟨fun hnil => absurd hnil hne, fun other hother => ?_⟩
        obtain rfl := Option.some.inj hother
        exact ⟨Ne.symm hdefault, heq.1 (Nat.succ.inj h)⟩
      · exact congrArg Nat.succ (heq.2 (h.2 number rfl).2)

namespace Accepted

variable {default : ℕ} {port : Option ℕ} (h : Accepted ip value url default port)
include h

/-- The authority does not grow, and it is as long only if nothing is left out. -/
theorem length_authority :
    (bracketed (host value) ++ portSuffix default port).length ≤ (urlParts value).netloc.length ∧
      ((bracketed (host value) ++ portSuffix default port).length =
          (urlParts value).netloc.length ↔
        PortKept (urlParts value) ∧ ('[' ∈ (urlParts value).netloc → ':' ∈ host value)) := by
  have hcolon : ':' ∉ (hostinfo (urlParts value).netloc).2 := by
    obtain ⟨-, hnil⟩ | ⟨number, -, -, -, hdigits, -⟩ := h.port_cases
    · rw [hnil]
      exact List.not_mem_nil
    · exact fun hmem => absurd (List.all_eq_true.1 hdigits _ hmem) (by decide)
  obtain ⟨rest, hrest, hlength, hopen, hlast⟩ := h.hosted.length hcolon
  obtain ⟨hle, heq⟩ := @length_portSuffix default port _ _ hrest h.port_cases
  have hscheme := h.scheme
  rw [h.lower_scheme] at hscheme
  have hkept : PortKept (urlParts value) ↔ (portSuffix default port).length = rest.length := by
    rw [heq, PortKept, hlast, h.parsed, hscheme]
    simp only [Option.some_inj, Ne]
  have hhost : (host value).length = (hostinfo (urlParts value).netloc).1.length := by
    rw [h.host_eq, length_lower]
  have hmem : ':' ∈ host value → '[' ∈ (urlParts value).netloc := by
    rw [h.host_eq, mem_lower_iff (by decide)]
    exact fun hcolon => by_contra fun hno => hopen hno hcolon
  have hbracketed : (bracketed (host value)).length =
      (host value).length + if ':' ∈ host value then 2 else 0 := by
    rw [bracketed]
    split_ifs
    · simp
    · exact (Nat.add_zero _).symm
  rw [List.length_append, hbracketed, hhost, hlength, hkept]
  by_cases hcolon : ':' ∈ host value
  · rw [if_pos hcolon, if_pos (hmem hcolon)]
    exact ⟨by omega, ⟨fun h => ⟨by omega, fun _ => hcolon⟩, fun h => by have := h.1; omega⟩⟩
  · rw [if_neg hcolon]
    by_cases hbracket : '[' ∈ (urlParts value).netloc
    · rw [if_pos hbracket]
      exact ⟨by omega, ⟨fun h => by omega, fun h => absurd (h.2 hbracket) hcolon⟩⟩
    · rw [if_neg hbracket]
      exact ⟨by omega, ⟨fun h => ⟨by omega, fun hmem => absurd hmem hbracket⟩,
        fun h => by have := h.1; omega⟩⟩

/-- Only an overfull value has a normal form that is too long. -/
theorem length_le_iff : url.length ≤ 2000 ↔ ¬Overfull value := by
  obtain ⟨scheme, query, fragment, hlower, hvalue, hquery, hfragment⟩ := h.parted.eq
  obtain ⟨hle, heq⟩ := h.length_authority
  have hscheme : scheme.length = (urlParts value).scheme.length := by rw [← hlower, length_lower]
  have hlength : (strip value).length = (urlParts value).scheme.length + 3 +
      (urlParts value).netloc.length + (urlParts value).path.length + query.length +
      fragment.length := by
    rw [hvalue]
    simp only [List.length_append, List.length_cons, hscheme]
    omega
  have hurl : url.length = (urlParts value).scheme.length + 3 +
      (bracketed (host value) ++ portSuffix default port).length +
      (pagePath (urlParts value).path).length +
      (if (urlParts value).query = [] then [] else '?' :: (urlParts value).query).length := by
    rw [h.url, h.lower_scheme, join, List.length_append, List.length_cons, List.length_cons,
      List.length_cons, @List.length_append _ (bracketed _ ++ _), @List.length_append _ (pagePath _)]
    omega
  have hmax := h.length.2
  -- an empty query and its delimiter are dropped together
  have hquestion : (if (urlParts value).query = [] then [] else '?' :: (urlParts value).query).length
      ≤ query.length ∧ ((if (urlParts value).query = [] then [] else
        '?' :: (urlParts value).query).length = query.length ↔
          ((urlParts value).query = [] → '?' ∉ query)) := by
    obtain ⟨rfl, hnil⟩ | rfl := hquery
    · simp [hnil]
    · split_ifs with hnil
      · simp [hnil]
      · simp [hnil]
  have hpath : (pagePath (urlParts value).path).length =
      (urlParts value).path.length + if (urlParts value).path = [] then 1 else 0 := by
    rw [pagePath]
    split_ifs with hnil
    · rw [hnil]
      rfl
    · exact (Nat.add_zero _).symm
  rw [hurl, hpath]
  constructor
  · intro hshort hfull
    have hfragment : fragment = [] := by
      refine (hfragment.resolve_right fun hhash => hfull.unhashed ?_).1
      rw [hvalue, hhash]
      simp
    have hkept := heq.2 ⟨hfull.port, hfull.brackets⟩
    have hquery := hquestion.2.2 fun hnil hmem => hfull.query hnil <| by
      rw [hvalue]
      simp [hmem]
    have htotal := hfull.length
    rw [hlength, hfragment, List.length_nil] at htotal
    rw [if_pos hfull.path] at hshort
    omega
  · intro hfull
    by_contra hlong
    have hroot : (urlParts value).path = [] := by
      by_contra hne
      rw [if_neg hne] at hlong
      omega
    rw [if_pos hroot] at hlong
    have hkept := heq.1 (by omega)
    have hdropped := hquestion.2.1 (by omega)
    obtain rfl : fragment = [] := List.length_eq_zero_iff.1 (by omega)
    -- neither delimiter stands before the path
    have hdelimiter : ∀ d, isDelimiter d = true → d.isAlpha = false → d ∉ query →
        d ≠ ':' → d ≠ '/' → d ∉ strip value := by
      intro d hd halpha hquery hcolon hslash hmem
      rw [hvalue, hroot] at hmem
      simp only [List.mem_append, List.mem_cons, List.not_mem_nil, hcolon, hslash, hquery,
        false_or, or_false] at hmem
      rcases hmem with hmem | hmem
      · have hlowered : d.toLower ∈ (urlParts value).scheme :=
          hlower ▸ List.mem_map.2 ⟨d, hmem, rfl⟩
        have hdefault := h.scheme
        rw [h.lower_scheme] at hdefault
        simp only [isDelimiter, Bool.or_eq_true, decide_eq_true_eq] at hd
        have hnot := isLower_scheme hdefault _ hlowered
        rcases hd with (rfl | rfl) | rfl <;> exact absurd hnot (by decide)
      · rw [h.parted.undelimited d hmem] at hd
        cases hd
    have hhashed : '#' ∉ query := by
      obtain ⟨rfl, -⟩ | rfl := hquery
      · exact List.not_mem_nil
      · simpa using h.parted.queryUnhashed
    refine hfull ⟨by omega, hroot, ?_, ?_, hkept.1, hkept.2⟩
    · exact hdelimiter '#' rfl rfl hhashed (by decide) (by decide)
    · exact fun hnil => hdelimiter '?' rfl rfl (hdropped hnil) (by decide) (by decide)

end Accepted

/-! ## Normalizing again -/

/-- What is accepted can be split. -/
theorem urlsplit_of_normalizeUrl (h : normalizeUrl ip value = some url) (hstrip : strip value = value) :
    urlsplit ip value = some (urlParts value) := by
  obtain ⟨default, port, haccepted⟩ := normalizeUrl_eq_some_iff.1 h
  rw [urlParts, hstrip]
  have hbrackets := haccepted.brackets
  have hnetloc := haccepted.netloc
  rw [urlParts, hstrip] at hbrackets hnetloc
  exact if_pos ⟨hbrackets, hnetloc⟩

/-- A normal form has no space around it. -/
theorem strip_of_normalizeUrl (h : normalizeUrl ip value = some url) : strip url = url := by
  obtain ⟨default, port, haccepted⟩ := normalizeUrl_eq_some_iff.1 h
  exact haccepted.strip_url

/-- The normal form of an accepted value is its own normal form, unless it has grown
past the limit or its host is read as a bracket. -/
theorem normalizeUrl_again_iff (h : normalizeUrl ip value = some url) :
    normalizeUrl ip url = some url ↔ ¬Overfull value ∧ ¬BareBracket value := by
  obtain ⟨default, port, haccepted⟩ := normalizeUrl_eq_some_iff.1 h
  constructor
  · intro hagain
    obtain ⟨default', port', hurl⟩ := normalizeUrl_eq_some_iff.1 hagain
    refine ⟨haccepted.length_le_iff.1 ?_, ?_⟩
    · exact haccepted.strip_url ▸ hurl.length.2
    · rintro ⟨hopen, hcolon⟩
      have hbrackets := hurl.brackets
      have hmem : '[' ∈ host value ++ portSuffix default port := List.mem_append_left _ hopen
      have hclose : ']' ∉ host value ++ portSuffix default port := by
        rw [List.mem_append, not_or]
        exact ⟨haccepted.close_not_mem, not_mem_portSuffix (by decide) (by decide)⟩
      rw [haccepted.urlParts_url, bracketed, if_neg hcolon, bracketsOk, if_pos hmem,
        decide_eq_false hclose] at hbrackets
      cases hbrackets
  · rintro ⟨hfull, hbracket⟩
    obtain ⟨again, hagain⟩ := haccepted.again (haccepted.length_le_iff.2 hfull) hbracket
    exact normalizeUrl_eq_some_iff.2 ⟨default, again, hagain⟩

/-- When `normalize_url` is an idempotent identity of pages. -/
theorem normalizeUrl_identity_iff (ip : IpCheck) (value url : List Char)
    (h : normalizeUrl ip value = some url) :
    (normalizeUrl ip url = some url ↔ ¬Overfull value ∧ ¬BareBracket value) ∧
      ∀ other otherUrl, normalizeUrl ip other = some otherUrl →
        (url = otherUrl ↔ SamePage value other) := by
  refine ⟨normalizeUrl_again_iff h, fun other otherUrl hother => ?_⟩
  obtain ⟨default, port, haccepted⟩ := normalizeUrl_eq_some_iff.1 h
  obtain ⟨default', port', hother⟩ := normalizeUrl_eq_some_iff.1 hother
  exact haccepted.eq_iff hother

/-- No address at all. -/
def noAddress : IpCheck where
  isIpv6 _ := false
  lower _ h := h
  start _ h := absurd h Bool.false_ne_true
  checkNetloc _ := true
  ascii _ _ := rfl

theorem normalizeUrl_identity_iff_port :
    (normalizeUrl noAddress "http://example.com/a?b".toList =
        some "http://example.com/a?b".toList ↔
      ¬Overfull " HTTP://Example.com:80/a?b#c".toList ∧
        ¬BareBracket " HTTP://Example.com:80/a?b#c".toList) ∧
      ∀ other otherUrl, normalizeUrl noAddress other = some otherUrl →
        ("http://example.com/a?b".toList = otherUrl ↔
          SamePage " HTTP://Example.com:80/a?b#c".toList other) :=
  normalizeUrl_identity_iff noAddress " HTTP://Example.com:80/a?b#c".toList
    "http://example.com/a?b".toList (by decide)

/-- A value of 2000 characters without a path. -/
theorem longValue_parts :
    strip ("http://".toList ++ List.replicate 1993 'a') =
        "http://".toList ++ List.replicate 1993 'a' ∧
      urlParts ("http://".toList ++ List.replicate 1993 'a') =
        ⟨"http".toList, List.replicate 1993 'a', [], [], []⟩ ∧
      host ("http://".toList ++ List.replicate 1993 'a') = List.replicate 1993 'a' := by
  have hparts : urlParts ("http://".toList ++ List.replicate 1993 'a') =
      ⟨"http".toList, List.replicate 1993 'a', [], [], []⟩ := by
    decide +kernel
  refine ⟨by decide +kernel, hparts, ?_⟩
  rw [host, hparts]
  decide +kernel

private theorem longValue_port :
    (urlParts ("http://".toList ++ List.replicate 1993 'a')).port = some none := by
  rw [longValue_parts.2.1]
  decide +kernel

theorem normalizeUrl_longValue :
    normalizeUrl noAddress ("http://".toList ++ List.replicate 1993 'a') =
      some ("http://".toList ++ List.replicate 1993 'a' ++ ['/']) := by
  obtain ⟨hstrip, hparts, hhost⟩ := longValue_parts
  refine normalizeUrl_eq_some_iff.2 ⟨80, none, ?_, ?_, ?_, rfl, longValue_port, ?_, ?_, ?_, ?_, ?_⟩
  · intro c hc
    rw [hstrip, List.mem_append, List.mem_replicate] at hc
    rcases hc with hc | ⟨-, rfl⟩
    · have hscheme : ("http://".toList.all fun c => 0x21 ≤ c.toNat ∧ c.toNat ≤ 0x7E) = true := by
        decide
      exact of_decide_eq_true (List.all_eq_true.1 hscheme c hc)
    · decide
  · rw [hstrip, List.length_append, List.length_replicate]
    decide
  · rw [hparts, bracketsOk, if_neg fun hopen => absurd (List.eq_of_mem_replicate hopen) (by decide)]
    exact decide_eq_true fun hclose => absurd (List.eq_of_mem_replicate hclose) (by decide)
  · rw [hparts]
    decide
  · rw [hparts]
    exact fun hat => absurd (List.eq_of_mem_replicate hat) (by decide)
  · rw [hhost]
    exact List.cons_ne_nil _ _
  · rw [hhost]
    exact fun hzone => absurd (List.eq_of_mem_replicate hzone) (by decide)
  · rw [hparts, hhost]
    decide +kernel

theorem overfull_longValue : Overfull ("http://".toList ++ List.replicate 1993 'a') := by
  obtain ⟨hstrip, hparts, -⟩ := longValue_parts
  refine ⟨?_, by rw [hparts], ?_, fun _ => ?_, ⟨?_, fun port hsome => ?_⟩, fun hopen => ?_⟩
  · rw [hstrip, List.length_append, List.length_replicate]
    decide
  · rw [hstrip, List.mem_append, List.mem_replicate]
    decide
  · rw [hstrip, List.mem_append, List.mem_replicate]
    decide
  · rw [hparts, List.getLast?_replicate]
    decide
  · rw [longValue_port] at hsome
    cases hsome
  · rw [hparts] at hopen
    exact absurd (List.eq_of_mem_replicate hopen) (by decide)

/-- An address of a future version with a bracket in it is accepted, and its normal form
is not; so is a value of 2000 characters without a path. -/
theorem normalForm_refused :
    (normalizeUrl noAddress "http://[v1.[x]/".toList = some "http://v1.[x/".toList ∧
      normalizeUrl noAddress "http://v1.[x/".toList = none) ∧
    normalizeUrl noAddress ("http://".toList ++ List.replicate 1993 'a') =
        some ("http://".toList ++ List.replicate 1993 'a' ++ ['/']) ∧
      normalizeUrl noAddress ("http://".toList ++ List.replicate 1993 'a' ++ ['/']) = none := by
  refine ⟨⟨by decide, by decide⟩, normalizeUrl_longValue, ?_⟩
  decide +kernel

end Cortex.Sources
