import Cortex.Library.PyText
import Mathlib.Data.List.Basic

/-!
# Splitting URLs

`urllib.parse.urlsplit` of CPython, over lists of characters: the five parts, and
the host and the port of the authority.  Whether a text is an IPv6 address is a
parameter (`IpCheck`), with the little that its callers rely on.  `urlsplit_join`
is the round trip: a URL that is put together from parts splits into them.
-/

namespace Cortex.UrlSplit

open PyText

/-- The checks of an authority that are made elsewhere: what `ipaddress.ip_address` takes
for an IPv6 address, and `_checknetloc`, which lets every ASCII authority pass. -/
structure IpCheck where
  isIpv6 : List Char → Bool
  lower : ∀ host, isIpv6 host = true → isIpv6 (lower host) = true
  /-- It does not start as an address of a future version does. -/
  start : ∀ host, isIpv6 host = true → (PyText.lower host).head? ≠ some 'v'
  checkNetloc : List Char → Bool
  ascii : ∀ netloc : List Char, (∀ c ∈ netloc, c.toNat < 128) → checkNetloc netloc = true

structure SplitResult where
  scheme : List Char
  netloc : List Char
  path : List Char
  query : List Char
  fragment : List Char
  deriving DecidableEq

/-! ## Bracketed hosts -/

def isHex (c : Char) : Bool := c.isDigit || ('a' ≤ c && c ≤ 'f') || ('A' ≤ c && c ≤ 'F')

/-- `v`, hexadecimal digits, a dot and something more. -/
def isIpvFuture : List Char → Bool
  | 'v' :: rest =>
      match rest.takeWhile isHex, rest.dropWhile isHex with
      | _ :: _, '.' :: _ :: _ => true
      | _, _ => false
  | _ => false

/-- `_check_bracketed_host`. -/
def checkBracketedHost (ip : IpCheck) (host : List Char) : Bool :=
  if host.head? = some 'v' then isIpvFuture host else ip.isIpv6 host

/-- `_check_bracketed_netloc`. -/
def checkBracketedNetloc (ip : IpCheck) (netloc : List Char) : Bool :=
  let hostnameAndPort := afterLast '@' netloc
  if '[' ∈ hostnameAndPort then
    let (before, bracketed) := cut '[' hostnameAndPort
    let (hostname, port) := cut ']' bracketed
    before = [] && (port = [] || port.head? = some ':') && checkBracketedHost ip hostname
  else checkBracketedHost ip (cut ':' hostnameAndPort).1

/-! ## Splitting -/

def isSchemeChar (c : Char) : Bool := c.isAlphanum || c = '+' || c = '-' || c = '.'

/-- What `urlsplit` removes before it splits. -/
def clean (url : List Char) : List Char :=
  (url.dropWhile fun c => c.toNat ≤ 32).filter fun c => c ≠ '\t' ∧ c ≠ '\r' ∧ c ≠ '\n'

def splitScheme (url : List Char) : List Char × List Char :=
  let (scheme, rest) := cut ':' url
  if ':' ∈ url ∧ (scheme.head?.any Char.isAlpha = true) ∧ scheme.all isSchemeChar = true then
    (lower scheme, rest)
  else ([], url)

def isDelimiter (c : Char) : Bool := c = '/' || c = '?' || c = '#'

/-- `_splitnetloc`, where there is an authority. -/
def splitNetloc (url : List Char) : List Char × List Char :=
  match url with
  | '/' :: '/' :: rest =>
      (rest.takeWhile fun c => !isDelimiter c, rest.dropWhile fun c => !isDelimiter c)
  | _ => ([], url)

/-- The brackets of an authority are those of one address. -/
def bracketsOk (ip : IpCheck) (netloc : List Char) : Bool :=
  if '[' ∈ netloc then decide (']' ∈ netloc) && checkBracketedNetloc ip netloc
  else decide (']' ∉ netloc)

/-- The parts of a URL, whatever its brackets. -/
def splitParts (url : List Char) : SplitResult :=
  let (scheme, rest) := splitScheme (clean url)
  let (netloc, rest) := splitNetloc rest
  let (rest, fragment) := cut '#' rest
  let (path, query) := cut '?' rest
  ⟨scheme, netloc, path, query, fragment⟩

/-- `urlsplit`; nothing where it raises. -/
def urlsplit (ip : IpCheck) (url : List Char) : Option SplitResult :=
  if bracketsOk ip (splitParts url).netloc ∧ ip.checkNetloc (splitParts url).netloc then
    some (splitParts url)
  else none

/-! ## Host and port -/

/-- `_hostinfo`; the text of the port may be empty. -/
def hostinfo (netloc : List Char) : List Char × List Char :=
  let hostinfo := afterLast '@' netloc
  if '[' ∈ hostinfo then
    let (hostname, port) := cut ']' (cut '[' hostinfo).2
    (hostname, (cut ':' port).2)
  else cut ':' hostinfo

/-- `hostname`: a zone keeps its case. -/
def SplitResult.hostname (split : SplitResult) : List Char :=
  let hostname := (hostinfo split.netloc).1
  lower (cut '%' hostname).1 ++ hostname.dropWhile fun c => c ≠ '%'

/-- `port`; nothing where it raises. -/
def SplitResult.port (split : SplitResult) : Option (Option ℕ) :=
  match (hostinfo split.netloc).2 with
  | [] => some none
  | port =>
      if port.all Char.isDigit ∧ Nat.ofDigitChars 10 port 0 ≤ 65535 then
        some (some (Nat.ofDigitChars 10 port 0))
      else none

/-! ## Joining -/

/-- A URL without a fragment. -/
def join (scheme netloc path query : List Char) : List Char :=
  scheme ++ ':' :: '/' :: '/' :: (netloc ++ (path ++ if query = [] then [] else '?' :: query))

/-- The parts of such a URL. -/
structure Parts (scheme netloc path query : List Char) : Prop where
  lowerScheme : scheme.head?.any Char.isAlpha = true ∧ scheme.all isSchemeChar = true ∧
    lower scheme = scheme
  undelimited : ∀ c ∈ netloc, isDelimiter c = false
  absolute : path.head? = some '/' ∧ '?' ∉ path ∧ '#' ∉ path
  unhashed : '#' ∉ query
  printable : ∀ c ∈ join scheme netloc path query, 32 < c.toNat

variable {ip : IpCheck} {scheme netloc path query : List Char}

theorem clean_eq_self {url : List Char} (h : ∀ c ∈ url, 32 < c.toNat) : clean url = url := by
  have hdrop : url.dropWhile (fun c => decide (c.toNat ≤ 32)) = url :=
    dropWhile_eq_self fun c hc => decide_eq_false (Nat.not_le.2 (h c hc))
  rw [clean, hdrop, List.filter_eq_self]
  intro c hc
  have hlt := h c hc
  refine decide_eq_true ⟨?_, ?_, ?_⟩ <;> rintro rfl <;> exact absurd hlt (by decide)

private theorem not_colon_of_scheme (h : scheme.all isSchemeChar = true) : ':' ∉ scheme := by
  intro hmem
  have hchar := List.all_eq_true.1 h ':' hmem
  exact absurd hchar (by decide)

theorem splitParts_join (h : Parts scheme netloc path query) :
    splitParts (join scheme netloc path query) = ⟨scheme, netloc, path, query, []⟩ := by
  obtain ⟨⟨hhead, hscheme, hlower⟩, hnetloc, ⟨hslash, hquestion, hhash⟩, hquery,
    hprintable⟩ := h
  obtain ⟨rest, rfl⟩ : ∃ rest, path = '/' :: rest := by
    cases path with
    | nil => cases hslash
    | cons c rest =>
        obtain rfl : c = '/' := by simpa using hslash
        exact ⟨rest, rfl⟩
  have hsplit : splitScheme (join scheme netloc ('/' :: rest) query) =
      (scheme, '/' :: '/' :: (netloc ++ ('/' :: rest ++ if query = [] then [] else '?' :: query))) := by
    rw [splitScheme, join, cut_append (not_colon_of_scheme hscheme)]
    simp only [List.mem_append, List.mem_cons, true_or, or_true, hhead, hscheme, and_self, if_true,
      hlower]
  have hauthority : splitNetloc ('/' :: '/' ::
      (netloc ++ ('/' :: rest ++ if query = [] then [] else '?' :: query))) =
      (netloc, '/' :: rest ++ if query = [] then [] else '?' :: query) := by
    have hall : ∀ c ∈ netloc, (!isDelimiter c) = true := fun c hc => by rw [hnetloc c hc]; rfl
    rw [splitNetloc, List.takeWhile_append_of_pos hall, List.dropWhile_append_of_pos hall]
    simp [isDelimiter]
  have hfragment : '#' ∉ '/' :: rest ++ if query = [] then [] else '?' :: query := by
    rw [List.mem_append, not_or]
    refine ⟨hhash, ?_⟩
    split
    · exact List.not_mem_nil
    · rw [List.mem_cons, not_or]
      exact ⟨by decide, hquery⟩
  have hparts : cut '?' ('/' :: rest ++ if query = [] then [] else '?' :: query) =
      ('/' :: rest, query) := by
    split
    · rename_i hnil
      rw [List.append_nil, cut_of_not_mem hquestion, hnil]
    · exact cut_append hquestion
  simp only [splitParts, clean_eq_self hprintable, hsplit, hauthority, cut_of_not_mem hfragment,
    hparts]

theorem urlsplit_join (h : Parts scheme netloc path query) :
    urlsplit ip (join scheme netloc path query) =
      if bracketsOk ip netloc ∧ ip.checkNetloc netloc then
        some ⟨scheme, netloc, path, query, []⟩
      else none := by
  rw [urlsplit, splitParts_join h]

/-! ## What the parts are -/

/-- A URL with an authority, as it was put together. -/
structure Parted (url : List Char) (split : SplitResult) : Prop where
  undelimited : ∀ c ∈ split.netloc, isDelimiter c = false
  path : split.path = [] ∨ split.path.head? = some '/'
  unquestioned : '?' ∉ split.path
  pathUnhashed : '#' ∉ split.path
  queryUnhashed : '#' ∉ split.query
  eq : ∃ scheme query fragment, lower scheme = split.scheme ∧
    url = scheme ++ ':' :: '/' :: '/' :: (split.netloc ++ (split.path ++ (query ++ fragment))) ∧
    (query = [] ∧ split.query = [] ∨ query = '?' :: split.query) ∧
    (fragment = [] ∧ split.fragment = [] ∨ fragment = '#' :: split.fragment)

/-- A separator, if there is one, and what is after it. -/
private theorem cut_spec (c : Char) (s : List Char) :
    ∃ rest, s = (cut c s).1 ++ rest ∧
      (rest = [] ∧ (cut c s).2 = [] ∨ rest = c :: (cut c s).2) := by
  by_cases h : c ∈ s
  · exact ⟨c :: (cut c s).2, eq_of_cut h, .inr rfl⟩
  · refine ⟨[], ?_, .inl ⟨rfl, ?_⟩⟩
    · rw [cut_of_not_mem h, List.append_nil]
    · rw [cut_of_not_mem h]

private theorem cut_cons_ne {c d : Char} (s : List Char) (h : d ≠ c) :
    (cut c (d :: s)).1 = d :: (cut c s).1 := by
  simp [cut, h]

private theorem cut_cons_self (c : Char) (s : List Char) : (cut c (c :: s)).1 = [] := by
  simp [cut]

/-- What is left after an authority starts with a delimiter. -/
private theorem path_of_dropWhile (url : List Char) :
    let rest := url.dropWhile fun c => !isDelimiter c
    (cut '?' (cut '#' rest).1).1 = [] ∨ (cut '?' (cut '#' rest).1).1.head? = some '/' := by
  intro rest
  cases hrest : rest with
  | nil => exact .inl rfl
  | cons c tail =>
      have hc : isDelimiter c = true := by
        have hne : url.dropWhile (fun c => !isDelimiter c) ≠ [] := by
          rw [show url.dropWhile _ = c :: tail from hrest]
          exact List.cons_ne_nil _ _
        have hhead := List.head_dropWhile_not _ hne
        simp only [show url.dropWhile (fun c => !isDelimiter c) = c :: tail from hrest,
          List.head_cons] at hhead
        simpa using hhead
      simp only [isDelimiter, Bool.or_eq_true, decide_eq_true_eq] at hc
      rcases hc with (rfl | rfl) | rfl
      · right
        rw [cut_cons_ne tail (by decide), cut_cons_ne _ (by decide)]
        rfl
      · left
        rw [cut_cons_ne tail (by decide), cut_cons_self]
      · left
        rw [cut_cons_self]
        rfl

/-- The parts of a printable URL with an authority. -/
theorem parted_splitParts {url : List Char} (hprintable : ∀ c ∈ url, 32 < c.toNat)
    (hnetloc : (splitParts url).netloc ≠ []) (hscheme : (splitParts url).scheme ≠ []) :
    Parted url (splitParts url) := by
  -- the scheme is there, and so are the two slashes
  by_cases hs : ':' ∈ url ∧ ((cut ':' url).1.head?.any Char.isAlpha = true) ∧
      (cut ':' url).1.all isSchemeChar = true
  case neg =>
    refine absurd ?_ hscheme
    simp only [splitParts, clean_eq_self hprintable, splitScheme, if_neg hs]
  have hsplit : splitScheme (clean url) = (lower (cut ':' url).1, (cut ':' url).2) := by
    simp only [clean_eq_self hprintable, splitScheme, if_pos hs]
  obtain ⟨rest, hrest⟩ : ∃ rest, (cut ':' url).2 = '/' :: '/' :: rest := by
    by_contra hno
    refine absurd ?_ hnetloc
    have hnone : splitNetloc (cut ':' url).2 = ([], (cut ':' url).2) := by
      unfold splitNetloc
      split
      · rename_i rest heq
        exact absurd ⟨rest, heq⟩ hno
      · rfl
    simp only [splitParts, hsplit, hnone]
  have hparts : splitParts url =
      ⟨lower (cut ':' url).1, rest.takeWhile fun c => !isDelimiter c,
        (cut '?' (cut '#' (rest.dropWhile fun c => !isDelimiter c)).1).1,
        (cut '?' (cut '#' (rest.dropWhile fun c => !isDelimiter c)).1).2,
        (cut '#' (rest.dropWhile fun c => !isDelimiter c)).2⟩ := by
    simp only [splitParts, hsplit, hrest, splitNetloc]
  obtain ⟨fragment, hfragment, hhash⟩ :=
    cut_spec '#' (rest.dropWhile fun c => !isDelimiter c)
  obtain ⟨query, hquery, hquestion⟩ :=
    cut_spec '?' (cut '#' (rest.dropWhile fun c => !isDelimiter c)).1
  rw [hparts]
  refine ⟨?_, path_of_dropWhile rest, not_mem_cut_fst,
    fun h => not_mem_cut_fst (cut_fst_subset h), fun h => not_mem_cut_fst (cut_snd_subset h),
    (cut ':' url).1, query, fragment, rfl, ?_, hquestion, hhash⟩
  · intro c hc
    simpa using List.mem_takeWhile_imp hc
  · calc url = (cut ':' url).1 ++ ':' :: (cut ':' url).2 := eq_of_cut hs.1
      _ = (cut ':' url).1 ++ ':' :: '/' :: '/' :: rest := by rw [hrest]
      _ = _ := by
          rw [← List.append_assoc _ query, ← hquery, ← hfragment, List.takeWhile_append_dropWhile]

/-! ## Authorities -/

/-- A port, and what stands between the host and the end of the authority. -/
def Separated (rest port : List Char) : Prop := rest = [] ∧ port = [] ∨ rest = ':' :: port

/-- An authority without credentials, as its host and the text of its port. -/
inductive Hosted (ip : IpCheck) : List Char → List Char → List Char → Prop
  | bare {host rest port : List Char} (hrest : Separated rest port) (hcolon : ':' ∉ host)
      (hopen : '[' ∉ host ++ rest) (hclose : ']' ∉ host ++ rest) :
      Hosted ip (host ++ rest) host port
  | bracketed {host rest port : List Char} (hrest : Separated rest port) (hclose : ']' ∉ host)
      (hcheck : checkBracketedHost ip host = true) :
      Hosted ip ('[' :: (host ++ ']' :: rest)) host port

variable {host port rest : List Char}

theorem Separated.cut (hrest : Separated rest port) (hcolon : ':' ∉ host) :
    cut ':' (host ++ rest) = (host, port) := by
  obtain ⟨rfl, rfl⟩ | rfl := hrest
  · rw [List.append_nil, cut_of_not_mem hcolon]
  · exact cut_append hcolon

theorem Hosted.hostinfo (h : Hosted ip netloc host port) (hcredentials : '@' ∉ netloc) :
    hostinfo netloc = (host, port) := by
  rw [UrlSplit.hostinfo, afterLast_of_not_mem hcredentials]
  cases h with
  | bare hrest hcolon hopen _ =>
      rw [if_neg hopen]
      exact hrest.cut hcolon
  | @bracketed host rest port hrest hclose _ =>
      have hopen : '[' ∈ '[' :: (host ++ ']' :: rest) := .head _
      have hcut : PyText.cut '[' ('[' :: (host ++ ']' :: rest)) = ([], host ++ ']' :: rest) :=
        cut_append List.not_mem_nil
      have hsplit : PyText.cut ':' ([] ++ rest) = ([], port) := hrest.cut List.not_mem_nil
      have hport : (PyText.cut ':' rest).2 = port := congrArg Prod.snd hsplit
      rw [if_pos hopen, hcut]
      simp only [cut_append hclose, hport]

theorem Hosted.bracketsOk (h : Hosted ip netloc host port) (hcredentials : '@' ∉ netloc) :
    bracketsOk ip netloc = true := by
  rw [UrlSplit.bracketsOk]
  cases h with
  | bare _ _ hopen hclose => rw [if_neg hopen, decide_eq_true hclose]
  | @bracketed host rest port hrest hclose hcheck =>
      have hopen : '[' ∈ '[' :: (host ++ ']' :: rest) := .head _
      have hmem : ']' ∈ '[' :: (host ++ ']' :: rest) := by simp
      have hcut : PyText.cut '[' ('[' :: (host ++ ']' :: rest)) = ([], host ++ ']' :: rest) :=
        cut_append List.not_mem_nil
      have hport : rest = [] ∨ rest.head? = some ':' := by
        obtain ⟨rfl, -⟩ | rfl := hrest
        · exact .inl rfl
        · exact .inr rfl
      rw [if_pos hopen, decide_eq_true hmem, checkBracketedNetloc,
        afterLast_of_not_mem hcredentials, if_pos hopen, hcut]
      simpa [cut_append hclose, hcheck] using hport

/-- What `urlsplit` accepts has a host and a port. -/
theorem hosted_hostinfo (hok : bracketsOk ip netloc = true) (hcredentials : '@' ∉ netloc) :
    Hosted ip netloc (hostinfo netloc).1 (hostinfo netloc).2 := by
  rw [UrlSplit.bracketsOk] at hok
  by_cases hopen : '[' ∈ netloc
  · rw [if_pos hopen, Bool.and_eq_true, decide_eq_true_eq, checkBracketedNetloc,
      afterLast_of_not_mem hcredentials, if_pos hopen] at hok
    obtain ⟨hclose, hbrackets⟩ := hok
    simp only [Bool.and_eq_true, Bool.or_eq_true, decide_eq_true_eq] at hbrackets
    obtain ⟨⟨hbefore, hport⟩, hcheck⟩ := hbrackets
    have hnetloc := eq_of_cut hopen
    rw [hbefore, List.nil_append] at hnetloc
    have hmem : ']' ∈ (PyText.cut '[' netloc).2 := by
      rw [hnetloc] at hclose
      exact (List.mem_cons.1 hclose).resolve_left (by decide)
    have hseparated : Separated (PyText.cut ']' (PyText.cut '[' netloc).2).2
        (PyText.cut ':' (PyText.cut ']' (PyText.cut '[' netloc).2).2).2 := by
      cases hrest : (PyText.cut ']' (PyText.cut '[' netloc).2).2 with
      | nil => exact .inl ⟨rfl, rfl⟩
      | cons c tail =>
          rw [hrest] at hport
          obtain rfl : c = ':' := by simpa using hport
          exact .inr (by rw [show PyText.cut ':' (':' :: tail) = ([], tail) from
            cut_append List.not_mem_nil])
    have hhosted := Hosted.bracketed hseparated not_mem_cut_fst hcheck
    rw [← eq_of_cut hmem, ← hnetloc] at hhosted
    simpa only [UrlSplit.hostinfo, afterLast_of_not_mem hcredentials, if_pos hopen] using hhosted
  · rw [if_neg hopen, decide_eq_true_eq] at hok
    obtain ⟨rest, heq, hrest⟩ := cut_spec ':' netloc
    have hhosted : Hosted ip ((PyText.cut ':' netloc).1 ++ rest) (PyText.cut ':' netloc).1
        (PyText.cut ':' netloc).2 :=
      Hosted.bare hrest not_mem_cut_fst (heq ▸ hopen) (heq ▸ hok)
    rw [← heq] at hhosted
    simpa only [UrlSplit.hostinfo, afterLast_of_not_mem hcredentials, if_neg hopen] using hhosted

theorem Hosted.close (h : Hosted ip netloc host port) : ']' ∉ host := by
  cases h with
  | bare _ _ _ hclose => exact fun hmem => hclose (List.mem_append_left _ hmem)
  | bracketed _ hclose _ => exact hclose

theorem Hosted.subset (h : Hosted ip netloc host port) : ∀ c ∈ host, c ∈ netloc := by
  cases h with
  | bare => exact fun c hc => List.mem_append_left _ hc
  | bracketed => exact fun c hc => List.mem_cons_of_mem _ (List.mem_append_left _ hc)

/-- A host with a colon was in brackets. -/
theorem Hosted.check (h : Hosted ip netloc host port) (hcolon : ':' ∈ host) :
    checkBracketedHost ip host = true := by
  cases h with
  | bare _ hno _ _ => exact absurd hcolon hno
  | bracketed _ _ hcheck => exact hcheck

private theorem isHex_eq (c : Char) :
    isHex c = decide (48 ≤ c.toNat ∧ c.toNat ≤ 57 ∨ 97 ≤ c.toNat ∧ c.toNat ≤ 102 ∨
      65 ≤ c.toNat ∧ c.toNat ≤ 70) := by
  have hle : ∀ a b : Char, a ≤ b ↔ a.toNat ≤ b.toNat := fun a b => UInt32.le_iff_toNat_le
  rw [Bool.eq_iff_iff, decide_eq_true_eq]
  simp only [isHex, Char.isDigit, Bool.or_eq_true, Bool.and_eq_true, decide_eq_true_eq, hle,
    ge_iff_le, UInt32.le_iff_toNat_le]
  have hval : c.val.toNat = c.toNat := rfl
  simp only [hval, Char.reduceToNat, Char.reduceVal, UInt32.reduceToNat]
  exact or_assoc

theorem isHex_toLower (c : Char) : isHex c.toLower = isHex c := by
  rw [isHex_eq, isHex_eq, Bool.eq_iff_iff, decide_eq_true_eq, decide_eq_true_eq, toNat_toLower]
  split_ifs <;> omega

private theorem isIpvFuture_lower {host : List Char} (h : isIpvFuture host = true) :
    isIpvFuture (lower host) = true := by
  have hcomp : isHex ∘ Char.toLower = isHex := funext isHex_toLower
  unfold isIpvFuture at h
  split at h
  · rename_i rest
    have htake : (lower rest).takeWhile isHex = lower (rest.takeWhile isHex) := by
      rw [lower, List.takeWhile_map, hcomp, lower]
    have hdrop : (lower rest).dropWhile isHex = lower (rest.dropWhile isHex) := by
      rw [lower, List.dropWhile_map, hcomp, lower]
    split at h
    · rename_i c digits d tail heq heq'
      rw [show lower ('v' :: rest) = 'v' :: lower rest from rfl, isIpvFuture, htake, hdrop, heq,
        heq']
      rfl
    · cases h
  · cases h

theorem checkBracketedHost_lower {host : List Char} (h : checkBracketedHost ip host = true) :
    checkBracketedHost ip (lower host) = true := by
  rw [checkBracketedHost] at h ⊢
  split_ifs at h with hv
  · have hhead : (lower host).head? = some 'v' := by
      rw [lower, List.head?_map, hv]
      rfl
    rw [if_pos hhead]
    exact isIpvFuture_lower h
  · rw [if_neg (ip.start host h)]
    exact ip.lower host h

/-- How long an authority is, and when it ends with the colon of a port. -/
theorem Hosted.length (h : Hosted ip netloc host port) (hport : ':' ∉ port) :
    ∃ rest, Separated rest port ∧
      netloc.length = host.length + rest.length + (if '[' ∈ netloc then 2 else 0) ∧
      ('[' ∉ netloc → ':' ∉ host) ∧
      (netloc.getLast? ≠ some ':' ↔ (port = [] → rest = [])) := by
  cases h with
  | @bare host rest port hrest hcolon hopen hclose =>
      refine ⟨rest, hrest, by rw [if_neg hopen, List.length_append]; rfl, fun _ => hcolon, ?_⟩
      obtain ⟨rfl, rfl⟩ | rfl := hrest
      · rw [List.append_nil]
        exact ⟨fun _ _ => rfl, fun _ hlast => hcolon (List.mem_of_getLast? hlast)⟩
      · cases port with
        | nil => simp
        | cons c tail =>
            rw [List.getLast?_append_of_ne_nil _ (List.cons_ne_nil _ _), List.getLast?_cons_cons]
            refine ⟨fun _ hnil => absurd hnil (List.cons_ne_nil _ _), fun _ hlast => ?_⟩
            exact hport (List.mem_of_getLast? hlast)
  | @bracketed host rest port hrest hclose hcheck =>
      have hopen : '[' ∈ '[' :: (host ++ ']' :: rest) := .head _
      refine ⟨rest, hrest, ?_, fun hno => absurd hopen hno, ?_⟩
      · rw [if_pos hopen, List.length_cons, List.length_append, List.length_cons]
        omega
      · rw [List.getLast?_cons_of_ne_nil (by simp),
          List.getLast?_append_of_ne_nil _ (List.cons_ne_nil _ _)]
        obtain ⟨rfl, rfl⟩ | rfl := hrest
        · exact ⟨fun _ _ => rfl, fun _ => by decide⟩
        · rw [List.getLast?_cons_cons]
          cases port with
          | nil => simp
          | cons c tail =>
              rw [List.getLast?_cons_cons]
              refine ⟨fun _ hnil => absurd hnil (List.cons_ne_nil _ _), fun _ hlast => ?_⟩
              exact hport (List.mem_of_getLast? hlast)

/-- How the text of a port is read. -/
theorem SplitResult.port_eq {split : SplitResult} {text : List Char}
    (h : (UrlSplit.hostinfo split.netloc).2 = text) :
    split.port = if text = [] then some none
      else if text.all Char.isDigit ∧ Nat.ofDigitChars 10 text 0 ≤ 65535 then
        some (some (Nat.ofDigitChars 10 text 0))
      else none := by
  rw [SplitResult.port, h]
  cases text with
  | nil => rfl
  | cons c text => rw [if_neg (List.cons_ne_nil _ _)]

end Cortex.UrlSplit
