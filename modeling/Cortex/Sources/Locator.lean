import Cortex.Control.Errors
import Cortex.Library.UrlSplit
import Cortex.Sources.ArxivId
import Mathlib.Data.List.Infix

/-!
# Source locators

`canonicalize_source_locator` and the four parsers under it: a bare arXiv identifier, an
arXiv page, a DOI and a file of the workspace.

Unicode normalization and categories are parameters (`UnicodeData`), with what is true of
ASCII texts.
-/

namespace Cortex.Sources

open PyText UrlSplit

/-- What the standard library computes. -/
structure UnicodeData where
  /-- `unicodedata.normalize("NFC", value)` -/
  nfc : List Char → List Char
  nfc_ascii : ∀ value, (∀ c ∈ value, c.toNat < 128) → nfc value = value
  /-- `unicodedata.category(character).startswith("C")` -/
  isOther : Char → Bool
  isOther_ascii : ∀ c, 32 ≤ c.toNat → c.toNat < 127 → isOther c = false

inductive Authority where
  | arxiv
  | doi
  | sha256
  deriving DecidableEq

inductive ClaimKind where
  | arxiv
  | url
  | doi
  | localFile
  deriving DecidableEq

structure CanonicalLocator where
  authority : Authority
  authorityId : List Char
  normalizedLocator : List Char
  claimKind : ClaimKind
  version : Option ℕ
  deriving DecidableEq

/-- `canonical_id` -/
def CanonicalLocator.canonicalId (locator : CanonicalLocator) : Authority × List Char :=
  (locator.authority, locator.authorityId)

/-- `normalize_source_text`; nothing where it raises. -/
def normalizeSourceText (unicode : UnicodeData) (value : List Char) (maximum : ℕ) :
    Option (List Char) :=
  let normalized := unicode.nfc value
  if normalized.any unicode.isOther then none
  else
    let normalized := strip normalized
    if normalized = [] ∨ maximum < normalized.length then none else some normalized

def isAscii (value : List Char) : Bool := value.all fun c => c.toNat < 128

/-- `part in value` -/
def contains (part value : List Char) : Bool := decide (part <:+: value)

/-! ## Files of the workspace -/

def cortexScheme : List Char := "cortex://".toList

/-- `%2f` or `%5c`, in either case. -/
def isEncodedSeparator : List Char → Bool
  | '%' :: '2' :: c :: _ => c.toLower = 'f'
  | '%' :: '5' :: c :: _ => c.toLower = 'c'
  | _ => false

/-- Whether a test holds somewhere in a text. -/
def anyTail (test : List Char → Bool) (value : List Char) : Bool := value.tails.any test

/-- `[a-z][a-z0-9-]{0,62}` -/
def isRoot : List Char → Bool
  | first :: rest =>
      first.isLower && rest.length ≤ 62 && rest.all fun c => c.isLower || c.isDigit || c = '-'
  | [] => false

def hexValue (c : Char) : ℕ :=
  if c.isDigit then c.toNat - 48 else c.toLower.toNat - 87

/-- A percent sign without two hexadecimal digits. -/
def isBadEscape : List Char → Bool
  | '%' :: a :: b :: _ => !(isHex a && isHex b)
  | '%' :: _ => true
  | _ => false

/-- A percent sign with two hexadecimal digits. -/
def isEscape : List Char → Bool
  | '%' :: a :: b :: _ => isHex a && isHex b
  | _ => false

/-- `unquote_to_bytes` -/
def unquoteToBytes : List Char → List UInt8
  | '%' :: a :: b :: rest =>
      if isHex a && isHex b then UInt8.ofNat (16 * hexValue a + hexValue b) :: unquoteToBytes rest
      else 37 :: unquoteToBytes (a :: b :: rest)
  | c :: rest => String.utf8EncodeChar c ++ unquoteToBytes rest
  | [] => []
termination_by value => value.length

/-- `bytes.decode("utf-8", errors="strict")` -/
def decodeUtf8 (bytes : List UInt8) : Option (List Char) :=
  (String.fromUTF8? ⟨bytes.toArray⟩).map String.toList

def hexDigit (n : ℕ) : Char := if n < 10 then Char.ofNat (48 + n) else Char.ofNat (55 + n)

/-- The characters that `quote(segment, safe="-._~")` keeps. -/
def isUnreserved (byte : UInt8) : Bool :=
  let c := Char.ofNat byte.toNat
  byte.toNat < 128 && (c.isAlphanum || c = '-' || c = '.' || c = '_' || c = '~')

def quoteByte (byte : UInt8) : List Char :=
  if isUnreserved byte then [Char.ofNat byte.toNat]
  else ['%', hexDigit (byte.toNat / 16), hexDigit (byte.toNat % 16)]

/-- `quote` -/
def quote (segment : List Char) : List Char :=
  (segment.flatMap String.utf8EncodeChar).flatMap quoteByte

/-- The category `Cc`. -/
def isControl (c : Char) : Bool := c.toNat < 32 || (127 ≤ c.toNat && c.toNat < 160)

def decodeSegment (unicode : UnicodeData) (segment : List Char) : Option (List Char) :=
  if anyTail isBadEscape segment then none
  else
    match decodeUtf8 (unquoteToBytes segment) with
    | none => none
    | some decoded =>
        if unicode.nfc decoded ≠ decoded ∨ decoded = ['.'] ∨ decoded = ['.', '.'] ∨
            '/' ∈ decoded ∨ '\\' ∈ decoded ∨ decoded.any isControl then none
        else some decoded

/-- `parse_resource_uri`: its segments; nothing where it raises. -/
def parseResourceUri (unicode : UnicodeData) (ip : IpCheck) (value : List Char) :
    Option (List (List Char)) :=
  let rest := value.drop cortexScheme.length
  let authority := (cut '/' rest).1
  if ¬cortexScheme.isPrefixOf value ∨ anyTail isEncodedSeparator value ∨ '/' ∉ rest ∨
      ¬isRoot authority then none
  else
    match urlsplit ip value with
    | none => none
    | some parsed =>
        if parsed.scheme ≠ "cortex".toList ∨ parsed.netloc ≠ authority ∨ '@' ∈ parsed.netloc ∨
            parsed.port ≠ some none ∨ parsed.query ≠ [] ∨ parsed.fragment ≠ [] ∨
            parsed.hostname ≠ authority then none
        else
          let segments := (parsed.path.splitOn '/').drop 1
          if segments = [] ∨ [] ∈ segments then none
          else
            match segments.mapM (decodeSegment unicode) with
            | none => none
            | some decoded =>
                if value = cortexScheme ++ authority ++
                    decoded.flatMap fun segment => '/' :: quote segment then some decoded
                else none

/-! ## arXiv pages -/

def arxivLocator (id : ArxivId) : CanonicalLocator where
  authority := .arxiv
  authorityId := id.work
  normalizedLocator := "https://arxiv.org/abs/".toList ++ id.work
  claimKind := .arxiv
  version := id.version

/-- `_ARXIV_PATH_RE`, and that only a PDF has the suffix. -/
def arxivPath (path : List Char) : Option ArxivId :=
  let view := path.take 5
  if view = "/abs/".toList ∨ view = "/pdf/".toList then
    match arxivWork (path.drop 5) with
    | none => none
    | some (work, rest) =>
        let pdf := rest.length ≥ 4 ∧ rest.drop (rest.length - 4) = ".pdf".toList
        if pdf ∧ view = "/abs/".toList then none
        else (arxivVersion ['v'] (if pdf then rest.take (rest.length - 4) else rest)).map (⟨work, ·⟩)
  else none

/-- The parts of a URL without credentials, a port, a query and a fragment. -/
def plainUrl (ip : IpCheck) (value : List Char) : Option SplitResult :=
  match urlsplit ip value with
  | none => none
  | some split =>
      if split.scheme ≠ "https".toList ∨ '@' ∈ split.netloc ∨ split.port ≠ some none ∨
          split.query ≠ [] ∨ split.fragment ≠ [] ∨ anyTail isEscape split.path then none
      else some split

def arxivHosts : List (List Char) := ["arxiv.org".toList, "www.arxiv.org".toList]

/-- `canonicalize_locator`; nothing where it raises. -/
def canonicalizeLocator (ip : IpCheck) (value : List Char) : Option CanonicalLocator :=
  if value = [] ∨ 2000 < value.length ∨ ¬isAscii value then none
  else
    match plainUrl ip value with
    | none => none
    | some split =>
        if split.hostname ∈ arxivHosts then
          (arxivPath split.path).map fun id => { arxivLocator id with claimKind := .url }
        else none

/-! ## DOIs -/

def isDoiChar (c : Char) : Bool :=
  c.isAlphanum || c = '-' || c = '.' || c = '_' || c = ';' || c = '(' || c = ')' || c = '/' ||
    c = ':'

/-- `_DOI_RE` -/
def isDoi (value : List Char) : Bool :=
  match value with
  | '1' :: '0' :: '.' :: rest =>
      let digits := rest.takeWhile Char.isDigit
      match rest.dropWhile Char.isDigit with
      | '/' :: suffix =>
          4 ≤ digits.length && digits.length ≤ 9 && suffix ≠ [] && suffix.all isDoiChar
      | _ => false
  | _ => false

def doiPrefix : List Char := "doi:".toList

def schemeSeparator : List Char := "://".toList

def doiLocator (authorityId : List Char) (claimKind : ClaimKind) : CanonicalLocator where
  authority := .doi
  authorityId := authorityId
  normalizedLocator := "https://doi.org/".toList ++ authorityId
  claimKind := claimKind
  version := none

/-- The token of a DOI, or of its page. -/
def doiCandidate (ip : IpCheck) (candidate : List Char) : Option (List Char) :=
  if lower (candidate.take 4) = doiPrefix then some (candidate.drop 4)
  else if contains schemeSeparator candidate then
    match plainUrl ip candidate with
    | none => none
    | some split =>
        if split.hostname = "doi.org".toList ∧ split.path.head? = some '/' then
          some (split.path.drop 1)
        else none
  else some candidate

/-- `canonicalize_doi`; nothing where it raises. -/
def canonicalizeDoi (ip : IpCheck) (value : List Char) : Option CanonicalLocator :=
  if value = [] ∨ 1000 < value.length ∨ ¬isAscii value then none
  else
    match doiCandidate ip (strip value) with
    | none => none
    | some candidate =>
        if isDoi candidate then
          some (doiLocator (lower candidate)
            (if contains schemeSeparator value then .url else .doi))
        else none

/-! ## All of them -/

/-- `[0-9a-f]{64}`, in either case. -/
def isSha256 (digest : List Char) : Bool := digest.length = 64 && digest.all isHex

/-- `canonicalize_source_locator`; nothing where it raises. -/
def canonicalizeSourceLocator (unicode : UnicodeData) (ip : IpCheck) (value : List Char)
    (localSha256 : Option (List Char)) : Option CanonicalLocator :=
  match normalizeSourceText unicode value 2000 with
  | none => none
  | some value =>
      if cortexScheme.isPrefixOf value then
        match parseResourceUri unicode ip value, localSha256 with
        | some segments, some digest =>
            if segments.all fun segment => (normalizeSourceText unicode segment 1000).isSome then
              if isSha256 digest then
                some ⟨.sha256, lower digest, value, .localFile, none⟩
              else none
            else none
        | _, _ => none
      else if localSha256.isSome then none
      else if contains schemeSeparator value then
        match urlsplit ip value with
        | none => none
        | some split =>
            if split.hostname ∈ arxivHosts then canonicalizeLocator ip value
            else if split.hostname = "doi.org".toList then
              (canonicalizeDoi ip value).map ({ · with claimKind := .url })
            else none
      else if (arxivMatch value).isSome then (canonicalizeArxivId value).map arxivLocator
      else if lower (value.take 4) = doiPrefix ∨ isDoi value then
        (canonicalizeDoi ip value).map ({ · with claimKind := .doi })
      else none

/-! ## What a normalized locator looks like -/

private theorem map_arxivPath {value : List Char} {ip : IpCheck} {locator : CanonicalLocator}
    (h : canonicalizeLocator ip value = some locator) :
    locator.authority = .arxiv ∧
      locator.normalizedLocator = "https://arxiv.org/abs/".toList ++ locator.authorityId := by
  rw [canonicalizeLocator] at h
  split_ifs at h
  split at h
  · cases h
  · split_ifs at h
    obtain ⟨id, -, rfl⟩ := Option.map_eq_some_iff.1 h
    exact ⟨rfl, rfl⟩

private theorem canonicalizeDoi_normalized {value : List Char} {ip : IpCheck}
    {locator : CanonicalLocator} (h : canonicalizeDoi ip value = some locator) :
    locator.authority = .doi ∧
      locator.normalizedLocator = "https://doi.org/".toList ++ locator.authorityId := by
  rw [canonicalizeDoi] at h
  generalize (if contains schemeSeparator value = true then ClaimKind.url else .doi) = kind at h
  split_ifs at h
  split at h
  · cases h
  · split_ifs at h
    obtain rfl := Option.some.inj h
    exact ⟨rfl, rfl⟩

/-- The normalized locator of a paper or a DOI is its page. -/
theorem normalizedLocator_cases {unicode : UnicodeData} {ip : IpCheck} {value : List Char}
    {digest : Option (List Char)} {locator : CanonicalLocator}
    (h : canonicalizeSourceLocator unicode ip value digest = some locator) :
    (locator.authority = .arxiv ∧
      locator.normalizedLocator = "https://arxiv.org/abs/".toList ++ locator.authorityId) ∨
    (locator.authority = .doi ∧
      locator.normalizedLocator = "https://doi.org/".toList ++ locator.authorityId) ∨
    locator.authority = .sha256 := by
  unfold canonicalizeSourceLocator at h
  split at h
  · cases h
  · split_ifs at h
    · split at h
      · split_ifs at h
        obtain rfl := Option.some.inj h
        exact .inr (.inr rfl)
      · cases h
    · split at h
      · cases h
      · split_ifs at h
        · exact .inl (map_arxivPath h)
        · obtain ⟨doi, hdoi, rfl⟩ := Option.map_eq_some_iff.1 h
          obtain ⟨hauthority, hnormalized⟩ := canonicalizeDoi_normalized hdoi
          exact .inr (.inl ⟨hauthority, hnormalized⟩)
    · obtain ⟨id, -, rfl⟩ := Option.map_eq_some_iff.1 h
      exact .inl ⟨rfl, rfl⟩
    · obtain ⟨doi, hdoi, rfl⟩ := Option.map_eq_some_iff.1 h
      obtain ⟨hauthority, hnormalized⟩ := canonicalizeDoi_normalized hdoi
      exact .inr (.inl ⟨hauthority, hnormalized⟩)

end Cortex.Sources
