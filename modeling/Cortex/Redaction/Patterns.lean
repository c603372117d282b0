import Cortex.Library.Regex
import Cortex.Library.Tokens
import Cortex.Xhs.Identify

/-!
# What a failure may say

`redact` brings a text to one line, replaces what looks like a credential, pattern after
pattern, and cuts the line.  The patterns are those of `_PATTERNS` in their order.

What `\w` and `\d` are is a parameter, of which only the ASCII part is known, and that a
decimal digit and the letters that IGNORECASE adds to `[a-z]` are `\w`.
-/

namespace Cortex.Redaction

open PyText Regex Tokens

abbrev Text := List Char

/-- A list is run through, not the type of characters. -/
scoped instance (priority := 2000) {q : Char → Prop} [DecidablePred q] (text : Text) :
    Decidable (∀ c ∈ text, q c) :=
  List.decidableBAll q text

/-! ## Classes of characters -/

/-- `[0-9]` -/
def isNumber (c : Char) : Bool := 48 ≤ c.toNat ∧ c.toNat ≤ 57

/-- `[a-z]` -/
def isSmall (c : Char) : Bool := 97 ≤ c.toNat ∧ c.toNat ≤ 122

/-- `[A-Z]` -/
def isCapital (c : Char) : Bool := 65 ≤ c.toNat ∧ c.toNat ≤ 90

/-- `[0-9A-Za-z]` -/
def isAlnum (c : Char) : Bool := isNumber c || isCapital c || isSmall c

/-- `[A-Za-z0-9_-]` -/
def isKeyChar (c : Char) : Bool := isAlnum c || c = '_' || c = '-'

/-- `[0-9a-fA-F]` -/
def isHex (c : Char) : Bool :=
  isNumber c || (65 ≤ c.toNat ∧ c.toNat ≤ 70 : Bool) || (97 ≤ c.toNat ∧ c.toNat ≤ 102 : Bool)

/-- `[/\s"']` -/
def endsPath (c : Char) : Bool := c = '/' || isSpace c || c = '"' || c = '\''

/-- `[\s"'<>]` -/
def endsQuery (c : Char) : Bool :=
  isSpace c || c = '"' || c = '\'' || c = '<' || c = '>'

/-- `[\s/@]` -/
def endsUserinfo (c : Char) : Bool := isSpace c || c = '/' || c = '@'

/-- The letter that IGNORECASE compares. -/
def fold (c : Char) : Char :=
  if c = 'İ' ∨ c = 'ı' then 'i'
  else if c = 'ſ' then 's'
  else if c = '\u212A' then 'k'
  else if isCapital c then Char.ofNat (c.toNat + 32)
  else c

/-- `[a-z0-9+.-]`, with IGNORECASE -/
def isSchemeChar (c : Char) : Bool :=
  isSmall (fold c) || isNumber c || c = '+' || c = '.' || c = '-'

/-- What the regular expressions take from Unicode. -/
structure CharClasses where
  /-- `\w` -/
  isWord : Char → Bool
  /-- `\d` -/
  isDigit : Char → Bool
  word_ascii : ∀ c, c.toNat < 128 → isWord c = (isAlnum c || c = '_')
  digit_ascii : ∀ c, c.toNat < 128 → isDigit c = isNumber c
  word_of_digit : ∀ c, isDigit c = true → isWord c = true
  not_space_of_word : ∀ c, isWord c = true → isSpace c = false
  word_of_fold : ∀ c, isSmall (fold c) = true → isWord c = true

/-! ## Patterns -/

/-- The characters of a word, one after the other. -/
def literal (word : String) : List (Char → Bool) := word.toList.map fun l c => c = l

/-- The same with IGNORECASE. -/
def ignoreCase (word : String) : List (Char → Bool) := word.toList.map fun l c => fold c = l

/-- The word in `_REDACTED`. -/
def maskWord : Text := ['r', 'e', 'd', 'a', 'c', 't', 'e', 'd']

/-- `_REDACTED` -/
def redacted : Text := '[' :: (maskWord ++ [']'])

variable (classes : CharClasses)

/-- `/bot[^/\s"']+` -/
def botPath : Pattern Char :=
  .seq (.chars (literal "/bot")) (.run (fun c => !endsPath c) 1 none)

/-- `\b\d{5,}:[A-Za-z0-9_-]{20,}` -/
def botToken : Pattern Char :=
  .seq (.look (boundary classes.isWord))
    (.seq (.run classes.isDigit 5 none) (.seq (.chars (literal ":")) (.run isKeyChar 20 none)))

/-- `\bsk-[A-Za-z0-9_-]{16,}` -/
def providerKey : Pattern Char :=
  .seq (.look (boundary classes.isWord))
    (.seq (.chars (literal "sk-")) (.run isKeyChar 16 none))

/-- `(?i)\b([a-z][a-z0-9+.-]*://)[^\s/@]+@` -/
def userinfo : Pattern Char :=
  .seq (.look (boundary classes.isWord))
    (.seq
      (.group
        (.seq (.chars [fun c => isSmall (fold c)])
          (.seq (.run isSchemeChar 0 none) (.chars (literal "://")))))
      (.seq (.run (fun c => !endsUserinfo c) 1 none) (.chars (literal "@"))))

/-- `\?[^\s"'<>]+` -/
def query : Pattern Char :=
  .seq (.chars (literal "?")) (.run (fun c => !endsQuery c) 1 none)

/-- `(?<![0-9A-Za-z])[0-9a-fA-F]{64}(?![0-9A-Za-z])` -/
def hexSecret : Pattern Char :=
  .seq (.look (notBehind isAlnum))
    (.seq (.run isHex 64 (some 64)) (.look (notAhead [isAlnum])))

/-- `(?<![A-Za-z0-9_-])[A-Za-z0-9_-]{43}(?![A-Za-z0-9_-])` -/
def controlToken : Pattern Char :=
  .seq (.look (notBehind isKeyChar))
    (.seq (.run isKeyChar 43 (some 43)) (.look (notAhead [isKeyChar])))

/-- `(?!\[redacted\])\S+`, with IGNORECASE -/
def credential : Pattern Char :=
  .seq (.look (notAhead (ignoreCase "[redacted]"))) (.run (fun c => !isSpace c) 1 none)

/-- `(?i)\bbearer\s+(?!\[redacted\])\S+` -/
def bearer : Pattern Char :=
  .seq (.look (boundary classes.isWord))
    (.seq (.chars (ignoreCase "bearer")) (.seq (.run isSpace 1 none) credential))

/-- `api[_-]?key|token|secret|password|authorization` -/
def secretKey : Pattern Char :=
  .alt
    (.seq (.chars (ignoreCase "api"))
      (.seq (.run (fun c => c = '_' || c = '-') 0 (some 1)) (.chars (ignoreCase "key"))))
    (.alt (.chars (ignoreCase "token"))
      (.alt (.chars (ignoreCase "secret"))
        (.alt (.chars (ignoreCase "password")) (.chars (ignoreCase "authorization")))))

/-- `\s*[=:]\s*` -/
def separator : Pattern Char :=
  .seq (.run isSpace 0 none)
    (.seq (.chars [fun c => c = '=' || c = ':']) (.run isSpace 0 none))

/-- `(?i)\b(api[_-]?key|token|secret|password|authorization)(\s*[=:]\s*)(?!\[redacted\])\S+` -/
def keyValue : Pattern Char :=
  .seq (.look (boundary classes.isWord))
    (.seq (.group secretKey) (.seq (.group separator) credential))

/-- `_PATTERNS`, with what is written in the place of a match. -/
def patterns : List (Pattern Char × List (Slot Char)) :=
  [(botPath, [.text ("/bot".toList ++ redacted)]),
    (botToken classes, [.text redacted]),
    (providerKey classes, [.text redacted]),
    (userinfo classes, [.group 1, .text (redacted ++ "@".toList)]),
    (query, [.text ("?".toList ++ redacted)]),
    (hexSecret, [.text redacted]),
    (controlToken, [.text redacted]),
    (bearer classes, [.text ("Bearer ".toList ++ redacted)]),
    (keyValue classes, [.group 1, .group 2, .text redacted])]

/-! ## The line -/

/-- `" ".join(text.split())` -/
def collapse (text : Text) : Text := join ' ' (Xhs.words text)

/-- The line before it is cut. -/
def maskedLine (text : Text) : Text :=
  (patterns classes).foldl (fun line p => sub p.1 p.2 line) (collapse text)

/-- `line[:limit]` -/
def slice (line : Text) (limit : ℤ) : Text :=
  if 0 ≤ limit then line.take limit.toNat else line.take (line.length - (-limit).toNat)

/-- `redact`, for `str(text)` -/
def redact (text : Text) (limit : ℤ) : Text := slice (maskedLine classes text) limit

/-- Nothing of a redacted line is left to redact: it redacts to itself, and no pattern
replaces anything in it. -/
def Settled (text : Text) (limit : ℤ) : Prop :=
  redact classes (redact classes text limit) limit = redact classes text limit ∧
    ∀ p ∈ patterns classes, sub p.1 p.2 (redact classes text limit) = redact classes text limit

end Cortex.Redaction
