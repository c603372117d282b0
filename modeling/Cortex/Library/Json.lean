import Cortex.Library.Decimal
import Mathlib.Data.Int.Notation
import Mathlib.Data.List.Nodup

/-!
# JSON texts

A parser of JSON documents, with the extensions and refusals of Python's `json`:
`NaN` and the infinities are numbers, raw control characters are refused in
strings, and an object with a repeated key is refused.  A printer of flat
objects writes the compact ASCII form.

The modules `JsonRoundTrip` and `JsonPrefix` prove the two facts that carry a
verification of files made of such texts: a printed object is read back, and no
proper prefix of a printed object is a document, so a torn write is noticed.
-/

namespace Cortex.Json

/-- A JSON value; a number that is not an integer keeps its text. -/
inductive Value
  | null
  | bool (b : Bool)
  | int (n : ℤ)
  | float (text : List Char)
  | str (text : List Char)
  | arr (items : List Value)
  | obj (members : List (List Char × Value))

/-! ## Parsing -/

def isWhitespace (c : Char) : Bool := c = ' ' ∨ c = '\t' ∨ c = '\n' ∨ c = '\r'

def skipWhitespace (s : List Char) : List Char := s.dropWhile isWhitespace

def expect (c : Char) : List Char → Option (List Char)
  | [] => none
  | d :: s => if d = c then some s else none

/-- The value of a hexadecimal digit. -/
def hexValue (c : Char) : Option ℕ :=
  if '0' ≤ c ∧ c ≤ '9' then some (c.toNat - 48)
  else if 'a' ≤ c ∧ c ≤ 'f' then some (c.toNat - 87)
  else if 'A' ≤ c ∧ c ≤ 'F' then some (c.toNat - 55)
  else none

/-- The character a one-letter escape stands for. -/
def simpleEscape (c : Char) : Option Char :=
  if c = '"' ∨ c = '\\' ∨ c = '/' then some c
  else if c = 'b' then some (Char.ofNat 8)
  else if c = 'f' then some (Char.ofNat 12)
  else if c = 'n' then some '\n'
  else if c = 'r' then some '\r'
  else if c = 't' then some '\t'
  else none

/-- The UTF-16 units of a string, up to its closing quote. -/
def scanUnits : List Char → Option (List ℕ × List Char)
  | [] => none
  | c :: s =>
      if c = '"' then some ([], s)
      else if c = '\\' then
        match s with
        | [] => none
        | e :: s =>
            if e = 'u' then
              match s with
              | h₁ :: h₂ :: h₃ :: h₄ :: s => do
                  let d₁ ← hexValue h₁
                  let d₂ ← hexValue h₂
                  let d₃ ← hexValue h₃
                  let d₄ ← hexValue h₄
                  let (units, rest) ← scanUnits s
                  some ((((d₁ * 16 + d₂) * 16 + d₃) * 16 + d₄) :: units, rest)
              | _ => none
            else do
              let d ← simpleEscape e
              let (units, rest) ← scanUnits s
              some (d.toNat :: units, rest)
      else if c.toNat < 32 then none
      else do
        let (units, rest) ← scanUnits s
        some (c.toNat :: units, rest)

attribute [grind =] scanUnits

/-- Units to characters: a surrogate pair is one character, a lone surrogate the replacement. -/
def decodeUnits : List ℕ → List Char
  | [] => []
  | [u] => [if 0xd800 ≤ u ∧ u < 0xe000 then Char.ofNat 0xfffd else Char.ofNat u]
  | u :: v :: us =>
      if 0xd800 ≤ u ∧ u < 0xdc00 ∧ 0xdc00 ≤ v ∧ v < 0xe000 then
        Char.ofNat (0x10000 + (u - 0xd800) * 0x400 + (v - 0xdc00)) :: decodeUnits us
      else (if 0xd800 ≤ u ∧ u < 0xe000 then Char.ofNat 0xfffd else Char.ofNat u) ::
        decodeUnits (v :: us)

def digitsValue (digits : List Char) : ℕ := digits.foldl (fun n c => n * 10 + (c.toNat - 48)) 0

/-- `0`, or digits that do not start with `0`. -/
def scanInteger (s : List Char) : Option (List Char × List Char) :=
  match s with
  | [] => none
  | c :: rest =>
      if c = '0' then some (['0'], rest)
      else if c.isDigit then some (s.span Char.isDigit)
      else none

/-- An optional fraction, or exponent: the text matched, empty when there is none. -/
def scanFraction (s : List Char) : List Char × List Char :=
  match expect '.' s with
  | none => ([], s)
  | some rest =>
      let (digits, rest) := rest.span Char.isDigit
      if digits = [] then ([], s) else ('.' :: digits, rest)

def scanExponent (s : List Char) : List Char × List Char :=
  match s with
  | [] => ([], s)
  | e :: rest =>
      if e = 'e' ∨ e = 'E' then
        let (sign, rest) := match rest with
          | [] => ([], rest)
          | c :: tail => if c = '+' ∨ c = '-' then ([c], tail) else ([], rest)
        let (digits, rest) := rest.span Char.isDigit
        if digits = [] then ([], s) else (e :: sign ++ digits, rest)
      else ([], s)

/-- An optional minus sign. -/
def scanSign (s : List Char) : List Char × List Char :=
  match expect '-' s with
  | some rest => (['-'], rest)
  | none => ([], s)

/-- A number is an integer when it has neither fraction nor exponent. -/
def numberValue (sign integer fraction exponent : List Char) : Value :=
  if fraction = [] ∧ exponent = [] then
    .int (if sign = [] then digitsValue integer else -digitsValue integer)
  else .float (sign ++ integer ++ fraction ++ exponent)

def scanNumber (s : List Char) : Option (Value × List Char) :=
  let sign := scanSign s
  match scanInteger sign.2 with
  | none => none
  | some integer =>
      let fraction := scanFraction integer.2
      let exponent := scanExponent fraction.2
      some (numberValue sign.1 integer.1 fraction.1 exponent.1, exponent.2)

/-- A literal word with its value. -/
def scanWord (word : List Char) (v : Value) (s : List Char) : Option (Value × List Char) :=
  if word.isPrefixOf s then some (v, s.drop word.length) else none

/-- A value that is neither a string nor a container. -/
def scanScalar (s : List Char) : Option (Value × List Char) :=
  (scanWord "null".toList .null s).or <|
  (scanWord "true".toList (.bool true) s).or <|
  (scanWord "false".toList (.bool false) s).or <|
  (scanWord "NaN".toList (.float "NaN".toList) s).or <|
  (scanWord "Infinity".toList (.float "Infinity".toList) s).or <|
  (scanWord "-Infinity".toList (.float "-Infinity".toList) s).or <|
  scanNumber s

mutual

/-- A value at the head of the text; every call consumes a character, so the length is fuel
enough. -/
def value : ℕ → List Char → Option (Value × List Char)
  | 0, _ => none
  | _ + 1, [] => none
  | fuel + 1, c :: s =>
      if c = '"' then do
        let (units, s) ← scanUnits s
        some (.str (decodeUnits units), s)
      else if c = '{' then
        match expect '}' (skipWhitespace s) with
        | some s => some (.obj [], s)
        | none => do
            let (members, s) ← members fuel (skipWhitespace s)
            if (members.map Prod.fst).Nodup then some (.obj members, s) else none
      else if c = '[' then
        match expect ']' (skipWhitespace s) with
        | some s => some (.arr [], s)
        | none => do
            let (items, s) ← items fuel (skipWhitespace s)
            some (.arr items, s)
      else scanScalar (c :: s)

/-- The members of an object, up to its closing bracket. -/
def members : ℕ → List Char → Option (List (List Char × Value) × List Char)
  | 0, _ => none
  | fuel + 1, s => do
      let s ← expect '"' s
      let (units, s) ← scanUnits s
      let s ← expect ':' (skipWhitespace s)
      let (v, s) ← value fuel (skipWhitespace s)
      match expect ',' (skipWhitespace s) with
      | some s => do
          let (rest, s) ← members fuel (skipWhitespace s)
          some ((decodeUnits units, v) :: rest, s)
      | none => do
          let s ← expect '}' (skipWhitespace s)
          some ([(decodeUnits units, v)], s)

/-- The items of an array, up to its closing bracket. -/
def items : ℕ → List Char → Option (List Value × List Char)
  | 0, _ => none
  | fuel + 1, s => do
      let (v, s) ← value fuel s
      match expect ',' (skipWhitespace s) with
      | some s => do
          let (rest, s) ← items fuel (skipWhitespace s)
          some (v :: rest, s)
      | none => do
          let s ← expect ']' (skipWhitespace s)
          some ([v], s)

end

attribute [grind =] value members items

/-- A document: one value with white space around it. -/
def loads (s : List Char) : Option Value :=
  match value (s.length + 1) (skipWhitespace s) with
  | none => none
  | some (v, rest) => if skipWhitespace rest = [] then some v else none

/-! ## Printing -/

/-- A hexadecimal digit, in lower case. -/
def hexDigit (n : ℕ) : Char := if n < 10 then Char.ofNat (48 + n) else Char.ofNat (87 + n)

/-- `\uXXXX`. -/
def escapeUnit (u : ℕ) : List Char :=
  ['\\', 'u', hexDigit (u / 4096 % 16), hexDigit (u / 256 % 16), hexDigit (u / 16 % 16),
    hexDigit (u % 16)]

/-- The UTF-16 units of a character. -/
def unitsOf (c : Char) : List ℕ :=
  if c.toNat < 0x10000 then [c.toNat]
  else [0xd800 + (c.toNat - 0x10000) / 0x400, 0xdc00 + (c.toNat - 0x10000) % 0x400]

/-- A character inside a string, everything but printable ASCII escaped. -/
def escapeChar (c : Char) : List Char :=
  if c = '"' ∨ c = '\\' then ['\\', c]
  else if c = '\n' then ['\\', 'n']
  else if c = '\r' then ['\\', 'r']
  else if c = '\t' then ['\\', 't']
  else if c.toNat = 8 then ['\\', 'b']
  else if c.toNat = 12 then ['\\', 'f']
  else if 32 ≤ c.toNat ∧ c.toNat < 127 then [c]
  else (unitsOf c).flatMap escapeUnit

def dumpString (text : List Char) : List Char := '"' :: (text.flatMap escapeChar ++ ['"'])

/-- The decimal digits of a number below `fuel`. -/
def natDigits : ℕ → ℕ → List Char
  | 0, _ => []
  | fuel + 1, n =>
      if n < 10 then [Decimal.digit n] else natDigits fuel (n / 10) ++ [Decimal.digit (n % 10)]

def dumpNat (n : ℕ) : List Char := natDigits (n + 1) n

/-- A member value of a flat object. -/
inductive Scalar
  | null
  | nat (n : ℕ)
  | number (text : List Char)
  | str (text : List Char)

def dumpScalar : Scalar → List Char
  | .null => "null".toList
  | .nat n => dumpNat n
  | .number text => text
  | .str text => dumpString text

def dumpMember (member : List Char × Scalar) : List Char :=
  dumpString member.1 ++ ':' :: dumpScalar member.2

/-- The members of an object with its closing bracket. -/
def dumpMembers : List (List Char × Scalar) → List Char
  | [] => ['}']
  | [member] => dumpMember member ++ ['}']
  | member :: rest => dumpMember member ++ ',' :: dumpMembers rest

/-- A flat object, without white space. -/
def dumps (members : List (List Char × Scalar)) : List Char := '{' :: dumpMembers members

end Cortex.Json
