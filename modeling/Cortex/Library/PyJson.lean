import Cortex.Library.PyValue

/-!
# Reading JSON as a dynamic language does

`loads` reads a document from code points.  What it raises is told apart, because
callers catch different things: a text that is not JSON, an integer of too many
digits, a nesting that is too deep, and a repeated key, if the caller refuses
those.  The first of them in the text is raised.
-/

namespace Cortex.PyJson

open Py

inductive LoadError
  | notJson
  | tooManyDigits
  | tooDeep
  | repeatedKey
  deriving DecidableEq

/-- A character of the grammar. -/
def cp (c : Char) : CodePoint := ⟨c.toNat, char_lt c⟩

def isWhitespace (c : CodePoint) : Bool :=
  c = cp ' ' ∨ c = cp '\t' ∨ c = cp '\n' ∨ c = cp '\r'

def skipWhitespace (s : Str) : Str := s.dropWhile isWhitespace

def expect (wanted : Char) : Str → Option Str
  | [] => none
  | c :: s => if c = cp wanted then some s else none

def require (wanted : Char) (s : Str) : Except LoadError Str :=
  match expect wanted s with
  | some s => .ok s
  | none => .error .notJson

/-! ## Strings -/

def hexValue (c : CodePoint) : Option ℕ :=
  if 48 ≤ c.val ∧ c.val ≤ 57 then some (c.val - 48)
  else if 97 ≤ c.val ∧ c.val ≤ 102 then some (c.val - 87)
  else if 65 ≤ c.val ∧ c.val ≤ 70 then some (c.val - 55)
  else none

/-- The character a one-letter escape stands for. -/
def simpleEscape (c : CodePoint) : Option CodePoint :=
  if c = cp '"' ∨ c = cp '\\' ∨ c = cp '/' then some c
  else if c = cp 'b' then some 8
  else if c = cp 'f' then some 12
  else if c = cp 'n' then some 10
  else if c = cp 'r' then some 13
  else if c = cp 't' then some 9
  else none

/-- A code point of a string, or a unit of UTF-16 that was escaped. -/
inductive Piece
  | point (c : CodePoint)
  | unit (u : Fin 0x10000)

def hexUnit (h₁ h₂ h₃ h₄ : CodePoint) : Option (Fin 0x10000) := do
  let d₁ ← hexValue h₁
  let d₂ ← hexValue h₂
  let d₃ ← hexValue h₃
  let d₄ ← hexValue h₄
  pure (Fin.ofNat 0x10000 (((d₁ * 16 + d₂) * 16 + d₃) * 16 + d₄))

/-- The pieces of a string, up to its closing quote. -/
def scanPieces : Str → Option (List Piece × Str)
  | [] => none
  | c :: s =>
      if c = cp '"' then some ([], s)
      else if c = cp '\\' then
        match s with
        | [] => none
        | e :: s =>
            if e = cp 'u' then
              match s with
              | h₁ :: h₂ :: h₃ :: h₄ :: s => do
                  let u ← hexUnit h₁ h₂ h₃ h₄
                  let (pieces, rest) ← scanPieces s
                  some (.unit u :: pieces, rest)
              | _ => none
            else do
              let d ← simpleEscape e
              let (pieces, rest) ← scanPieces s
              some (.point d :: pieces, rest)
      else if c.val < 32 then none
      else do
        let (pieces, rest) ← scanPieces s
        some (.point c :: pieces, rest)

def ofUnit (u : Fin 0x10000) : CodePoint := ⟨u.val, lt_trans u.isLt (by decide)⟩

/-- Two escaped units that are a surrogate pair are one code point. -/
def joinPieces : List Piece → Str
  | [] => []
  | .point c :: rest => c :: joinPieces rest
  | .unit u :: .unit v :: rest =>
      if 0xD800 ≤ u.val ∧ u.val < 0xDC00 ∧ 0xDC00 ≤ v.val ∧ v.val < 0xE000 then
        Fin.ofNat 0x110000 (0x10000 + (u.val - 0xD800) * 0x400 + (v.val - 0xDC00)) ::
          joinPieces rest
      else ofUnit u :: joinPieces (.unit v :: rest)
  | .unit u :: rest => ofUnit u :: joinPieces rest

def scanString (s : Str) : Except LoadError (Str × Str) :=
  match scanPieces s with
  | some (pieces, rest) => .ok (joinPieces pieces, rest)
  | none => .error .notJson

/-! ## Numbers -/

def isDigit (c : CodePoint) : Bool := 48 ≤ c.val ∧ c.val ≤ 57

def digitsValue (digits : Str) : ℕ := digits.foldl (fun n c => n * 10 + (c.val - 48)) 0

/-- `0`, or digits that do not start with `0`. -/
def scanInteger : Str → Option (Str × Str)
  | [] => none
  | c :: rest =>
      if c = cp '0' then some ([c], rest)
      else if isDigit c then some ((c :: rest).span isDigit)
      else none

/-- An optional fraction; the text matched, empty when there is none. -/
def scanFraction (s : Str) : Str × Str :=
  match expect '.' s with
  | none => ([], s)
  | some rest =>
      let (digits, rest) := rest.span isDigit
      if digits = [] then ([], s) else (cp '.' :: digits, rest)

/-- An optional exponent. -/
def scanExponent (s : Str) : Str × Str :=
  match s with
  | [] => ([], s)
  | e :: rest =>
      if e = cp 'e' ∨ e = cp 'E' then
        let (sign, rest) := match rest with
          | [] => ([], rest)
          | c :: tail => if c = cp '+' ∨ c = cp '-' then ([c], tail) else ([], rest)
        let (digits, rest) := rest.span isDigit
        if digits = [] then ([], s) else (e :: sign ++ digits, rest)
      else ([], s)

/-- How documents are read: the limits of the process, what `float` makes of a text, and whether
a repeated key is refused. -/
structure Loader where
  limits : JsonLimits
  toFloat : Str → PyFloat
  closed : Bool

section Load

variable (L : Loader)

def numberValue (sign integer fraction exponent : Str) : Except LoadError Value :=
  if fraction = [] ∧ exponent = [] then
    if integer.length ≤ L.limits.digits then
      .ok (.int (if sign = [] then digitsValue integer else -digitsValue integer))
    else .error .tooManyDigits
  else .ok (.float (L.toFloat (sign ++ integer ++ fraction ++ exponent)))

def scanNumber (s : Str) : Except LoadError (Value × Str) :=
  let (sign, rest) :=
    match expect '-' s with
    | some rest => ([cp '-'], rest)
    | none => ([], s)
  match scanInteger rest with
  | none => .error .notJson
  | some (integer, rest) => do
      let (fraction, rest) := scanFraction rest
      let (exponent, rest) := scanExponent rest
      let number ← numberValue L sign integer fraction exponent
      pure (number, rest)

/-! ## Documents -/

/-- The words that stand for a value. -/
def words : List (String × Value) :=
  [("null", .none), ("true", .bool true), ("false", .bool false), ("NaN", .float .nan),
    ("Infinity", .float (.infinite false)), ("-Infinity", .float (.infinite true))]

def scanScalar (s : Str) : Except LoadError (Value × Str) :=
  match words.find? fun word => (lit word.1).isPrefixOf s with
  | some word => .ok (word.2, s.drop word.1.length)
  | none => scanNumber L s

/-- The `dict` of the pairs of an object; a repeated key takes the last value. -/
def dictOf (pairs : List (Str × Value)) : Fields :=
  pairs.foldl (fun fields pair => fields.set pair.1 pair.2) []

/-- The value of an object. -/
def objectValue (pairs : List (Str × Value)) : Except LoadError Value :=
  if L.closed = true ∧ ¬(pairs.map Prod.fst).Nodup then .error .repeatedKey
  else .ok (.dict (dictOf pairs))

mutual

/-- A value at the head of the text, with so much nesting left; every call consumes a code
point, so the length is fuel enough. -/
def value : ℕ → ℕ → Str → Except LoadError (Value × Str)
  | 0, _, _ => .error .notJson
  | _ + 1, _, [] => .error .notJson
  | fuel + 1, depth, c :: s =>
      if c = cp '"' then do
        let (text, s) ← scanString s
        pure (.str text, s)
      else if c = cp '{' then
        match depth with
        | 0 => .error .tooDeep
        | depth + 1 =>
            match expect '}' (skipWhitespace s) with
            | some s => do pure (← objectValue L [], s)
            | none => do
                let (pairs, s) ← members fuel depth (skipWhitespace s)
                pure (← objectValue L pairs, s)
      else if c = cp '[' then
        match depth with
        | 0 => .error .tooDeep
        | depth + 1 =>
            match expect ']' (skipWhitespace s) with
            | some s => .ok (.seq false [], s)
            | none => do
                let (items, s) ← items fuel depth (skipWhitespace s)
                pure (.seq false items, s)
      else scanScalar L (c :: s)

/-- The members of an object, up to its closing bracket. -/
def members : ℕ → ℕ → Str → Except LoadError (List (Str × Value) × Str)
  | 0, _, _ => .error .notJson
  | fuel + 1, depth, s => do
      let s ← require '"' s
      let (key, s) ← scanString s
      let s ← require ':' (skipWhitespace s)
      let (v, s) ← value fuel depth (skipWhitespace s)
      match expect ',' (skipWhitespace s) with
      | some s => do
          let (rest, s) ← members fuel depth (skipWhitespace s)
          pure ((key, v) :: rest, s)
      | none => do
          let s ← require '}' (skipWhitespace s)
          pure ([(key, v)], s)

/-- The items of an array, up to its closing bracket. -/
def items : ℕ → ℕ → Str → Except LoadError (List Value × Str)
  | 0, _, _ => .error .notJson
  | fuel + 1, depth, s => do
      let (v, s) ← value fuel depth s
      match expect ',' (skipWhitespace s) with
      | some s => do
          let (rest, s) ← items fuel depth (skipWhitespace s)
          pure (v :: rest, s)
      | none => do
          let s ← require ']' (skipWhitespace s)
          pure ([v], s)

end

/-- A document: one value with white space around it. -/
def loads (s : Str) : Except LoadError Value := do
  let (v, rest) ← value L (s.length + 1) L.limits.depth (skipWhitespace s)
  if skipWhitespace rest = [] then pure v else throw .notJson

end Load

/-! ## Refusing repeated keys -/

section Opened

variable {L : Loader} {α β : Type}

/-- The same loader with repeated keys let through. -/
def Loader.opened (L : Loader) : Loader := { L with closed := false }

/-- What one reading accepts, another one accepts with the same result. -/
def Opens (x y : Except LoadError α) : Prop := ∀ result, x = .ok result → y = .ok result

private theorem opens_refl (x : Except LoadError α) : Opens x x := fun _ h => h

private theorem Opens.bind {x y : Except LoadError α} {f g : α → Except LoadError β}
    (hx : Opens x y) (hf : ∀ a, Opens (f a) (g a)) : Opens (x >>= f) (y >>= g) := by
  intro result h
  cases x with
  | error error => cases h
  | ok a =>
      rw [hx a rfl]
      exact hf a result h

private theorem scanScalar_opened (s : Str) : scanScalar L.opened s = scanScalar L s := rfl

private theorem objectValue_opens (pairs : List (Str × Value)) :
    Opens (objectValue L pairs) (objectValue L.opened pairs) := by
  intro result h
  unfold objectValue at h
  split at h
  · cases h
  · exact h

private theorem value_opens (fuel : ℕ) :
    (∀ depth s, Opens (value L fuel depth s) (value L.opened fuel depth s)) ∧
    (∀ depth s, Opens (members L fuel depth s) (members L.opened fuel depth s)) ∧
    ∀ depth s, Opens (items L fuel depth s) (items L.opened fuel depth s) := by
  induction fuel with
  | zero => exact ⟨fun _ _ => opens_refl _, fun _ _ => opens_refl _, fun _ _ => opens_refl _⟩
  | succ fuel ih =>
      obtain ⟨hvalue, hmembers, hitems⟩ := ih
      refine ⟨fun depth s => ?_, fun depth s => ?_, fun depth s => ?_⟩
      · cases s with
        | nil => exact opens_refl _
        | cons c s =>
            unfold value
            by_cases hquote : c = cp '"'
            · simp only [if_pos hquote]
              exact opens_refl _
            · simp only [if_neg hquote]
              by_cases hbrace : c = cp '{'
              · simp only [if_pos hbrace]
                cases depth with
                | zero => exact opens_refl _
                | succ depth =>
                    cases expect '}' (skipWhitespace s) with
                    | some rest => exact (objectValue_opens []).bind fun _ => opens_refl _
                    | none =>
                        refine (hmembers _ _).bind fun members => ?_
                        exact (objectValue_opens _).bind fun _ => opens_refl _
              · simp only [if_neg hbrace]
                by_cases hbracket : c = cp '['
                · simp only [if_pos hbracket]
                  cases depth with
                  | zero => exact opens_refl _
                  | succ depth =>
                      cases expect ']' (skipWhitespace s) with
                      | some rest => exact opens_refl _
                      | none => exact (hitems _ _).bind fun _ => opens_refl _
                · simp only [if_neg hbracket]
                  rw [scanScalar_opened]
                  exact opens_refl _
      · unfold members
        refine (opens_refl _).bind fun s => (opens_refl _).bind fun key =>
          (opens_refl _).bind fun s => (hvalue _ _).bind fun v => ?_
        dsimp only
        cases expect ',' (skipWhitespace v.2) with
        | some rest => exact (hmembers _ _).bind fun _ => opens_refl _
        | none => exact opens_refl _
      · unfold items
        refine (hvalue _ _).bind fun v => ?_
        dsimp only
        cases expect ',' (skipWhitespace v.2) with
        | some rest => exact (hitems _ _).bind fun _ => opens_refl _
        | none => exact opens_refl _

/-- A document that is read without a repeated key is read the same when those are let
through. -/
theorem loads_opened {s : Str} {result : Value} (h : loads L s = .ok result) :
    loads L.opened s = .ok result := by
  refine Opens.bind ((value_opens _).1 _ _) (fun a => ?_) result h
  exact opens_refl _

end Opened

end Cortex.PyJson
