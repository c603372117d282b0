import Cortex.Library.PyJson
import Mathlib

/-!
# Writing JSON as a dynamic language does

`dump` is `json.dumps` with sorted keys, without white space and in ASCII.  Keys
are texts; a key of another kind, which `json.dumps` would turn into a text, is
left out, as is a tuple, which it would turn into a list.
-/

namespace Cortex.PyJson

open Py

/-- The floats of a language: `float` of a text, `float.__repr__` of a finite one, and the numbers
that are floats.  JSON reads what is written for a float as that float. -/
structure Floats where
  read : Str → PyFloat
  repr : ℚ → Str
  IsFloat : ℚ → Prop
  isFloat_of_read : ∀ {text : Str} {q : ℚ}, read text = .finite q → IsFloat q
  scanNumber_repr : ∀ {q : ℚ}, IsFloat q → ∀ (limits : JsonLimits) (closed : Bool),
    scanNumber ⟨limits, read, closed⟩ (repr q) = .ok (.float (.finite q), [])

/-! ## Strings -/

/-- A hexadecimal digit, in lower case. -/
def hexPoint (n : Fin 16) : CodePoint :=
  if h : n.val < 10 then ⟨48 + n.val, by omega⟩ else ⟨87 + n.val, by omega⟩

/-- `\uXXXX`. -/
def escapeUnit (u : ℕ) : Str :=
  [cp '\\', cp 'u', hexPoint (Fin.ofNat 16 (u / 4096)), hexPoint (Fin.ofNat 16 (u / 256)),
    hexPoint (Fin.ofNat 16 (u / 16)), hexPoint (Fin.ofNat 16 u)]

/-- The UTF-16 units of a code point; a surrogate is one unit. -/
def unitsOf (c : CodePoint) : List ℕ :=
  if c.val < 0x10000 then [c.val]
  else [0xD800 + (c.val - 0x10000) / 0x400, 0xDC00 + (c.val - 0x10000) % 0x400]

/-- The letter of a one-letter escape. -/
def escapeLetter (c : CodePoint) : Option CodePoint :=
  if c = cp '"' ∨ c = cp '\\' then some c
  else if c = 10 then some (cp 'n')
  else if c = 13 then some (cp 'r')
  else if c = 9 then some (cp 't')
  else if c = 8 then some (cp 'b')
  else if c = 12 then some (cp 'f')
  else none

/-- A code point inside a string, everything but printable ASCII escaped. -/
def escapePoint (c : CodePoint) : Str :=
  match escapeLetter c with
  | some letter => [cp '\\', letter]
  | none => if 32 ≤ c.val ∧ c.val < 127 then [c] else (unitsOf c).flatMap escapeUnit

def dumpString (text : Str) : Str := cp '"' :: (text.flatMap escapePoint ++ [cp '"'])

/-! ## Numbers -/

/-- The digit of a number below ten. -/
def digitPoint (d : ℕ) : CodePoint := Fin.ofNat 0x110000 (48 + d)

def dumpNat (n : ℕ) : Str :=
  if n = 0 then [digitPoint 0] else (Nat.digits 10 n).reverse.map digitPoint

/-- `int.__repr__`; an integer of too many digits raises. -/
def dumpInt (limits : JsonLimits) (n : ℤ) : Option Str :=
  if (dumpNat n.natAbs).length ≤ limits.digits then
    some (if n < 0 then cp '-' :: dumpNat n.natAbs else dumpNat n.natAbs)
  else none

/-! ## Values -/

/-- The texts with commas between them. -/
def commaSeparated : List Str → Str
  | [] => []
  | [text] => text
  | text :: rest => text ++ cp ',' :: commaSeparated rest

/-- The items of a `dict` whose keys are texts. -/
def textItems (fields : Fields) : Option (List (Str × Value)) :=
  fields.mapM fun item =>
    match item.1 with
    | .str key => some (key, item.2)
    | _ => none

/-- `sorted(items)`, for keys that differ. -/
def sortItems (items : List (Str × Value)) : List (Str × Value) :=
  items.insertionSort fun item other => item.1 ≤ other.1

theorem sortItems_perm (items : List (Str × Value)) : (sortItems items).Perm items :=
  List.perm_insertionSort _ items

section Dump

variable (limits : JsonLimits) (F : Floats)

def dumpFloat : PyFloat → Str
  | .finite q => F.repr q
  | .infinite false => lit "Infinity"
  | .infinite true => lit "-Infinity"
  | .nan => lit "NaN"

def dumpMember (key text : Str) : Str := dumpString key ++ cp ':' :: text

/-- `json.dumps(value, sort_keys=True, separators=(",", ":"))`, with so much nesting left; nothing
where it raises. -/
def dump : ℕ → Value → Option Str
  | _, .none => some (lit "null")
  | _, .bool true => some (lit "true")
  | _, .bool false => some (lit "false")
  | _, .int n => dumpInt limits n
  | _, .float value => some (dumpFloat F value)
  | _, .str text => some (dumpString text)
  | depth + 1, .seq false items => do
      let texts ← items.mapM (dump depth)
      some (cp '[' :: (commaSeparated texts ++ [cp ']']))
  | depth + 1, .dict fields => do
      let items ← textItems fields
      let texts ← (sortItems items).mapM fun item => (dump depth item.2).map (dumpMember item.1)
      some (cp '{' :: (commaSeparated texts ++ [cp '}']))
  | _, _ => none

/-- `json.dumps` under the limits of the process. -/
def dumps (value : Value) : Option Str := dump limits F limits.depth value

end Dump

/-! ## What JSON represents -/

/-- The values that JSON represents: the keys are texts and differ, and every text, of a key too,
has the property `P`. -/
inductive IsJson (F : Floats) (P : Str → Prop) : Value → Prop
  | none : IsJson F P .none
  | bool (value : Bool) : IsJson F P (.bool value)
  | int (n : ℤ) : IsJson F P (.int n)
  | float {value : PyFloat} : (∀ q, value = .finite q → F.IsFloat q) → IsJson F P (.float value)
  | str {text : Str} : P text → IsJson F P (.str text)
  | seq {items : List Value} : (∀ item ∈ items, IsJson F P item) → IsJson F P (.seq false items)
  | dict {items : List (Str × Value)} :
      (items.map Prod.fst).Nodup → (∀ item ∈ items, P item.1) →
      (∀ item ∈ items, IsJson F P item.2) →
      IsJson F P (.dict (items.map fun item => (.str item.1, item.2)))

/-- Equal values: a `dict` does not remember the order of its items. -/
inductive Same : Value → Value → Prop
  | refl (value : Value) : Same value value
  | seq {frozen : Bool} {items others : List Value} :
      List.Forall₂ Same items others → Same (.seq frozen items) (.seq frozen others)
  | dict {items moved others : Fields} :
      items.Perm moved → moved.map Prod.fst = others.map Prod.fst →
      List.Forall₂ Same (moved.map Prod.snd) (others.map Prod.snd) →
      Same (.dict items) (.dict others)

/-- A high surrogate and a low one. -/
def IsPair (c d : CodePoint) : Prop :=
  0xD800 ≤ c.val ∧ c.val < 0xDC00 ∧ 0xDC00 ≤ d.val ∧ d.val < 0xE000

instance (c d : CodePoint) : Decidable (IsPair c d) := inferInstanceAs (Decidable (_ ∧ _))

/-- A text that nowhere has a high surrogate directly followed by a low one. -/
def Str.Unpaired (text : Str) : Prop := text.IsChain fun c d => ¬IsPair c d

instance (text : Str) : Decidable (Str.Unpaired text) :=
  inferInstanceAs (Decidable (text.IsChain fun c d => ¬IsPair c d))

end Cortex.PyJson
