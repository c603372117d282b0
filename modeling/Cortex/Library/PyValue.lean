import Mathlib.Data.Rat.Defs
import Mathlib.Data.List.Basic
import Mathlib.Algebra.Group.Nat.Defs

/-!
# Values of a dynamic language, and which of them JSON can write

A `dict` is its items in the order of their insertion.  What JSON cannot write is
any other object, a key that is not a scalar, keys that cannot be sorted, an
integer of too many digits and a nesting that is too deep; with `ensure_ascii`
off also a surrogate, which UTF-8 does not encode, and with `allow_nan` off the
floats that are not finite.
-/

namespace Cortex.Py

/-- A code point; unlike a `Char` it may be a surrogate. -/
abbrev CodePoint := Fin 0x110000

instance codePoint_ne_zero : @NeZero ℕ Zero.ofOfNat0 0x110000 := ⟨Nat.succ_ne_zero _⟩

/-- There are UTF-16 units. -/
instance unit_ne_zero : @NeZero ℕ Zero.ofOfNat0 0x10000 := ⟨Nat.succ_ne_zero _⟩

abbrev Str := List CodePoint

theorem char_lt (c : Char) : c.toNat < 0x110000 := by
  have h := c.valid
  rcases h with h | ⟨-, h⟩
  · exact lt_trans h (by decide)
  · exact h

/-- The code points of a text; none is a surrogate. -/
def ofChars (text : List Char) : Str := text.map fun c => ⟨c.toNat, char_lt c⟩

def hasNul (text : Str) : Bool := text.any fun c => c.val = 0

/-- A text of the source. -/
def lit (text : String) : Str := ofChars text.toList

@[simp] theorem lit_inj {text other : String} : lit text = lit other ↔ text = other := by
  constructor
  · intro h
    refine String.toList_injective (List.map_injective_iff.2 (fun c d hcd => ?_) h)
    have hval : c.toNat = d.toNat := Fin.mk.inj hcd
    exact Char.toNat_inj.1 hval
  · exact congrArg lit

/-- UTF-8 encodes the text. -/
def Str.IsUtf8 (s : Str) : Prop := ∀ c ∈ s, c.val < 0xD800 ∨ 0xDFFF < c.val

instance (s : Str) : Decidable s.IsUtf8 :=
  List.decidableBAll (fun c : CodePoint => c.val < 0xD800 ∨ 0xDFFF < c.val) s

@[simp] theorem isUtf8_nil : Str.IsUtf8 [] := by
  intro c hc
  cases hc

theorem isUtf8_lit (text : String) : (lit text).IsUtf8 := by
  intro c hc
  obtain ⟨char, -, rfl⟩ := List.mem_map.1 hc
  rcases char.valid with h | ⟨h, -⟩
  · exact .inl h
  · exact .inr h

inductive PyFloat
  | finite (value : ℚ)
  | infinite (negative : Bool)
  | nan

inductive Value
  | none
  | bool (value : Bool)
  | int (value : ℤ)
  | float (value : PyFloat)
  | str (value : Str)
  /-- A list, or a tuple if it is frozen. -/
  | seq (frozen : Bool) (items : List Value)
  | dict (items : List (Value × Value))
  /-- Any other object; its truth, unless taking it raises. -/
  | object (truth : Option Bool) (hashable : Bool)

abbrev Fields := List (Value × Value)

namespace Value

/-- `bool(value)`. -/
def truth : Value → Option Bool
  | none => some false
  | bool value => some value
  | int value => some (value ≠ 0)
  | float (.finite value) => some (value ≠ 0)
  | float _ => some true
  | str value => some !value.isEmpty
  | seq _ items => some !items.isEmpty
  | dict items => some !items.isEmpty
  | object truth _ => truth

mutual

/-- The value can be a key of a `dict`. -/
def hashable : Value → Bool
  | seq frozen items => frozen && allHashable items
  | dict _ => false
  | object _ hashable => hashable
  | _ => true

def allHashable : List Value → Bool
  | [] => true
  | item :: items => item.hashable && allHashable items

end

def isStr : Value → Bool
  | str _ => true
  | _ => false

def isNumber : Value → Bool
  | bool _ | int _ | float _ => true
  | _ => false

/-- JSON turns these keys into text. -/
def isScalar : Value → Bool
  | none | bool _ | int _ | float _ | str _ => true
  | _ => false

end Value

/-! ## Fields -/

/-- `fields.get(name)`, or nothing. -/
def Fields.get? (fields : Fields) (name : Str) : Option Value :=
  (fields.find? fun item =>
    match item.1 with
    | .str key => key = name
    | _ => false).map Prod.snd

/-- `fields[name] = value`. -/
def Fields.set (fields : Fields) (name : Str) (value : Value) : Fields :=
  if (fields.get? name).isSome then
    fields.map fun item =>
      match item.1 with
      | .str key => if key = name then (item.1, value) else item
      | _ => item
  else fields ++ [(.str name, value)]

/-- `{name: value}`, the keys in this order. -/
def fieldsOf (items : List (String × Value)) : Fields :=
  items.map fun item => (.str (lit item.1), item.2)

@[simp] theorem Fields.get?_fieldsOf_nil (wanted : Str) :
    Fields.get? (fieldsOf []) wanted = none := rfl

@[simp] theorem Fields.get?_fieldsOf_cons (name : String) (value : Value)
    (items : List (String × Value)) (wanted : Str) :
    Fields.get? (fieldsOf ((name, value) :: items)) wanted =
      if lit name = wanted then some value else Fields.get? (fieldsOf items) wanted := by
  unfold Fields.get? fieldsOf
  rw [List.map_cons, List.find?_cons]
  by_cases h : lit name = wanted <;> simp [h]

/-! ## Writing JSON -/

/-- The limits of a process: the digits of an integer, and the nesting of containers. -/
structure JsonLimits where
  digits : ℕ
  depth : ℕ

/-- The arguments of `json.dumps` that decide what it can write. -/
structure JsonOptions where
  ensureAscii : Bool
  allowNan : Bool

namespace JsonOptions

variable (O : JsonOptions) (digits : ℕ)

/-- The scalars that JSON writes. -/
def writesScalar : Value → Bool
  | .none | .bool _ | .float (.finite _) => true
  | .int value => value.natAbs < 10 ^ digits
  | .float _ => O.allowNan
  | .str value => O.ensureAscii || decide value.IsUtf8
  | _ => false

/-- `sort_keys` can compare the keys. -/
def sortsKeys (keys : List Value) : Bool :=
  keys.all Value.isStr || keys.all Value.isNumber || keys.length ≤ 1

/-- `json.dumps(value, sort_keys=True)` writes the value, with so much nesting left. -/
def writes : ℕ → Value → Bool
  | depth + 1, .seq _ items => items.all (writes depth)
  | depth + 1, .dict items =>
      sortsKeys (items.map Prod.fst) &&
        items.all fun item => O.writesScalar digits item.1 && writes depth item.2
  | _, value => O.writesScalar digits value

variable {O digits} {depth : ℕ}

@[simp] theorem writes_none : O.writes digits depth .none = true := by
  cases depth <;> rfl

@[simp] theorem writes_bool (value : Bool) : O.writes digits depth (.bool value) = true := by
  cases depth <;> rfl

@[simp] theorem writes_int (value : ℤ) :
    O.writes digits depth (.int value) = decide (value.natAbs < 10 ^ digits) := by
  cases depth <;> rfl

@[simp] theorem writes_str (value : Str) :
    O.writes digits depth (.str value) = (O.ensureAscii || decide value.IsUtf8) := by
  cases depth <;> rfl

@[simp] theorem writes_seq (frozen : Bool) (items : List Value) :
    O.writes digits (depth + 1) (.seq frozen items) = items.all (O.writes digits depth) := rfl

theorem all_isStr_fieldsOf (items : List (String × Value)) :
    ((fieldsOf items).map Prod.fst).all Value.isStr = true := by
  rw [List.all_eq_true]
  intro key hkey
  simp only [fieldsOf, List.map_map, List.mem_map] at hkey
  obtain ⟨item, -, rfl⟩ := hkey
  rfl

/-- Keys that the source spells out are written. -/
@[simp] theorem writes_fieldsOf (items : List (String × Value)) :
    O.writes digits (depth + 1) (.dict (fieldsOf items)) =
      items.all fun item => O.writes digits depth item.2 := by
  have hkey : ∀ text : String, O.writesScalar digits (.str (lit text)) = true := by
    intro text
    simp [writesScalar, isUtf8_lit text]
  have hitems : ∀ items : List (String × Value),
      ((fieldsOf items).all fun item =>
          O.writesScalar digits item.1 && O.writes digits depth item.2) =
        items.all fun item => O.writes digits depth item.2 := by
    intro items
    induction items with
    | nil => rfl
    | cons item items ih =>
        rw [fieldsOf, List.map_cons, List.all_cons, List.all_cons, hkey, Bool.true_and]
        exact congrArg _ ih
  rw [writes, hitems, sortsKeys, all_isStr_fieldsOf, Bool.true_or, Bool.true_or, Bool.true_and]

end JsonOptions

end Cortex.Py
