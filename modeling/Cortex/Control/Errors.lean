import Cortex.Library.Transaction
import Mathlib.Data.Int.Notation
import Mathlib.Data.Nat.Notation

/-!
# Errors and argument checks of the control store

Every command of the store runs in one `BEGIN IMMEDIATE` transaction and either
commits or raises one of these errors, which rolls the transaction back.
-/

namespace Cortex.Control

open Transaction

/-- What a command of the store raises. -/
inductive StoreError
  | valueError (message : String)
  | notFound (resource : String)
  | idempotencyConflict
  | revisionConflict
  | threadActiveRun
  | threadArchived
  | invalidTransition (source target : String)
  | machineRunRefused
  | captureConflict
  /-- A constraint of the database refused a row. -/
  | integrityError
  /-- `datetime` arithmetic left the representable range. -/
  | overflowError
  | runtimeError (message : String)
  deriving DecidableEq

/-- Python text, as its code points. -/
abbrev Text := List Char

instance : LawfulBEq Text :=
  inferInstance

/-- The white space that `str.strip` removes. -/
def isSpace (c : Char) : Bool :=
  let n := c.toNat
  (9 ≤ n ∧ n ≤ 13) ∨ (28 ≤ n ∧ n ≤ 32) ∨ n = 0x85 ∨ n = 0xa0 ∨ n = 0x1680 ∨
    (0x2000 ≤ n ∧ n ≤ 0x200a) ∨ n = 0x2028 ∨ n = 0x2029 ∨ n = 0x202f ∨ n = 0x205f ∨ n = 0x3000

def strip (value : Text) : Text :=
  ((value.dropWhile isSpace).reverse.dropWhile isSpace).reverse

/-- `_required_text`: the trimmed value, which is not empty. -/
def requiredText (value : Text) (name : String) (maximum : ℕ) : Except StoreError Text :=
  if strip value = [] ∨ maximum < value.length then .error (.valueError (name ++ " is invalid"))
  else .ok (strip value)

theorem requiredText_eq_ok {value text : Text} {name : String} {maximum : ℕ}
    (h : requiredText value name maximum = .ok text) : strip value = text := by
  unfold requiredText at h
  split at h
  · contradiction
  · injection h

theorem requiredText_ne_nil {value text : Text} {name : String} {maximum : ℕ}
    (h : requiredText value name maximum = .ok text) : text ≠ [] := by
  rw [← requiredText_eq_ok h]
  intro hempty
  unfold requiredText at h
  rw [if_pos (.inl hempty)] at h
  cases h

theorem length_strip_le (value : Text) : (strip value).length ≤ value.length := by
  have hright := (List.dropWhile_suffix isSpace (l := (value.dropWhile isSpace).reverse)).length_le
  have hleft := (List.dropWhile_suffix isSpace (l := value)).length_le
  rw [List.length_reverse] at hright
  rw [strip, List.length_reverse]
  exact Nat.le_trans hright hleft

/-- The head of what `dropWhile` leaves is not dropped. -/
private theorem dropWhile_eq_self {value : Text}
    (h : ∀ c ∈ value.head?, ¬isSpace c) : value.dropWhile isSpace = value := by
  cases value with
  | nil => rfl
  | cons c rest => exact List.dropWhile_cons_of_neg (h c rfl)

private theorem head_dropWhile (value : Text) :
    ∀ c ∈ (value.dropWhile isSpace).head?, ¬isSpace c := by
  intro c hc
  have h := List.head?_dropWhile_not isSpace value
  rw [Option.mem_def.1 hc] at h
  simpa using h

/-- A trimmed text is not trimmed further. -/
theorem strip_strip (value : Text) : strip (strip value) = strip value := by
  have hright : ∀ c ∈ (strip value).reverse.head?, ¬isSpace c := by
    rw [strip, List.reverse_reverse]
    exact head_dropWhile _
  have hleft : ∀ c ∈ (strip value).head?, ¬isSpace c := by
    intro c hc
    have hprefix : strip value <+: value.dropWhile isSpace := by
      rw [strip, ← List.reverse_suffix, List.reverse_reverse]
      exact List.dropWhile_suffix isSpace
    obtain ⟨dropped, hdropped⟩ := hprefix
    refine head_dropWhile value c ?_
    rw [← hdropped, List.head?_append, hc]
    rfl
  rw [strip, dropWhile_eq_self hleft, dropWhile_eq_self hright, List.reverse_reverse]

/-- A trimmed text that is not too long is taken as it is. -/
theorem requiredText_of_trimmed {value text : Text} {name name' : String} {maximum maximum' : ℕ}
    (h : requiredText value name maximum = .ok text) (hmaximum : maximum ≤ maximum') :
    requiredText text name' maximum' = .ok text := by
  have hstrip := requiredText_eq_ok h
  have hlength : value.length ≤ maximum := by
    unfold requiredText at h
    split at h
    · cases h
    · rename_i hvalid
      exact Nat.not_lt.1 fun hlong => hvalid (.inr hlong)
  have htext : strip text = text := by
    rw [← hstrip, strip_strip]
  unfold requiredText
  rw [htext, if_neg]
  rintro (hempty | hlong)
  · exact requiredText_ne_nil h hempty
  · have := length_strip_le value
    rw [hstrip] at this
    omega

/-- `_KEY_RE`. -/
def isKeyChar (c : Char) : Bool := c.isAlphanum ∨ c = '_' ∨ c = '-'

/-- `_validate_key`. -/
def validateKey (key : Text) : Except StoreError Unit :=
  require (16 ≤ key.length ∧ key.length ≤ 128 ∧ key.all isKeyChar = true)
    (.valueError "idempotency key must be 16-128 URL-safe characters")

/-- `_expect_revision`. -/
def expectRevision (current : ℕ) (expected : ℤ) : Except StoreError Unit := do
  require (0 ≤ expected) (.valueError "expected_revision must be a non-negative integer")
  require ((current : ℤ) = expected) .revisionConflict

theorem expectRevision_eq_ok {current : ℕ} {expected : ℤ} {u : Unit} :
    expectRevision current expected = .ok u ↔ (current : ℤ) = expected := by
  simp only [expectRevision, bind_eq_ok, require_eq_ok]
  constructor
  · rintro ⟨-, -, h⟩
    exact h
  · rintro rfl
    exact ⟨(), Int.natCast_nonneg _, rfl⟩

end Cortex.Control
