import Mathlib.Data.Char
import Mathlib.Data.List.Lex
import Mathlib.Tactic.IntervalCases
import Mathlib.Tactic.Positivity
import Mathlib.Tactic.Ring

/-!
# Fixed-width decimal numerals

Zero-padded decimal numerals of one width, and texts built from them, compare
lexicographically the way the numbers compare.  `padded_append_lt` is the
comparison rule: a text that starts with a numeral is compared by the numeral
first and by the rest of the text only when the numerals agree.  A time stamp
is such a text, one field after the other.
-/

namespace Cortex.Decimal

/-- The decimal digit of a number below ten. -/
def digit (n : ℕ) : Char := Char.ofNat (48 + n)

/-- `n` in exactly `width` decimal digits, zero padded on the left. -/
def padded : ℕ → ℕ → List Char
  | 0, _ => []
  | width + 1, n => digit (n / 10 ^ width) :: padded width (n % 10 ^ width)

private theorem digit_lt_digit {a b : ℕ} (ha : a < 10) (hb : b < 10) :
    digit a < digit b ↔ a < b := by
  interval_cases a <;> interval_cases b <;> decide

private theorem digit_inj {a b : ℕ} (ha : a < 10) (hb : b < 10) : digit a = digit b ↔ a = b := by
  interval_cases a <;> interval_cases b <;> decide

@[simp] theorem length_padded (width n : ℕ) : (padded width n).length = width := by
  induction width generalizing n with
  | zero => rfl
  | succ width ih => simp [padded, ih]

/-- Comparing two numbers by quotient first and remainder second. -/
private theorem lt_iff_div_mod {m : ℕ} (hm : 0 < m) (a b : ℕ) :
    a < b ↔ a / m < b / m ∨ a / m = b / m ∧ a % m < b % m := by
  have ha := Nat.div_add_mod a m
  have hb := Nat.div_add_mod b m
  have hra := Nat.mod_lt a hm
  have hrb := Nat.mod_lt b hm
  constructor
  · intro hlt
    rcases Nat.lt_trichotomy (a / m) (b / m) with h | h | h
    · exact .inl h
    · refine .inr ⟨h, ?_⟩
      rw [h] at ha
      omega
    · have : b / m + 1 ≤ a / m := h
      have := Nat.mul_le_mul_left m this
      rw [Nat.mul_add] at this
      omega
  · rintro (h | ⟨h, hr⟩)
    · have : a / m + 1 ≤ b / m := h
      have := Nat.mul_le_mul_left m this
      rw [Nat.mul_add] at this
      omega
    · rw [h] at ha
      omega

/-- A text that starts with a numeral is ordered by the numeral first. -/
theorem padded_append_lt {width a b : ℕ} (ha : a < 10 ^ width) (hb : b < 10 ^ width)
    (x y : List Char) :
    padded width a ++ x < padded width b ++ y ↔ a < b ∨ a = b ∧ x < y := by
  induction width generalizing a b with
  | zero =>
      have ha0 : a = 0 := by simpa using ha
      have hb0 : b = 0 := by simpa using hb
      simp [padded, ha0, hb0]
  | succ width ih =>
      have hpos : 0 < 10 ^ width := by positivity
      have hqa : a / 10 ^ width < 10 := Nat.div_lt_of_lt_mul (by rwa [← Nat.pow_succ])
      have hqb : b / 10 ^ width < 10 := Nat.div_lt_of_lt_mul (by rwa [← Nat.pow_succ])
      have heq : a = b ↔ a / 10 ^ width = b / 10 ^ width ∧ a % 10 ^ width = b % 10 ^ width := by
        constructor
        · rintro rfl
          exact ⟨rfl, rfl⟩
        · rintro ⟨hq, hr⟩
          rw [← Nat.div_add_mod a (10 ^ width), ← Nat.div_add_mod b (10 ^ width), hq, hr]
      simp only [padded, List.cons_append, List.cons_lt_cons_iff, digit_lt_digit hqa hqb,
        digit_inj hqa hqb, ih (Nat.mod_lt _ hpos) (Nat.mod_lt _ hpos)]
      rw [lt_iff_div_mod hpos a b, heq]
      tauto

/-- A literal character in the same place of both texts does not change the order. -/
@[simp] theorem cons_lt_cons_self (c : Char) (x y : List Char) : c :: x < c :: y ↔ x < y := by
  rw [List.cons_lt_cons_iff]
  simp

/-! ## Numerals of any width -/

theorem ofDigitChars_lt {text : List Char} (h : text.all Char.isDigit = true) :
    Nat.ofDigitChars 10 text 0 < 10 ^ text.length := by
  induction text with
  | nil => exact Nat.one_pos
  | cons c text ih =>
      rw [List.all_cons, Bool.and_eq_true] at h
      have htail := ih h.2
      have hdigit : c.toNat - 48 ≤ 9 := by
        have hc := h.1
        rw [Char.isDigit, Bool.and_eq_true, decide_eq_true_eq, decide_eq_true_eq] at hc
        have hmax : c.toNat ≤ 57 := hc.2
        omega
      have hhead : 10 ^ text.length * (c.toNat - 48) ≤ 10 ^ text.length * 9 :=
        Nat.mul_le_mul_left _ hdigit
      rw [Nat.ofDigitChars_cons, Nat.ofDigitChars_eq_ofDigitChars_zero, List.length_cons,
        Nat.pow_succ, Nat.mul_zero, Nat.zero_add, show '0'.toNat = 48 from rfl]
      omega

/-- A number is as long as its decimal, if it does not start with a zero. -/
theorem length_toDigits_ofDigitChars {text : List Char} (h : text.all Char.isDigit = true)
    (hne : text ≠ []) :
    (Nat.toDigits 10 (Nat.ofDigitChars 10 text 0)).length ≤ text.length ∧
      ((Nat.toDigits 10 (Nat.ofDigitChars 10 text 0)).length = text.length ↔
        (text.head? = some '0' → text.length = 1)) := by
  have hpos : 0 < text.length := List.length_pos_iff.2 hne
  have hle : (Nat.toDigits 10 (Nat.ofDigitChars 10 text 0)).length ≤ text.length :=
    (Nat.length_toDigits_le_iff (by decide) hpos).2 (ofDigitChars_lt h)
  refine ⟨hle, ?_⟩
  cases text with
  | nil => exact absurd rfl hne
  | cons c text =>
      rw [List.head?_cons, Option.some_inj, List.length_cons]
      rw [List.length_cons] at hle
      rw [List.all_cons, Bool.and_eq_true] at h
      cases htext : text with
      | nil =>
          subst htext
          have hmin := @Nat.length_toDigits_pos 10 (Nat.ofDigitChars 10 [c] 0)
          simp only [List.length_nil, Nat.zero_add] at hle ⊢
          exact ⟨fun _ _ => trivial, fun _ => by omega⟩
      | cons d tail =>
          have hshort := @Nat.length_toDigits_le_iff 10 (Nat.ofDigitChars 10 (c :: text) 0)
            text.length (by decide) (by rw [htext]; exact Nat.succ_pos _)
          have htail := ofDigitChars_lt h.2
          rw [← htext]
          have hvalue : Nat.ofDigitChars 10 (c :: text) 0 < 10 ^ text.length ↔ c = '0' := by
            rw [Nat.ofDigitChars_cons, Nat.ofDigitChars_eq_ofDigitChars_zero, Nat.mul_zero,
              Nat.zero_add, show '0'.toNat = 48 from rfl]
            constructor
            · intro hlt
              have hzero : c.toNat - 48 = 0 := by
                by_contra hpos
                have : 10 ^ text.length * 1 ≤ 10 ^ text.length * (c.toNat - 48) :=
                  Nat.mul_le_mul_left _ (Nat.one_le_iff_ne_zero.2 hpos)
                omega
              have hc := h.1
              rw [Char.isDigit, Bool.and_eq_true, decide_eq_true_eq, decide_eq_true_eq] at hc
              have hmin : 48 ≤ c.toNat := hc.1
              exact Char.toNat_inj.1 (show c.toNat = 48 by omega)
            · rintro rfl
              rw [show '0'.toNat - 48 = 0 from rfl, Nat.mul_zero, Nat.zero_add]
              exact htail
          have hlong : text.length ≠ 0 := by rw [htext]; exact Nat.succ_ne_zero _
          rw [hvalue] at hshort
          constructor
          · intro heq hc
            exact absurd (hshort.2 hc) (by omega)
          · intro himp
            have hc : c ≠ '0' := fun hc => hlong (Nat.succ.inj (himp hc))
            have := mt hshort.1 hc
            omega

end Cortex.Decimal
