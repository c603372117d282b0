import Cortex.Library.Json
import Mathlib.Data.List.TakeWhile

/-!
# Printed objects are read back

`loads_dumps`: the parser inverts the printer on flat objects with distinct keys.
The proof follows the text: a string unit by unit, a number up to the character
that ends it, a member up to its comma or bracket.
-/

namespace Cortex.Json

/-! ## Strings -/

private theorem hexValue_hexDigit {d : ℕ} (hd : d < 16) : hexValue (hexDigit d) = some d := by
  interval_cases d <;> decide

theorem scanUnits_quote (s : List Char) : scanUnits ('"' :: s) = some ([], s) := by
  rw [scanUnits.eq_def]
  rfl

/-- A character that is neither quote, backslash nor control stands for itself. -/
theorem scanUnits_plain {c : Char} (hquote : c ≠ '"') (hback : c ≠ '\\') (hctrl : ¬c.toNat < 32)
    (s : List Char) : scanUnits (c :: s) = (scanUnits s).map fun p => (c.toNat :: p.1, p.2) := by
  rw [scanUnits.eq_def]
  simp only [if_neg hquote, if_neg hback, if_neg hctrl, Option.bind_eq_bind]
  cases scanUnits s <;> rfl

private theorem scanUnits_escapeUnit {u : ℕ} (hu : u < 0x10000) (s : List Char) :
    scanUnits (escapeUnit u ++ s) = (scanUnits s).map fun p => (u :: p.1, p.2) := by
  have hvalue : ((u / 4096 % 16 * 16 + u / 256 % 16) * 16 + u / 16 % 16) * 16 + u % 16 = u := by
    omega
  have h₁ := hexValue_hexDigit (show u / 4096 % 16 < 16 from Nat.mod_lt _ (by decide))
  have h₂ := hexValue_hexDigit (show u / 256 % 16 < 16 from Nat.mod_lt _ (by decide))
  have h₃ := hexValue_hexDigit (show u / 16 % 16 < 16 from Nat.mod_lt _ (by decide))
  have h₄ := hexValue_hexDigit (show u % 16 < 16 from Nat.mod_lt _ (by decide))
  have hquote : ('\\' : Char) ≠ '"' := by decide
  simp only [escapeUnit, List.cons_append, List.nil_append]
  rw [scanUnits.eq_def]
  simp only [if_neg hquote, if_true, h₁, h₂, h₃, h₄, Option.bind_eq_bind, Option.bind_some, hvalue]
  cases scanUnits s <;> rfl

/-- A one-letter escape is read as the character it stands for. -/
private theorem scanUnits_simple {e d : Char} (he : simpleEscape e = some d) (hu : e ≠ 'u')
    (s : List Char) :
    scanUnits ('\\' :: e :: s) = (scanUnits s).map fun p => (d.toNat :: p.1, p.2) := by
  have hquote : ('\\' : Char) ≠ '"' := by decide
  rw [scanUnits.eq_def]
  simp only [if_neg hquote, if_true, if_neg hu, he, Option.bind_eq_bind, Option.bind_some]
  cases scanUnits s <;> rfl

private theorem unitsOf_of_lt {c : Char} (hc : c.toNat < 0x10000) : unitsOf c = [c.toNat] := if_pos hc

private theorem toNat_lt (c : Char) : c.toNat < 0x110000 := by
  rcases c.valid with h | h
  · exact lt_trans h (by decide)
  · exact h.2

private theorem unitsOf_lt {c : Char} {u : ℕ} (hu : u ∈ unitsOf c) : u < 0x10000 := by
  have hc := toNat_lt c
  unfold unitsOf at hu
  split at hu
  · simp only [List.mem_singleton] at hu
    omega
  · simp only [List.mem_cons, List.not_mem_nil, or_false] at hu
    omega

private theorem scanUnits_escapeUnits {us : List ℕ} (hus : ∀ u ∈ us, u < 0x10000) (s : List Char) :
    scanUnits (us.flatMap escapeUnit ++ s) = (scanUnits s).map fun p => (us ++ p.1, p.2) := by
  induction us with
  | nil => simp
  | cons u us ih =>
      rw [List.flatMap_cons, List.append_assoc, scanUnits_escapeUnit (hus u List.mem_cons_self),
        ih fun v hv => hus v (List.mem_cons_of_mem _ hv), Option.map_map]
      rfl

private theorem scanUnits_escapeChar (c : Char) (s : List Char) :
    scanUnits (escapeChar c ++ s) = (scanUnits s).map fun p => (unitsOf c ++ p.1, p.2) := by
  unfold escapeChar
  by_cases h : c = '"' ∨ c = '\\'
  · rw [if_pos h]
    rcases h with rfl | rfl <;> exact scanUnits_simple (by decide) (by decide) s
  rw [if_neg h]
  by_cases hn : c = '\n'
  · rw [if_pos hn, hn]
    exact scanUnits_simple (by decide) (by decide) s
  rw [if_neg hn]
  by_cases hr : c = '\r'
  · rw [if_pos hr, hr]
    exact scanUnits_simple (by decide) (by decide) s
  rw [if_neg hr]
  by_cases ht : c = '\t'
  · rw [if_pos ht, ht]
    exact scanUnits_simple (by decide) (by decide) s
  rw [if_neg ht]
  by_cases hb : c.toNat = 8
  · obtain rfl : c = Char.ofNat 8 := by rw [← hb, Char.ofNat_toNat]
    exact scanUnits_simple (by decide) (by decide) s
  rw [if_neg hb]
  by_cases hf : c.toNat = 12
  · obtain rfl : c = Char.ofNat 12 := by rw [← hf, Char.ofNat_toNat]
    exact scanUnits_simple (by decide) (by decide) s
  rw [if_neg hf]
  rw [not_or] at h
  split
  · rename_i hprintable
    rw [unitsOf_of_lt (by omega)]
    exact scanUnits_plain h.1 h.2 (by omega) s
  · exact scanUnits_escapeUnits (fun u hu => unitsOf_lt hu) s

private theorem scanUnits_text (text rest : List Char) :
    scanUnits (text.flatMap escapeChar ++ '"' :: rest) = some (text.flatMap unitsOf, rest) := by
  induction text with
  | nil => exact scanUnits_quote rest
  | cons c text ih =>
      rw [List.flatMap_cons, List.append_assoc, scanUnits_escapeChar, ih]
      rfl

private theorem decodeUnits_unitsOf (c : Char) (us : List ℕ) :
    decodeUnits (unitsOf c ++ us) = c :: decodeUnits us := by
  unfold unitsOf
  split
  · -- One unit, which is no surrogate because it is a character.
    have hvalid : ¬(0xd800 ≤ c.toNat ∧ c.toNat < 0xe000) := by
      rcases c.valid with h | h
      · exact fun h' => absurd h'.1 (Nat.not_le.2 h)
      · exact fun h' => absurd h.1 (Nat.not_lt.2 (Nat.le_of_lt_succ h'.2))
    cases us with
    | nil => simp only [List.append_nil, decodeUnits, if_neg hvalid, Char.ofNat_toNat]
    | cons v us =>
        have hpair : ¬(0xd800 ≤ c.toNat ∧ c.toNat < 0xdc00 ∧ 0xdc00 ≤ v ∧ v < 0xe000) := by
          omega
        simp only [List.cons_append, List.nil_append, decodeUnits, if_neg hpair, if_neg hvalid,
          Char.ofNat_toNat]
  · have hc := toNat_lt c
    have hpair : 0xd800 ≤ 0xd800 + (c.toNat - 0x10000) / 0x400 ∧
        0xd800 + (c.toNat - 0x10000) / 0x400 < 0xdc00 ∧
        0xdc00 ≤ 0xdc00 + (c.toNat - 0x10000) % 0x400 ∧
        0xdc00 + (c.toNat - 0x10000) % 0x400 < 0xe000 := by omega
    have hvalue : 0x10000 + (0xd800 + (c.toNat - 0x10000) / 0x400 - 0xd800) * 0x400 +
        (0xdc00 + (c.toNat - 0x10000) % 0x400 - 0xdc00) = c.toNat := by omega
    simp only [List.cons_append, List.nil_append, decodeUnits, if_pos hpair, hvalue,
      Char.ofNat_toNat]

private theorem decodeUnits_text (text : List Char) : decodeUnits (text.flatMap unitsOf) = text := by
  induction text with
  | nil => rfl
  | cons c text ih => rw [List.flatMap_cons, decodeUnits_unitsOf, ih]

/-! ## Numbers -/

/-- A character that ends every number. -/
def EndsNumber (c : Char) : Prop :=
  c.isDigit = false ∧ c ≠ '.' ∧ c ≠ 'e' ∧ c ≠ 'E' ∧ c ≠ '+' ∧ c ≠ '-'

private theorem span_append {p : Char → Bool} {c : Char} (hc : p c = false) (s r : List Char) :
    (s ++ c :: r).span p = ((s.span p).1, (s.span p).2 ++ c :: r) := by
  simp only [List.span_eq_takeWhile_dropWhile, List.takeWhile_append, List.dropWhile_append]
  have htake : (c :: r).takeWhile p = [] := by simp [hc]
  have hdrop : (c :: r).dropWhile p = c :: r := by simp [hc]
  rw [htake, hdrop]
  by_cases hall : (s.takeWhile p).length = s.length
  · have hs : s.takeWhile p = s := (List.takeWhile_prefix p).eq_of_length hall
    have hrest : s.dropWhile p = [] := by
      have := List.takeWhile_append_dropWhile (p := p) (l := s)
      rw [hs] at this
      simpa using this
    rw [if_pos hall, hrest, hs]
    simp
  · have hrest : s.dropWhile p ≠ [] := by
      intro hnil
      apply hall
      have := congrArg List.length (List.takeWhile_append_dropWhile (p := p) (l := s))
      simpa [hnil] using this
    rw [if_neg hall]
    simp [hrest]

private theorem expect_append {a c : Char} {s : List Char} (r : List Char) (hc : c ≠ a) :
    expect a (s ++ c :: r) = (expect a s).map (· ++ c :: r) := by
  cases s with
  | nil => simp [expect, hc]
  | cons d s =>
      by_cases hd : d = a
      · simp [expect, hd]
      · simp [expect, hd]

private theorem scanInteger_append {s digits rest : List Char} {c : Char} (r : List Char)
    (hc : EndsNumber c) (h : scanInteger s = some (digits, rest)) :
    scanInteger (s ++ c :: r) = some (digits, rest ++ c :: r) := by
  cases s with
  | nil => simp [scanInteger] at h
  | cons d s =>
      simp only [scanInteger, List.cons_append] at h ⊢
      split at h
      · rename_i hzero
        rw [if_pos hzero]
        simp only [Option.some.injEq, Prod.mk.injEq] at h ⊢
        exact ⟨h.1, by rw [h.2]⟩
      · rename_i hzero
        split at h
        · rename_i hdigit
          have hspan := span_append hc.1 (d :: s) r
          rw [if_neg hzero, if_pos hdigit, ← List.cons_append, hspan]
          rw [Option.some.injEq] at h
          rw [h]
        · contradiction

private theorem scanFraction_append (s : List Char) {c : Char} (r : List Char) (hc : EndsNumber c) :
    scanFraction (s ++ c :: r) = ((scanFraction s).1, (scanFraction s).2 ++ c :: r) := by
  unfold scanFraction
  rw [expect_append r hc.2.1]
  cases expect '.' s with
  | none => rfl
  | some rest =>
      simp only [Option.map_some, span_append hc.1]
      split <;> rfl

private theorem scanExponent_append (s : List Char) {c : Char} (r : List Char) (hc : EndsNumber c) :
    scanExponent (s ++ c :: r) = ((scanExponent s).1, (scanExponent s).2 ++ c :: r) := by
  obtain ⟨hdigit, -, he, hE, hplus, hminus⟩ := hc
  cases s with
  | nil => simp [scanExponent, he, hE]
  | cons d s =>
      simp only [scanExponent, List.cons_append]
      by_cases hd : d = 'e' ∨ d = 'E'
      · simp only [if_pos hd]
        cases s with
        | nil => simp [hplus, hminus, hdigit]
        | cons f s =>
            simp only [List.cons_append]
            by_cases hf : f = '+' ∨ f = '-'
            · simp only [if_pos hf, span_append hdigit]
              split <;> rfl
            · simp only [if_neg hf]
              have hspan := span_append hdigit (f :: s) r
              rw [List.cons_append] at hspan
              rw [hspan]
              split <;> rfl
      · simp only [if_neg hd, List.cons_append]

private theorem scanSign_append (s : List Char) {c : Char} (r : List Char) (hc : EndsNumber c) :
    scanSign (s ++ c :: r) = ((scanSign s).1, (scanSign s).2 ++ c :: r) := by
  unfold scanSign
  rw [expect_append r hc.2.2.2.2.2]
  cases expect '-' s <;> rfl

/-- What follows a number is left where it was. -/
private theorem scanNumber_append {s rest : List Char} {v : Value} {c : Char} (r : List Char)
    (hc : EndsNumber c) (h : scanNumber s = some (v, rest)) :
    scanNumber (s ++ c :: r) = some (v, rest ++ c :: r) := by
  unfold scanNumber at h ⊢
  rw [scanSign_append s r hc]
  simp only at h ⊢
  split at h
  · contradiction
  · rename_i integer hinteger
    rw [scanInteger_append r hc hinteger]
    simp only [scanFraction_append integer.2 r hc, scanExponent_append _ r hc]
    simp only [Option.some.injEq, Prod.mk.injEq] at h ⊢
    exact ⟨h.1, by rw [h.2]⟩

/-! ## Natural numbers -/

private theorem digitsValue_append_digit (digits : List Char) {d : ℕ} (hd : d < 10) :
    digitsValue (digits ++ [Decimal.digit d]) = digitsValue digits * 10 + d := by
  have hdigit : (Decimal.digit d).toNat - 48 = d := by interval_cases d <;> decide
  simp [digitsValue, List.foldl_append, hdigit]

private theorem isDigit_digit {d : ℕ} (hd : d < 10) : (Decimal.digit d).isDigit = true := by
  interval_cases d <;> decide

private theorem digitsValue_natDigits {fuel n : ℕ} (h : n < fuel) : digitsValue (natDigits fuel n) = n := by
  induction fuel generalizing n with
  | zero => omega
  | succ fuel ih =>
      unfold natDigits
      split
      · rename_i hn
        have := digitsValue_append_digit [] hn
        simpa [digitsValue] using this
      · rw [digitsValue_append_digit _ (Nat.mod_lt _ (by decide)), ih (by omega)]
        omega

theorem isDigit_natDigits {fuel n : ℕ} : ∀ c ∈ natDigits fuel n, c.isDigit = true := by
  induction fuel generalizing n with
  | zero => simp [natDigits]
  | succ fuel ih =>
      unfold natDigits
      split
      · rename_i hn
        intro c hc
        obtain rfl := List.mem_singleton.1 hc
        exact isDigit_digit hn
      · intro c hc
        rcases List.mem_append.1 hc with hc | hc
        · exact ih c hc
        · obtain rfl := List.mem_singleton.1 hc
          exact isDigit_digit (Nat.mod_lt _ (by decide))

/-- A positive number does not start with a zero. -/
private theorem natDigits_head {fuel n : ℕ} (h : n < fuel) (hpos : 0 < n) :
    ∃ c digits, natDigits fuel n = c :: digits ∧ c ≠ '0' := by
  induction fuel generalizing n with
  | zero => omega
  | succ fuel ih =>
      unfold natDigits
      split
      · rename_i hn
        exact ⟨_, [], rfl, by interval_cases n <;> decide⟩
      · obtain ⟨c, digits, heq, hc⟩ := ih (show n / 10 < fuel by omega) (by omega)
        exact ⟨c, digits ++ [Decimal.digit (n % 10)], by rw [heq]; rfl, hc⟩

private theorem dumpNat_cons (n : ℕ) : ∃ d digits, dumpNat n = d :: digits ∧ d.isDigit = true := by
  cases hdigits : dumpNat n with
  | nil =>
      rcases Nat.eq_zero_or_pos n with rfl | hpos
      · simp [dumpNat, natDigits] at hdigits
      · obtain ⟨c, digits, heq, -⟩ := natDigits_head (Nat.lt_succ_self n) hpos
        rw [dumpNat, heq] at hdigits
        contradiction
  | cons d digits =>
      refine ⟨d, digits, rfl, isDigit_natDigits d (show d ∈ natDigits (n + 1) n from ?_)⟩
      rw [← dumpNat, hdigits]
      exact List.mem_cons_self

private theorem scanInteger_dumpNat (n : ℕ) : scanInteger (dumpNat n) = some (dumpNat n, []) := by
  rcases Nat.eq_zero_or_pos n with rfl | hpos
  · rfl
  · obtain ⟨c, digits, heq, hc⟩ := natDigits_head (Nat.lt_succ_self n) hpos
    have hall : ∀ d ∈ c :: digits, d.isDigit = true := fun d hd => by
      rw [← heq] at hd
      exact isDigit_natDigits d hd
    rw [dumpNat, heq, scanInteger, if_neg hc, if_pos (hall c List.mem_cons_self),
      List.span_eq_takeWhile_dropWhile, List.takeWhile_eq_self_iff.2 hall,
      List.dropWhile_eq_nil_iff.2 hall]

private theorem scanNumber_dumpNat (n : ℕ) : scanNumber (dumpNat n) = some (.int n, []) := by
  have hsign : scanSign (dumpNat n) = ([], dumpNat n) := by
    unfold scanSign
    obtain ⟨c, digits, hdigits, hdigit⟩ := dumpNat_cons n
    have hc : c ≠ '-' := by
      rintro rfl
      exact absurd hdigit (by decide)
    rw [hdigits]
    simp [expect, hc]
  unfold scanNumber
  simp only [hsign, scanInteger_dumpNat]
  have hvalue : digitsValue (dumpNat n) = n := digitsValue_natDigits (Nat.lt_succ_self n)
  simp [scanFraction, scanExponent, expect, numberValue, hvalue]

/-! ## Members and objects -/

/-- A number text that a member may carry: a whole number token without a sign. -/
def IsNumber (text : List Char) : Prop :=
  (∃ v, scanNumber text = some (v, [])) ∧ ∃ c rest, text = c :: rest ∧ c.isDigit = true

/-- What a scalar means; a number text means the number it spells. -/
def Scalar.value : Scalar → Value
  | .null => .null
  | .nat n => .int n
  | .number text => ((scanNumber text).map Prod.fst).getD .null
  | .str text => .str text

def Scalar.Valid : Scalar → Prop
  | .number text => IsNumber text
  | _ => True

/-- A text that starts like a number is scanned as one. -/
private theorem scanScalar_of_digit {c : Char} (s : List Char) (hc : c.isDigit = true) :
    scanScalar (c :: s) = scanNumber (c :: s) := by
  have hne : ∀ d : Char, d.isDigit = false → d ≠ c := by
    rintro d hd rfl
    rw [hc] at hd
    contradiction
  have hn := hne 'n' (by decide)
  have ht := hne 't' (by decide)
  have hf := hne 'f' (by decide)
  have hN := hne 'N' (by decide)
  have hI := hne 'I' (by decide)
  have hminus := hne '-' (by decide)
  simp [scanScalar, scanWord, List.isPrefixOf, hn, ht, hf, hN, hI, hminus]

private theorem value_of_digit {fuel : ℕ} {c : Char} (s : List Char) (hc : c.isDigit = true) :
    value (fuel + 1) (c :: s) = scanNumber (c :: s) := by
  have hne : ∀ d : Char, d.isDigit = false → c ≠ d := by
    rintro d hd rfl
    rw [hc] at hd
    contradiction
  rw [value, if_neg (hne '"' (by decide)), if_neg (hne '{' (by decide)),
    if_neg (hne '[' (by decide)), scanScalar_of_digit s hc]

private theorem value_str {fuel : ℕ} (text rest : List Char) :
    value (fuel + 1) (dumpString text ++ rest) = some (.str text, rest) := by
  rw [dumpString, List.cons_append, value, if_pos rfl, List.append_assoc, List.cons_append,
    List.nil_append, scanUnits_text]
  simp [decodeUnits_text]

private theorem endsNumber_comma : EndsNumber ',' := by unfold EndsNumber; decide

private theorem endsNumber_bracket : EndsNumber '}' := by unfold EndsNumber; decide

/-- A scalar is read back, up to the comma or bracket after it. -/
private theorem value_dumpScalar {fuel : ℕ} {x : Scalar} (hx : x.Valid) {c : Char} (hc : EndsNumber c)
    (rest : List Char) :
    value (fuel + 1) (dumpScalar x ++ c :: rest) = some (x.value, c :: rest) := by
  cases x with
  | null => rfl
  | nat n =>
      have hscan := scanNumber_append rest hc (scanNumber_dumpNat n)
      obtain ⟨d, digits, hdigits, hd⟩ := dumpNat_cons n
      rw [hdigits] at hscan
      rw [dumpScalar, hdigits, List.cons_append, value_of_digit _ hd]
      exact hscan
  | number text =>
      obtain ⟨⟨v, hv⟩, d, digits, rfl, hd⟩ := hx
      have hscan := scanNumber_append rest hc hv
      rw [dumpScalar, List.cons_append, value_of_digit _ hd]
      simp only [Scalar.value, hv]
      exact hscan
  | str text => exact value_str text (c :: rest)

/-- A printed scalar does not start with white space. -/
private theorem skipWhitespace_dumpScalar {x : Scalar} (hx : x.Valid) (rest : List Char) :
    skipWhitespace (dumpScalar x ++ rest) = dumpScalar x ++ rest := by
  have hdigit : ∀ c : Char, c.isDigit = true → isWhitespace c = false := by
    intro c hc
    rw [Bool.eq_false_iff]
    intro hws
    simp only [isWhitespace, decide_eq_true_eq] at hws
    rcases hws with rfl | rfl | rfl | rfl <;> exact absurd hc (by decide)
  cases x with
  | null => rfl
  | nat n =>
      obtain ⟨d, digits, hdigits, hd⟩ := dumpNat_cons n
      simp [skipWhitespace, dumpScalar, hdigits, hdigit d hd]
  | number text =>
      obtain ⟨-, d, digits, rfl, hd⟩ := hx
      simp [skipWhitespace, dumpScalar, hdigit d hd]
  | str text => rfl

private theorem skipWhitespace_cons {c : Char} (hc : isWhitespace c = false) (s : List Char) :
    skipWhitespace (c :: s) = c :: s := by
  simp [skipWhitespace, hc]

private theorem expect_self (c : Char) (s : List Char) : expect c (c :: s) = some s := if_pos rfl

/-- One member, up to what follows it. -/
private theorem members_member {fuel : ℕ} {member : List Char × Scalar} (hvalid : member.2.Valid) {c : Char}
    (hc : EndsNumber c) (rest : List Char) :
    members (fuel + 2) (dumpMember member ++ c :: rest) =
      (match expect ',' (skipWhitespace (c :: rest)) with
      | some s => (members (fuel + 1) (skipWhitespace s)).map fun more =>
          ((member.1, member.2.value) :: more.1, more.2)
      | none => (expect '}' (skipWhitespace (c :: rest))).map fun s =>
          ([(member.1, member.2.value)], s)) := by
  have hcolon : skipWhitespace (':' :: (dumpScalar member.2 ++ c :: rest)) =
      ':' :: (dumpScalar member.2 ++ c :: rest) := rfl
  rw [members, dumpMember, dumpString]
  simp only [List.cons_append, List.append_assoc, List.nil_append, expect_self,
    Option.bind_eq_bind, Option.bind_some, scanUnits_text, hcolon,
    skipWhitespace_dumpScalar hvalid, value_dumpScalar hvalid hc, decodeUnits_text]
  cases expect ',' (skipWhitespace (c :: rest)) with
  | none => cases expect '}' (skipWhitespace (c :: rest)) <;> rfl
  | some s =>
      simp only
      cases members (fuel + 1) (skipWhitespace s) <;> rfl

/-- Printed members start with a quote. -/
private theorem skipWhitespace_dumpMembers (m : List Char × Scalar) (ms : List (List Char × Scalar))
    (rest : List Char) :
    skipWhitespace (dumpMembers (m :: ms) ++ rest) = dumpMembers (m :: ms) ++ rest := by
  cases ms <;> rfl

private theorem members_dumpMembers {ms : List (List Char × Scalar)} (hne : ms ≠ [])
    (hvalid : ∀ m ∈ ms, m.2.Valid) {fuel : ℕ} (hfuel : ms.length < fuel) (rest : List Char) :
    members fuel (dumpMembers ms ++ rest) =
      some (ms.map fun m => (m.1, m.2.value), rest) := by
  induction ms generalizing fuel with
  | nil => contradiction
  | cons m ms ih =>
      obtain ⟨fuel, rfl⟩ : ∃ k, fuel = k + 2 :=
        ⟨fuel - 2, by simp only [List.length_cons] at hfuel; omega⟩
      have hm := hvalid m List.mem_cons_self
      cases ms with
      | nil =>
          rw [dumpMembers, List.append_assoc, List.cons_append, List.nil_append,
            members_member hm endsNumber_bracket]
          rfl
      | cons m' ms =>
          have htail := ih (List.cons_ne_nil _ _) (fun x hx => hvalid x (List.mem_cons_of_mem _ hx))
            (show (m' :: ms).length < fuel + 1 by simp only [List.length_cons] at hfuel ⊢; omega)
          have hdump : dumpMembers (m :: m' :: ms) =
              dumpMember m ++ ',' :: dumpMembers (m' :: ms) := rfl
          rw [hdump, List.append_assoc, List.cons_append, members_member hm endsNumber_comma,
            skipWhitespace_cons (by decide), expect_self]
          simp only
          rw [skipWhitespace_dumpMembers, htail]
          rfl

private theorem length_lt_dumpMembers (ms : List (List Char × Scalar)) :
    ms.length < (dumpMembers ms).length := by
  induction ms with
  | nil => exact Nat.one_pos
  | cons m ms ih =>
      cases ms with
      | nil => simp [dumpMembers, dumpMember, dumpString]
      | cons m' ms =>
          simp only [dumpMembers, dumpMember, List.length_append, List.length_cons] at ih ⊢
          omega

/-- A printed object at the head of a text. -/
theorem value_dumps {ms : List (List Char × Scalar)} (hne : ms ≠ [])
    (hvalid : ∀ m ∈ ms, m.2.Valid) (hkeys : (ms.map Prod.fst).Nodup) {fuel : ℕ}
    (hfuel : ms.length + 1 < fuel) (rest : List Char) :
    value fuel (dumps ms ++ rest) = some (.obj (ms.map fun m => (m.1, m.2.value)), rest) := by
  obtain ⟨fuel, rfl⟩ : ∃ k, fuel = k + 1 := ⟨fuel - 1, by omega⟩
  obtain ⟨m, ms, rfl⟩ := List.exists_cons_of_ne_nil hne
  have hbracket : expect '}' (dumpMembers (m :: ms) ++ rest) = none := by
    cases ms <;> rfl
  have hquote : ('{' : Char) ≠ '"' := by decide
  have hmembers := members_dumpMembers hne hvalid (show (m :: ms).length < fuel by omega) rest
  rw [dumps, List.cons_append, value, if_neg hquote, if_pos rfl, skipWhitespace_dumpMembers,
    hbracket]
  simp only [hmembers, Option.bind_eq_bind, Option.bind_some, List.map_map]
  exact if_pos hkeys

/-- A printed object is read back, also with white space after it. -/
theorem loads_dumps {ms : List (List Char × Scalar)} (hne : ms ≠ [])
    (hvalid : ∀ m ∈ ms, m.2.Valid) (hkeys : (ms.map Prod.fst).Nodup) {rest : List Char}
    (hrest : skipWhitespace rest = []) :
    loads (dumps ms ++ rest) = some (.obj (ms.map fun m => (m.1, m.2.value))) := by
  have hlength : ms.length + 1 < (dumps ms ++ rest).length + 1 := by
    have := length_lt_dumpMembers ms
    simp only [dumps, List.length_append, List.length_cons]
    omega
  have hvalue := value_dumps hne hvalid hkeys hlength rest
  have hstart : skipWhitespace (dumps ms ++ rest) = dumps ms ++ rest := rfl
  rw [loads, hstart, hvalue]
  exact if_pos hrest

end Cortex.Json
