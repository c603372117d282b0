import Cortex.Library.PyDumps
import Mathlib.Data.List.TakeWhile

/-!
# What is written is read back

`value_dump`: a value that JSON represents is read back as an equal one, if its
texts have no surrogate pair in two code points.  The proof follows the text: a
string piece by piece, a number up to the character that ends it, an item up to
its comma or bracket.
-/

namespace Cortex.PyJson

open Py

/-! ## Strings -/

private theorem hexValue_hexPoint : ∀ d : Fin 16, hexValue (hexPoint d) = some d.val := by decide

private theorem hexUnit_escaped {u : ℕ} (hu : u < 0x10000) :
    hexUnit (hexPoint (Fin.ofNat 16 (u / 4096))) (hexPoint (Fin.ofNat 16 (u / 256)))
      (hexPoint (Fin.ofNat 16 (u / 16))) (hexPoint (Fin.ofNat 16 u)) = some ⟨u, hu⟩ := by
  have hvalue : (((u / 4096 % 16 * 16 + u / 256 % 16) * 16 + u / 16 % 16) * 16 + u % 16) %
      0x10000 = u := by omega
  simp only [hexUnit, hexValue_hexPoint, Option.bind_eq_bind, Option.bind_some, Option.pure_def,
    Option.some.injEq]
  exact Fin.ext hvalue

/-- The pieces that a code point is read back as. -/
def piecesOf (c : CodePoint) : List Piece :=
  if (escapeLetter c).isSome ∨ 32 ≤ c.val ∧ c.val < 127 then [.point c]
  else (unitsOf c).map fun u => .unit (Fin.ofNat 0x10000 u)

private theorem scanPieces_quote (s : Str) : scanPieces (cp '"' :: s) = some ([], s) := by
  rw [scanPieces.eq_def]
  rfl

/-- A code point that is neither quote, backslash nor control stands for itself. -/
private theorem scanPieces_plain {c : CodePoint} (hquote : c ≠ cp '"') (hback : c ≠ cp '\\')
    (hctrl : ¬c.val < 32) (s : Str) :
    scanPieces (c :: s) = (scanPieces s).map fun p => (.point c :: p.1, p.2) := by
  rw [scanPieces.eq_def]
  simp only [if_neg hquote, if_neg hback, if_neg hctrl, Option.bind_eq_bind]
  cases scanPieces s <;> rfl

/-- A one-letter escape is read as the code point it stands for. -/
private theorem scanPieces_letter {e d : CodePoint} (he : simpleEscape e = some d)
    (hu : e ≠ cp 'u') (s : Str) :
    scanPieces (cp '\\' :: e :: s) = (scanPieces s).map fun p => (.point d :: p.1, p.2) := by
  have hquote : cp '\\' ≠ cp '"' := by decide
  rw [scanPieces.eq_def]
  simp only [if_neg hquote, if_true, if_neg hu, he, Option.bind_eq_bind, Option.bind_some]
  cases scanPieces s <;> rfl

private theorem scanPieces_unit {u : ℕ} (hu : u < 0x10000) (s : Str) :
    scanPieces (escapeUnit u ++ s) =
      (scanPieces s).map fun p => (.unit (Fin.ofNat 0x10000 u) :: p.1, p.2) := by
  have hquote : cp '\\' ≠ cp '"' := by decide
  have hunit : (⟨u, hu⟩ : Fin 0x10000) = Fin.ofNat 0x10000 u :=
    Fin.ext (Nat.mod_eq_of_lt hu).symm
  simp only [escapeUnit, List.cons_append, List.nil_append]
  rw [scanPieces.eq_def]
  simp only [if_neg hquote, if_true, hexUnit_escaped hu, Option.bind_eq_bind, Option.bind_some,
    hunit]
  cases scanPieces s <;> rfl

private theorem unitsOf_lt {c : CodePoint} {u : ℕ} (hu : u ∈ unitsOf c) : u < 0x10000 := by
  have hc := c.isLt
  unfold unitsOf at hu
  split at hu
  · simp only [List.mem_singleton] at hu
    omega
  · simp only [List.mem_cons, List.not_mem_nil, or_false] at hu
    omega

private theorem scanPieces_units {us : List ℕ} (hus : ∀ u ∈ us, u < 0x10000) (s : Str) :
    scanPieces (us.flatMap escapeUnit ++ s) =
      (scanPieces s).map fun p => ((us.map fun u => .unit (Fin.ofNat 0x10000 u)) ++ p.1, p.2) := by
  induction us with
  | nil => simp
  | cons u us ih =>
      rw [List.flatMap_cons, List.append_assoc, scanPieces_unit (hus u List.mem_cons_self),
        ih fun v hv => hus v (List.mem_cons_of_mem _ hv), Option.map_map]
      rfl

/-- The letter of an escape is read as the code point that was escaped. -/
private theorem simpleEscape_letter {c letter : CodePoint} (h : escapeLetter c = some letter) :
    simpleEscape letter = some c ∧ letter ≠ cp 'u' := by
  unfold escapeLetter at h
  split at h
  · rename_i hc
    obtain rfl := Option.some.inj h
    rcases hc with rfl | rfl <;> decide
  iterate 5
    split at h
    · rename_i hc
      obtain rfl := Option.some.inj h
      subst hc
      decide
  exact absurd h (by simp)

private theorem scanPieces_point (c : CodePoint) (s : Str) :
    scanPieces (escapePoint c ++ s) = (scanPieces s).map fun p => (piecesOf c ++ p.1, p.2) := by
  unfold escapePoint piecesOf
  cases hletter : escapeLetter c with
  | some letter =>
      obtain ⟨hsimple, hu⟩ := simpleEscape_letter hletter
      simp only [Option.isSome_some, true_or, if_true]
      exact scanPieces_letter hsimple hu s
  | none =>
      simp only [Option.isSome_none, Bool.false_eq_true, false_or]
      by_cases hplain : 32 ≤ c.val ∧ c.val < 127
      · have hne : ¬(c = cp '"' ∨ c = cp '\\') := by
          intro hc
          simp [escapeLetter, hc] at hletter
        rw [not_or] at hne
        rw [if_pos hplain, if_pos hplain]
        exact scanPieces_plain hne.1 hne.2 (by omega) s
      · rw [if_neg hplain, if_neg hplain]
        exact scanPieces_units (fun u hu => unitsOf_lt hu) s

private theorem scanPieces_text (text rest : Str) :
    scanPieces (text.flatMap escapePoint ++ cp '"' :: rest) =
      some (text.flatMap piecesOf, rest) := by
  induction text with
  | nil => exact scanPieces_quote rest
  | cons c text ih =>
      rw [List.flatMap_cons, List.append_assoc, scanPieces_point, ih]
      rfl

/-- A unit that forms no pair with the unit after it is a code point. -/
private theorem joinPieces_unit {u : Fin 0x10000} {rest : List Piece}
    (h : ∀ v tail, rest = .unit v :: tail →
      ¬(0xD800 ≤ u.val ∧ u.val < 0xDC00 ∧ 0xDC00 ≤ v.val ∧ v.val < 0xE000)) :
    joinPieces (.unit u :: rest) = ofUnit u :: joinPieces rest := by
  match rest with
  | [] => rfl
  | .point _ :: _ => rfl
  | .unit v :: tail =>
      rw [joinPieces.eq_def]
      simp only [if_neg (h v tail rfl)]

private theorem piecesOf_units {c : CodePoint} (hletter : ¬((escapeLetter c).isSome ∨
    32 ≤ c.val ∧ c.val < 127)) :
    piecesOf c = (unitsOf c).map fun u => .unit (Fin.ofNat 0x10000 u) := if_neg hletter

/-- The first unit that a text is read back as is that of its first code point, and a code point
of two units starts with a high surrogate. -/
private theorem head_unit {text : Str} {v : Fin 0x10000} {tail : List Piece}
    (h : text.flatMap piecesOf = .unit v :: tail) :
    ∃ d rest, text = d :: rest ∧ (v.val = d.val ∨ v.val < 0xDC00) := by
  cases text with
  | nil => cases h
  | cons d rest =>
      refine ⟨d, rest, rfl, ?_⟩
      have hd := d.isLt
      rw [List.flatMap_cons] at h
      by_cases hpoint : (escapeLetter d).isSome ∨ 32 ≤ d.val ∧ d.val < 127
      · rw [piecesOf, if_pos hpoint] at h
        cases h
      · rw [piecesOf_units hpoint, unitsOf] at h
        split at h
        · rename_i hsmall
          obtain ⟨hhead, -⟩ := List.cons.inj h
          rw [← Piece.unit.inj hhead]
          exact .inl (Nat.mod_eq_of_lt hsmall)
        · obtain ⟨hhead, -⟩ := List.cons.inj h
          rw [← Piece.unit.inj hhead]
          refine .inr ?_
          simp only [Fin.val_ofNat]
          omega

private theorem joinPieces_pair {c : CodePoint} (hc : ¬c.val < 0x10000) (rest : List Piece) :
    joinPieces (((unitsOf c).map fun u => .unit (Fin.ofNat 0x10000 u)) ++ rest) =
      c :: joinPieces rest := by
  have hlt := c.isLt
  have hpair : 0xD800 ≤ (0xD800 + (c.val - 0x10000) / 0x400) % 0x10000 ∧
      (0xD800 + (c.val - 0x10000) / 0x400) % 0x10000 < 0xDC00 ∧
      0xDC00 ≤ (0xDC00 + (c.val - 0x10000) % 0x400) % 0x10000 ∧
      (0xDC00 + (c.val - 0x10000) % 0x400) % 0x10000 < 0xE000 := by omega
  have hvalue : (0x10000 + ((0xD800 + (c.val - 0x10000) / 0x400) % 0x10000 - 0xD800) * 0x400 +
      ((0xDC00 + (c.val - 0x10000) % 0x400) % 0x10000 - 0xDC00)) % 0x110000 = c.val := by omega
  simp only [unitsOf, if_neg hc, List.map_cons, List.map_nil, List.cons_append, List.nil_append]
  rw [joinPieces.eq_def]
  simp only [Fin.val_ofNat, if_pos hpair, List.cons.injEq, and_true]
  exact Fin.ext hvalue

/-- The pieces of a text are joined to the text. -/
private theorem joinPieces_text {text : Str} (h : Str.Unpaired text) :
    joinPieces (text.flatMap piecesOf) = text := by
  induction text with
  | nil => rfl
  | cons c text ih =>
      have hrest := ih h.tail
      rw [List.flatMap_cons]
      by_cases hpoint : (escapeLetter c).isSome ∨ 32 ≤ c.val ∧ c.val < 127
      · rw [piecesOf, if_pos hpoint]
        exact congrArg (c :: ·) hrest
      · rw [piecesOf_units hpoint]
        by_cases hc : c.val < 0x10000
        · have hunit : ofUnit (Fin.ofNat 0x10000 c.val) = c := Fin.ext (Nat.mod_eq_of_lt hc)
          have hjoin : joinPieces (.unit (Fin.ofNat 0x10000 c.val) :: text.flatMap piecesOf) =
              ofUnit (Fin.ofNat 0x10000 c.val) :: joinPieces (text.flatMap piecesOf) := by
            apply joinPieces_unit
            intro v tail htail
            obtain ⟨d, rest, rfl, hv⟩ := head_unit htail
            have hnot : ¬IsPair c d := (List.isChain_cons_cons.1 h).1
            have hval : (Fin.ofNat 0x10000 c.val).val = c.val := Nat.mod_eq_of_lt hc
            rw [hval]
            rintro ⟨hlow, hhigh, hv₁, hv₂⟩
            rcases hv with hv | hv
            · exact hnot ⟨hlow, hhigh, by omega, by omega⟩
            · omega
          rw [unitsOf, if_pos hc, List.map_singleton, List.singleton_append, hjoin, hunit, hrest]
        · rw [joinPieces_pair hc, hrest]

theorem scanString_dumpString {text : Str} (h : Str.Unpaired text) (rest : Str) :
    scanString (text.flatMap escapePoint ++ cp '"' :: rest) = .ok (text, rest) := by
  rw [scanString, scanPieces_text]
  simp only [joinPieces_text h]

/-! ## Numbers -/

/-- A code point that ends every number. -/
def EndsNumber (c : CodePoint) : Prop :=
  isDigit c = false ∧ c ≠ cp '.' ∧ c ≠ cp 'e' ∧ c ≠ cp 'E' ∧ c ≠ cp '+' ∧ c ≠ cp '-'

private theorem span_append {p : CodePoint → Bool} {c : CodePoint} (hc : p c = false)
    (s r : Str) : (s ++ c :: r).span p = ((s.span p).1, (s.span p).2 ++ c :: r) := by
  induction s with
  | nil => simp [List.span_eq_takeWhile_dropWhile, hc]
  | cons d s ih =>
      simp only [List.span_eq_takeWhile_dropWhile, Prod.mk.injEq] at ih ⊢
      by_cases hd : p d = true
      · simp only [List.cons_append, List.takeWhile_cons_of_pos hd, List.dropWhile_cons_of_pos hd,
          ih.1, ih.2, and_self]
      · simp only [List.cons_append, List.takeWhile_cons_of_neg hd, List.dropWhile_cons_of_neg hd,
          and_self]

private theorem expect_append {a : Char} {c : CodePoint} (hc : c ≠ cp a) (s r : Str) :
    expect a (s ++ c :: r) = (expect a s).map (· ++ c :: r) := by
  cases s with
  | nil => simp [expect, hc]
  | cons d s => by_cases hd : d = cp a <;> simp [expect, hd]

private theorem scanInteger_append {s digits rest : Str} {c : CodePoint} (r : Str)
    (hc : EndsNumber c) (h : scanInteger s = some (digits, rest)) :
    scanInteger (s ++ c :: r) = some (digits, rest ++ c :: r) := by
  cases s with
  | nil => simp [scanInteger] at h
  | cons d s =>
      simp only [scanInteger, List.cons_append] at h ⊢
      split at h
      · rename_i hzero
        rw [if_pos hzero]
        simp only [Option.some.injEq, Prod.mk.injEq] at h ⊢
        exact ⟨h.1, by rw [h.2]⟩
      · rename_i hzero
        split at h
        · rename_i hdigit
          have hspan := span_append hc.1 (d :: s) r
          rw [if_neg hzero, if_pos hdigit, ← List.cons_append, hspan]
          rw [Option.some.injEq] at h
          rw [h]
        · contradiction

private theorem scanFraction_append (s : Str) {c : CodePoint} (r : Str) (hc : EndsNumber c) :
    scanFraction (s ++ c :: r) = ((scanFraction s).1, (scanFraction s).2 ++ c :: r) := by
  unfold scanFraction
  rw [expect_append hc.2.1]
  cases expect '.' s with
  | none => rfl
  | some rest =>
      simp only [Option.map_some, span_append hc.1]
      split <;> rfl

private theorem scanExponent_append (s : Str) {c : CodePoint} (r : Str) (hc : EndsNumber c) :
    scanExponent (s ++ c :: r) = ((scanExponent s).1, (scanExponent s).2 ++ c :: r) := by
  obtain ⟨hdigit, -, he, hE, hplus, hminus⟩ := hc
  cases s with
  | nil => simp [scanExponent, he, hE]
  | cons d s =>
      simp only [scanExponent, List.cons_append]
      by_cases hd : d = cp 'e' ∨ d = cp 'E'
      · simp only [if_pos hd]
        cases s with
        | nil => simp [hplus, hminus, hdigit]
        | cons f s =>
            simp only [List.cons_append]
            by_cases hf : f = cp '+' ∨ f = cp '-'
            · simp only [if_pos hf, span_append hdigit]
              split <;> rfl
            · simp only [if_neg hf]
              have hspan := span_append hdigit (f :: s) r
              rw [List.cons_append] at hspan
              rw [hspan]
              split <;> rfl
      · simp only [if_neg hd, List.cons_append]

/-- An optional minus sign, as `scanNumber` reads it. -/
def scanSign (s : Str) : Str × Str :=
  match expect '-' s with
  | some rest => ([cp '-'], rest)
  | none => ([], s)

private theorem scanSign_append (s : Str) {c : CodePoint} (r : Str) (hc : EndsNumber c) :
    scanSign (s ++ c :: r) = ((scanSign s).1, (scanSign s).2 ++ c :: r) := by
  unfold scanSign
  rw [expect_append hc.2.2.2.2.2]
  cases expect '-' s <;> rfl

section Read

variable {L : Loader}

theorem scanNumber_eq (s : Str) :
    scanNumber L s =
      match scanInteger (scanSign s).2 with
      | none => .error .notJson
      | some (integer, rest) =>
          (numberValue L (scanSign s).1 integer (scanFraction rest).1
            (scanExponent (scanFraction rest).2).1).map fun number =>
              (number, (scanExponent (scanFraction rest).2).2) := by
  unfold scanNumber scanSign
  cases expect '-' s with
  | none =>
      dsimp only
      cases scanInteger s with
      | none => rfl
      | some integer =>
          dsimp only
          cases numberValue L [] integer.1 (scanFraction integer.2).1
            (scanExponent (scanFraction integer.2).2).1 <;> rfl
  | some rest =>
      dsimp only
      cases scanInteger rest with
      | none => rfl
      | some integer =>
          dsimp only
          cases numberValue L [cp '-'] integer.1 (scanFraction integer.2).1
            (scanExponent (scanFraction integer.2).2).1 <;> rfl

/-- What follows a number is left where it was. -/
private theorem scanNumber_append {s rest : Str} {v : Value} {c : CodePoint} (r : Str)
    (hc : EndsNumber c) (h : scanNumber L s = .ok (v, rest)) :
    scanNumber L (s ++ c :: r) = .ok (v, rest ++ c :: r) := by
  rw [scanNumber_eq] at h ⊢
  rw [scanSign_append s r hc]
  cases hinteger : scanInteger (scanSign s).2 with
  | none =>
      rw [hinteger] at h
      cases h
  | some integer =>
      rw [hinteger] at h
      rw [scanInteger_append r hc hinteger]
      simp only [scanFraction_append integer.2 r hc, scanExponent_append _ r hc] at h ⊢
      cases hnumber : numberValue L (scanSign s).1 integer.1 (scanFraction integer.2).1
          (scanExponent (scanFraction integer.2).2).1 with
      | error error =>
          rw [hnumber] at h
          cases h
      | ok number =>
          rw [hnumber] at h
          cases h
          rfl

/-! ### Integers -/

private theorem isDigit_digitPoint {d : ℕ} (hd : d < 10) : isDigit (digitPoint d) = true := by
  interval_cases d <;> decide

private theorem digit_lt {n d : ℕ} (h : d ∈ Nat.digits 10 n) : d < 10 :=
  Nat.digits_lt_base (by decide) h

theorem isDigit_dumpNat {n : ℕ} {c : CodePoint} (h : c ∈ dumpNat n) : isDigit c = true := by
  unfold dumpNat at h
  split at h
  · rw [List.mem_singleton.1 h]
    decide
  · obtain ⟨d, hd, rfl⟩ := List.mem_map.1 h
    exact isDigit_digitPoint (digit_lt (List.mem_reverse.1 hd))

private theorem digitsValue_digits (n : ℕ) :
    digitsValue ((Nat.digits 10 n).reverse.map digitPoint) = n := by
  have hdigits : ∀ digits : List ℕ, (∀ d ∈ digits, d < 10) →
      digitsValue (digits.reverse.map digitPoint) = Nat.ofDigits 10 digits := by
    intro digits hdigits
    induction digits with
    | nil => rfl
    | cons d digits ih =>
        have hd := hdigits d List.mem_cons_self
        have hpoint : (digitPoint d).val - 48 = d := by interval_cases d <;> decide
        have hrest := ih fun e he => hdigits e (List.mem_cons_of_mem d he)
        rw [List.reverse_cons, List.map_append, List.map_singleton, digitsValue,
          List.foldl_append, ← digitsValue, hrest, List.foldl_cons, List.foldl_nil, hpoint,
          Nat.ofDigits_cons]
        ring
  rw [hdigits _ fun d hd => digit_lt hd, Nat.ofDigits_digits]

theorem digitsValue_dumpNat (n : ℕ) : digitsValue (dumpNat n) = n := by
  unfold dumpNat
  split
  · rename_i hn
    rw [hn]
    decide
  · exact digitsValue_digits n

/-- A number is not empty, and starts with a zero only where it is zero. -/
private theorem dumpNat_head (n : ℕ) :
    dumpNat n = [cp '0'] ∨ ∃ c digits, dumpNat n = c :: digits ∧ c ≠ cp '0' := by
  unfold dumpNat
  split
  · exact .inl rfl
  · rename_i hn
    have hne : Nat.digits 10 n ≠ [] := Nat.digits_ne_nil_iff_ne_zero.2 hn
    have hlast := Nat.getLast_digit_ne_zero 10 hn
    have hlt := digit_lt (List.getLast_mem hne)
    refine .inr ⟨digitPoint ((Nat.digits 10 n).getLast hne),
      (Nat.digits 10 n).dropLast.reverse.map digitPoint, ?_, ?_⟩
    · conv_lhs => rw [← List.dropLast_append_getLast hne]
      rw [List.reverse_append, List.reverse_singleton, List.singleton_append, List.map_cons]
    · generalize (Nat.digits 10 n).getLast hne = d at hlast hlt
      interval_cases d <;> first | exact absurd rfl hlast | decide

theorem dumpNat_cons (n : ℕ) : ∃ d digits, dumpNat n = d :: digits ∧ isDigit d = true := by
  have hdigit : ∀ {d digits}, dumpNat n = d :: digits → isDigit d = true := by
    intro d digits h
    exact isDigit_dumpNat (h ▸ List.mem_cons_self)
  rcases dumpNat_head n with h | ⟨c, digits, h, -⟩
  · exact ⟨_, _, h, hdigit h⟩
  · exact ⟨_, _, h, hdigit h⟩

private theorem scanInteger_dumpNat (n : ℕ) :
    scanInteger (dumpNat n) = some (dumpNat n, []) := by
  have hall : ∀ d ∈ dumpNat n, isDigit d = true := fun d hd => isDigit_dumpNat hd
  rcases dumpNat_head n with h | ⟨c, digits, h, hc⟩
  · rw [h]
    rfl
  · rw [h] at hall ⊢
    rw [scanInteger, if_neg hc, if_pos (hall c List.mem_cons_self),
      List.span_eq_takeWhile_dropWhile, List.takeWhile_eq_self_iff.2 hall,
      List.dropWhile_eq_nil_iff.2 hall]

private theorem ne_of_isDigit {c : CodePoint} (hc : isDigit c = true) {d : Char}
    (hd : isDigit (cp d) = false) : c ≠ cp d := by
  rintro rfl
  rw [hc] at hd
  cases hd

private theorem scanSign_dumpNat (n : ℕ) : scanSign (dumpNat n) = ([], dumpNat n) := by
  obtain ⟨c, digits, hdigits, hdigit⟩ := dumpNat_cons n
  have hc : c ≠ cp '-' := ne_of_isDigit hdigit (by decide)
  rw [hdigits, scanSign, expect, if_neg hc]

/-- An integer is read back. -/
private theorem scanNumber_dumpInt {n : ℤ} {text : Str} (h : dumpInt L.limits n = some text) :
    scanNumber L text = .ok (.int n, []) := by
  unfold dumpInt at h
  split at h
  · rename_i hlength
    obtain rfl := Option.some.inj h
    have hvalue := digitsValue_dumpNat n.natAbs
    rw [scanNumber_eq]
    by_cases hn : n < 0
    · have hsign : scanSign (cp '-' :: dumpNat n.natAbs) = ([cp '-'], dumpNat n.natAbs) := rfl
      have habs : -(n.natAbs : ℤ) = n := by omega
      rw [if_pos hn, hsign]
      simp only [scanInteger_dumpNat, scanFraction, scanExponent, expect, numberValue, and_self,
        if_true, if_pos hlength, hvalue]
      rw [if_neg (List.cons_ne_nil _ _), habs]
      rfl
    · have habs : (n.natAbs : ℤ) = n := by omega
      rw [if_neg hn, scanSign_dumpNat]
      simp only [scanInteger_dumpNat, scanFraction, scanExponent, expect, numberValue, and_self,
        if_true, if_pos hlength, hvalue, habs]
      rfl
  · cases h

/-! ### Scalars -/

private theorem scanInteger_head {s integer rest : Str}
    (h : scanInteger s = some (integer, rest)) : ∃ c tail, s = c :: tail ∧ isDigit c = true := by
  cases s with
  | nil => cases h
  | cons c tail =>
      refine ⟨c, tail, rfl, ?_⟩
      rw [scanInteger] at h
      by_cases hzero : c = cp '0'
      · rw [hzero]
        decide
      · by_contra hc
        rw [if_neg hzero, if_neg hc] at h
        cases h

/-- A digit, after a sign if there is one. -/
private def startsNumber : Str → Bool
  | c :: d :: _ => isDigit c || c = cp '-' && isDigit d
  | [c] => isDigit c
  | [] => false

private theorem startsNumber_of_isDigit {c : CodePoint} (hc : isDigit c = true) (tail : Str) :
    startsNumber (c :: tail) = true := by
  cases tail with
  | nil => exact hc
  | cons d tail => simp [startsNumber, hc]

private theorem startsNumber_of_scanNumber {s rest : Str} {v : Value}
    (h : scanNumber L s = .ok (v, rest)) : startsNumber s = true := by
  rw [scanNumber_eq] at h
  cases hscan : scanInteger (scanSign s).2 with
  | none =>
      rw [hscan] at h
      cases h
  | some integer =>
      obtain ⟨c, tail, hs, hc⟩ :=
        scanInteger_head (show scanInteger _ = some (integer.1, integer.2) from hscan)
      cases s with
      | nil => cases hs
      | cons first others =>
          by_cases hminus : first = cp '-'
          · have hsign : scanSign (first :: others) = ([cp '-'], others) := by
              simp only [scanSign, expect, if_pos hminus]
            have hs : others = c :: tail := by rw [hsign] at hs; exact hs
            rw [hs, hminus]
            simp only [startsNumber, hc, Bool.and_true, decide_true, Bool.or_true]
          · have hsign : scanSign (first :: others) = ([], first :: others) := by
              simp only [scanSign, expect, if_neg hminus]
            rw [hsign] at hs
            obtain ⟨rfl, -⟩ := List.cons.inj hs
            exact startsNumber_of_isDigit hc others

private theorem words_start :
    (words.all fun word => decide (2 ≤ (lit word.1).length) && !startsNumber (lit word.1)) =
      true := by decide

private theorem startsNumber_append {p : Str} (hp : 2 ≤ p.length) (s : Str) :
    startsNumber (p ++ s) = startsNumber p := by
  match p with
  | [] => cases hp
  | [_] => exact absurd hp (by simp)
  | _ :: _ :: _ => rfl

/-- A text that is a number starts with none of the words. -/
private theorem scanScalar_number {s rest : Str} {v : Value} (h : scanNumber L s = .ok (v, rest)) :
    scanScalar L s = .ok (v, rest) := by
  have hstart := startsNumber_of_scanNumber h
  have hwords : words.find? (fun word => (lit word.1).isPrefixOf s) = none := by
    refine List.find?_eq_none.2 fun word hword hprefix => ?_
    obtain ⟨tail, rfl⟩ := List.isPrefixOf_iff_prefix.1 hprefix
    have hword := List.all_eq_true.1 words_start word hword
    rw [Bool.and_eq_true, decide_eq_true_eq, Bool.not_eq_true'] at hword
    rw [startsNumber_append hword.1, hword.2] at hstart
    cases hstart
  rw [scanScalar, hwords]
  exact h

private theorem scanScalar_word {word : String × Value} (h : word ∈ words) (rest : Str) :
    scanScalar L (lit word.1 ++ rest) = .ok (word.2, rest) := by
  simp only [words, List.mem_cons, List.not_mem_nil, or_false] at h
  rcases h with rfl | rfl | rfl | rfl | rfl | rfl <;> rfl

/-! ## Containers -/

/-- The text of a value is read back as an equal one, up to the comma or bracket after it. -/
structure ReadBack (L : Loader) (depth : ℕ) (v : Value) (text : Str) : Prop where
  starts : ∃ c tail, text = c :: tail ∧ isWhitespace c = false ∧ c ≠ cp ']'
  reads : ∀ {c : CodePoint}, EndsNumber c → ∀ (rest : Str) {fuel : ℕ}, text.length < fuel →
    ∃ w, value L fuel depth (text ++ c :: rest) = .ok (w, c :: rest) ∧ Same v w

private theorem endsNumber_comma : EndsNumber (cp ',') := by unfold EndsNumber; decide

private theorem endsNumber_bracket : EndsNumber (cp ']') := by unfold EndsNumber; decide

private theorem endsNumber_brace : EndsNumber (cp '}') := by unfold EndsNumber; decide

private theorem skipWhitespace_cons {c : CodePoint} (hc : isWhitespace c = false) (s : Str) :
    skipWhitespace (c :: s) = c :: s := by
  simp [skipWhitespace, hc]

private theorem ReadBack.skipWhitespace_append {depth : ℕ} {v : Value} {text : Str}
    (h : ReadBack L depth v text) (rest : Str) :
    skipWhitespace (text ++ rest) = text ++ rest := by
  obtain ⟨c, tail, rfl, hc, -⟩ := h.starts
  exact skipWhitespace_cons hc (tail ++ rest)

private theorem ReadBack.length_pos {depth : ℕ} {v : Value} {text : Str}
    (h : ReadBack L depth v text) : 0 < text.length := by
  obtain ⟨c, tail, rfl, -⟩ := h.starts
  exact Nat.succ_pos _

private theorem expect_self (c : Char) (s : Str) : expect c (cp c :: s) = some s := if_pos rfl

private theorem commaSeparated_cons {text : Str} {texts : List Str} (h : texts ≠ []) :
    commaSeparated (text :: texts) = text ++ cp ',' :: commaSeparated texts := by
  obtain ⟨other, texts, rfl⟩ := List.exists_cons_of_ne_nil h
  rfl

private theorem items_readBack {depth : ℕ} {vs : List Value} {texts : List Str}
    (h : List.Forall₂ (ReadBack L depth) vs texts) (hne : vs ≠ []) (rest : Str) {fuel : ℕ}
    (hfuel : (commaSeparated texts).length + 1 < fuel) :
    ∃ ws, items L fuel depth (commaSeparated texts ++ cp ']' :: rest) = .ok (ws, rest) ∧
      List.Forall₂ Same vs ws := by
  induction h generalizing fuel with
  | nil => contradiction
  | @cons v text vs texts hread hreads ih =>
      obtain ⟨fuel, rfl⟩ : ∃ k, fuel = k + 1 := ⟨fuel - 1, by omega⟩
      cases hreads with
      | nil =>
          have hlength : text.length < fuel := by
            simp only [commaSeparated] at hfuel
            omega
          obtain ⟨w, hw, hsame⟩ := hread.reads endsNumber_bracket rest hlength
          refine ⟨[w], ?_, .cons hsame .nil⟩
          rw [items, commaSeparated, hw]
          rfl
      | @cons other otherText vs texts hother hothers =>
          rw [commaSeparated_cons (List.cons_ne_nil _ _)] at hfuel ⊢
          simp only [List.length_append, List.length_cons] at hfuel
          have hpos := hread.length_pos
          obtain ⟨w, hw, hsame⟩ := hread.reads endsNumber_comma
            (commaSeparated (otherText :: texts) ++ cp ']' :: rest)
            (show text.length < fuel by omega)
          obtain ⟨ws, hws, hsames⟩ := ih (List.cons_ne_nil _ _)
            (show (commaSeparated (otherText :: texts)).length + 1 < fuel by omega)
          have hstart : skipWhitespace (commaSeparated (otherText :: texts) ++ cp ']' :: rest) =
              commaSeparated (otherText :: texts) ++ cp ']' :: rest := by
            cases texts with
            | nil => exact hother.skipWhitespace_append _
            | cons third texts =>
                rw [commaSeparated_cons (List.cons_ne_nil _ _), List.append_assoc]
                exact hother.skipWhitespace_append _
          refine ⟨w :: ws, ?_, .cons hsame hsames⟩
          have hcomma : isWhitespace (cp ',') = false := by decide
          rw [items, List.append_assoc, List.cons_append, hw]
          simp only [bind, Except.bind, skipWhitespace_cons hcomma, expect_self, hstart, hws]
          rfl

/-- The text of a member. -/
structure MemberBack (L : Loader) (depth : ℕ) (item : Str × Value) (text : Str) : Prop where
  key : Str.Unpaired item.1
  member : ∃ own, text = dumpMember item.1 own ∧ ReadBack L depth item.2 own

private theorem MemberBack.head {depth : ℕ} {item : Str × Value} {text : Str}
    (h : MemberBack L depth item text) : ∃ tail, text = cp '"' :: tail := by
  obtain ⟨own, rfl, -⟩ := h.member
  exact ⟨_, rfl⟩

/-- A member is read back with what follows it. -/
private theorem member_readBack {depth fuel : ℕ} {item : Str × Value} {text : Str}
    (h : MemberBack L depth item text) {c : CodePoint} (hc : EndsNumber c) (rest : Str)
    (hfuel : text.length ≤ fuel) :
    ∃ w, Same item.2 w ∧
      members L (fuel + 1) depth (text ++ c :: rest) =
        (match expect ',' (skipWhitespace (c :: rest)) with
        | some s =>
            (members L fuel depth (skipWhitespace s)).map fun more =>
              ((item.1, w) :: more.1, more.2)
        | none =>
            (require '}' (skipWhitespace (c :: rest))).map fun s => ([(item.1, w)], s)) := by
  obtain ⟨own, rfl, hread⟩ := h.member
  have hlength : own.length < fuel := by
    simp only [dumpMember, dumpString, List.length_append, List.length_cons] at hfuel
    omega
  obtain ⟨w, hw, hsame⟩ := hread.reads hc rest hlength
  have hcolon : isWhitespace (cp ':') = false := by decide
  refine ⟨w, hsame, ?_⟩
  rw [members, dumpMember, dumpString]
  simp only [List.cons_append, List.append_assoc, List.nil_append, require, expect_self,
    bind, Except.bind, scanString_dumpString h.key, skipWhitespace_cons hcolon,
    hread.skipWhitespace_append, hw]
  cases expect ',' (skipWhitespace (c :: rest)) with
  | none => cases PyJson.require '}' (skipWhitespace (c :: rest)) <;> rfl
  | some s =>
      dsimp only
      cases members L fuel depth (skipWhitespace s) <;> rfl

private theorem members_readBack {depth : ℕ} {fields : List (Str × Value)} {texts : List Str}
    (h : List.Forall₂ (MemberBack L depth) fields texts) (hne : fields ≠ []) (rest : Str)
    {fuel : ℕ} (hfuel : (commaSeparated texts).length < fuel) :
    ∃ pairs, members L fuel depth (commaSeparated texts ++ cp '}' :: rest) = .ok (pairs, rest) ∧
      pairs.map Prod.fst = fields.map Prod.fst ∧
      List.Forall₂ Same (fields.map Prod.snd) (pairs.map Prod.snd) := by
  induction h generalizing fuel with
  | nil => contradiction
  | @cons field text fields texts hmember hmembers ih =>
      obtain ⟨fuel, rfl⟩ : ∃ k, fuel = k + 1 := ⟨fuel - 1, by omega⟩
      cases hmembers with
      | nil =>
          obtain ⟨w, hsame, hw⟩ := member_readBack hmember endsNumber_brace rest
            (show text.length ≤ fuel by simp only [commaSeparated] at hfuel; omega)
          exact ⟨[(field.1, w)], hw, rfl, .cons hsame .nil⟩
      | @cons other otherText fields texts hother hothers =>
          rw [commaSeparated_cons (List.cons_ne_nil _ _)] at hfuel ⊢
          simp only [List.length_append, List.length_cons] at hfuel
          obtain ⟨w, hsame, hw⟩ := member_readBack hmember endsNumber_comma
            (commaSeparated (otherText :: texts) ++ cp '}' :: rest)
            (show text.length ≤ fuel by omega)
          obtain ⟨pairs, hpairs, hkeys, hsames⟩ := ih (List.cons_ne_nil _ _)
            (show (commaSeparated (otherText :: texts)).length < fuel by omega)
          have hquote : isWhitespace (cp '"') = false := by decide
          have hstart : skipWhitespace (commaSeparated (otherText :: texts) ++ cp '}' :: rest) =
              commaSeparated (otherText :: texts) ++ cp '}' :: rest := by
            obtain ⟨tail, rfl⟩ := hother.head
            cases texts with
            | nil => exact skipWhitespace_cons hquote _
            | cons third texts => exact skipWhitespace_cons hquote _
          refine ⟨(field.1, w) :: pairs, ?_, by simp [hkeys], .cons hsame hsames⟩
          have hcomma : isWhitespace (cp ',') = false := by decide
          rw [List.append_assoc, List.cons_append, hw, skipWhitespace_cons hcomma, expect_self]
          simp only [hstart, hpairs]
          rfl

/-! ## Values -/

private theorem mapM_eq_some {α β : Type} {f : α → Option β} {l : List α} {l' : List β} :
    l.mapM f = some l' ↔ List.Forall₂ (fun a b => f a = some b) l l' := by
  induction l generalizing l' with
  | nil =>
      rw [List.mapM_nil, List.forall₂_nil_left_iff, Option.pure_def, Option.some.injEq]
      exact eq_comm
  | cons a l ih =>
      rw [List.mapM_cons]
      constructor
      · intro h
        obtain ⟨b, hb, hrest⟩ := Option.bind_eq_some_iff.1 h
        obtain ⟨bs, hbs, hl⟩ := Option.bind_eq_some_iff.1 hrest
        obtain rfl := Option.some.inj hl
        exact .cons hb (ih.1 hbs)
      · rintro (_ | ⟨hb, hbs⟩)
        rw [hb, ih.2 hbs]
        rfl

private theorem textItems_map (items : List (Str × Value)) :
    textItems (items.map fun item => (.str item.1, item.2)) = some items := by
  rw [textItems, mapM_eq_some, List.forall₂_map_left_iff]
  exact List.forall₂_same.2 fun item _ => rfl

private theorem get?_append_of_ne {fields : List (Str × Value)} {name : Str}
    (h : name ∉ fields.map Prod.fst) :
    Fields.get? (fields.map fun item => (.str item.1, item.2)) name = none := by
  unfold Fields.get?
  rw [List.find?_map, Option.map_map, Option.map_eq_none_iff, List.find?_eq_none]
  intro item hitem hname
  simp only [Function.comp_apply, decide_eq_true_eq] at hname
  exact h (hname ▸ List.mem_map_of_mem hitem)

/-- Pairs whose keys differ are the items of their `dict`. -/
theorem dictOf_eq {pairs : List (Str × Value)} (h : (pairs.map Prod.fst).Nodup) :
    dictOf pairs = pairs.map fun item => (.str item.1, item.2) := by
  have hfold : ∀ (earlier later : List (Str × Value)),
      ((earlier ++ later).map Prod.fst).Nodup →
      later.foldl (fun fields pair => Fields.set fields pair.1 pair.2)
        (earlier.map fun item => (Value.str item.1, item.2)) =
          (earlier ++ later).map fun item => (.str item.1, item.2) := by
    intro earlier later hnodup
    induction later generalizing earlier with
    | nil => rw [List.append_nil]; rfl
    | cons pair later ih =>
        have hnew : pair.1 ∉ earlier.map Prod.fst := by
          rw [List.map_append, List.map_cons] at hnodup
          intro hmem
          exact (List.disjoint_of_nodup_append hnodup) hmem List.mem_cons_self
        have hset : Fields.set (earlier.map fun item => (Value.str item.1, item.2)) pair.1 pair.2 =
            (earlier ++ [pair]).map fun item => (.str item.1, item.2) := by
          rw [Fields.set, get?_append_of_ne hnew, Option.isSome_none, if_neg Bool.false_ne_true,
            List.map_append]
          rfl
        rw [List.foldl_cons, hset, ih (earlier ++ [pair]) (by simpa using hnodup),
          List.append_assoc]
        rfl
  exact hfold [] pairs h

/-- What begins neither a string nor a container is a scalar. -/
private theorem value_scalar {fuel depth : ℕ} {c : CodePoint} (hquote : c ≠ cp '"')
    (hbrace : c ≠ cp '{') (hbracket : c ≠ cp '[') (s : Str) :
    value L (fuel + 1) depth (c :: s) = scanScalar L (c :: s) := by
  unfold value
  simp only [if_neg hquote, if_neg hbrace, if_neg hbracket]

private theorem readBack_number {depth : ℕ} {v : Value} {text : Str}
    (h : scanNumber L text = .ok (v, [])) : ReadBack L depth v text := by
  have hstart := startsNumber_of_scanNumber h
  obtain ⟨c, tail, rfl, hc⟩ : ∃ c tail, text = c :: tail ∧ (isDigit c = true ∨ c = cp '-') := by
    match text, hstart with
    | [c], hstart => exact ⟨c, [], rfl, .inl hstart⟩
    | c :: d :: tail, hstart =>
        simp only [startsNumber, Bool.or_eq_true, Bool.and_eq_true, decide_eq_true_eq] at hstart
        exact ⟨c, d :: tail, rfl, hstart.imp id And.left⟩
  have hne : ∀ d : Char, isDigit (cp d) = false → cp d ≠ cp '-' → c ≠ cp d := by
    intro d hd hminus
    rcases hc with hc | rfl
    · exact ne_of_isDigit hc hd
    · exact hminus.symm
  refine ⟨⟨c, tail, rfl, ?_, hne ']' (by decide) (by decide)⟩, fun hend rest fuel hfuel => ?_⟩
  · have hspace := hne ' ' (by decide) (by decide)
    have htab := hne '\t' (by decide) (by decide)
    have hline := hne '\n' (by decide) (by decide)
    have hreturn := hne '\r' (by decide) (by decide)
    simp [isWhitespace, hspace, htab, hline, hreturn]
  · obtain ⟨fuel, rfl⟩ : ∃ k, fuel = k + 1 := ⟨fuel - 1, by omega⟩
    have hscan := scanScalar_number (scanNumber_append rest hend h)
    refine ⟨v, ?_, .refl v⟩
    rw [List.cons_append, value_scalar (hne '"' (by decide) (by decide))
      (hne '{' (by decide) (by decide)) (hne '[' (by decide) (by decide)), ← List.cons_append,
      hscan]
    rfl

private theorem readBack_word {depth : ℕ} {w : String × Value} (h : w ∈ words) :
    ReadBack L depth w.2 (lit w.1) := by
  have hhead : ∃ c tail, lit w.1 = c :: tail ∧ (isWhitespace c = false ∧ c ≠ cp ']') ∧
      c ≠ cp '"' ∧ c ≠ cp '{' ∧ c ≠ cp '[' := by
    simp only [words, List.mem_cons, List.not_mem_nil, or_false] at h
    rcases h with rfl | rfl | rfl | rfl | rfl | rfl <;> exact ⟨_, _, rfl, by decide⟩
  have hscan := scanScalar_word (L := L) h
  obtain ⟨c, tail, hword, hstarts, hquote, hbrace, hbracket⟩ := hhead
  rw [hword] at hscan ⊢
  refine ⟨⟨c, tail, rfl, hstarts⟩, fun {d} _ rest {fuel} hfuel => ?_⟩
  obtain ⟨fuel, rfl⟩ : ∃ k, fuel = k + 1 := ⟨fuel - 1, by omega⟩
  refine ⟨w.2, ?_, .refl _⟩
  rw [List.cons_append, value_scalar hquote hbrace hbracket, ← List.cons_append, hscan]

private theorem readBack_str {depth : ℕ} {text : Str} (h : Str.Unpaired text) :
    ReadBack L depth (.str text) (dumpString text) := by
  refine ⟨⟨cp '"', _, rfl, by decide, by decide⟩, fun {c} _ rest {fuel} hfuel => ?_⟩
  obtain ⟨fuel, rfl⟩ : ∃ k, fuel = k + 1 := ⟨fuel - 1, by omega⟩
  refine ⟨.str text, ?_, .refl _⟩
  rw [dumpString, List.cons_append, List.append_assoc, List.singleton_append]
  unfold value
  simp only [if_true, scanString_dumpString h]
  rfl

private theorem readBack_seq {depth : ℕ} {vs : List Value} {texts : List Str}
    (h : List.Forall₂ (ReadBack L depth) vs texts) :
    ReadBack L (depth + 1) (.seq false vs) (cp '[' :: (commaSeparated texts ++ [cp ']'])) := by
  refine ⟨⟨cp '[', _, rfl, by decide, by decide⟩, fun {c} _ rest {fuel} hfuel => ?_⟩
  obtain ⟨fuel, rfl⟩ : ∃ k, fuel = k + 1 := ⟨fuel - 1, by omega⟩
  have hquote : cp '[' ≠ cp '"' := by decide
  have hbrace : cp '[' ≠ cp '{' := by decide
  simp only [List.length_cons, List.length_append, List.length_nil] at hfuel
  rw [List.cons_append, List.append_assoc, List.singleton_append]
  unfold value
  simp only [if_neg hquote, if_neg hbrace, if_true]
  cases h with
  | nil => exact ⟨.seq false [], rfl, .refl _⟩
  | @cons v text vs texts hread hreads =>
      obtain ⟨ws, hws, hsame⟩ := items_readBack (.cons hread hreads) (List.cons_ne_nil _ _)
        (c :: rest) (show (commaSeparated (text :: texts)).length + 1 < fuel by omega)
      obtain ⟨d, tail, htext, hd, hne⟩ := hread.starts
      obtain ⟨more, hmore⟩ : ∃ more, commaSeparated (text :: texts) = d :: more := by
        cases texts with
        | nil => exact ⟨tail, htext⟩
        | cons other texts =>
            rw [commaSeparated_cons (List.cons_ne_nil _ _), htext]
            exact ⟨_, rfl⟩
      rw [hmore] at hws ⊢
      rw [List.cons_append] at hws ⊢
      refine ⟨.seq false ws, ?_, .seq hsame⟩
      simp only [skipWhitespace_cons hd, expect, if_neg hne, hws, bind, Except.bind]
      rfl

private theorem readBack_dict {depth : ℕ} {fields sorted : List (Str × Value)}
    {texts : List Str} (hkeys : (fields.map Prod.fst).Nodup) (hperm : fields.Perm sorted)
    (h : List.Forall₂ (MemberBack L depth) sorted texts) :
    ReadBack L (depth + 1) (.dict (fields.map fun item => (.str item.1, item.2)))
      (cp '{' :: (commaSeparated texts ++ [cp '}'])) := by
  refine ⟨⟨cp '{', _, rfl, by decide, by decide⟩, fun {c} _ rest {fuel} hfuel => ?_⟩
  obtain ⟨fuel, rfl⟩ : ∃ k, fuel = k + 1 := ⟨fuel - 1, by omega⟩
  have hquote : cp '{' ≠ cp '"' := by decide
  simp only [List.length_cons, List.length_append, List.length_nil] at hfuel
  rw [List.cons_append, List.append_assoc, List.singleton_append]
  unfold value
  simp only [if_neg hquote, if_true]
  cases h with
  | nil =>
      obtain rfl := List.perm_nil.1 hperm
      refine ⟨.dict [], ?_, .refl _⟩
      have hbrace : isWhitespace (cp '}') = false := by decide
      rw [commaSeparated, List.nil_append, skipWhitespace_cons hbrace, expect_self]
      simp only [objectValue, List.map_nil, List.nodup_nil, not_true_eq_false, and_false, if_false]
      rfl
  | @cons field text sorted texts hmember hmembers =>
      obtain ⟨pairs, hpairs, hsorted, hsame⟩ := members_readBack (.cons hmember hmembers)
        (List.cons_ne_nil _ _) (c :: rest)
        (show (commaSeparated (text :: texts)).length < fuel by omega)
      obtain ⟨more, hmore⟩ : ∃ more, commaSeparated (text :: texts) = cp '"' :: more := by
        obtain ⟨tail, rfl⟩ := hmember.head
        cases texts with
        | nil => exact ⟨tail, rfl⟩
        | cons other texts => exact ⟨_, rfl⟩
      have hnodup : (pairs.map Prod.fst).Nodup := by
        rw [hsorted]
        exact (hperm.map Prod.fst).nodup_iff.1 hkeys
      have hvalue : objectValue L pairs =
          .ok (.dict (pairs.map fun item => (.str item.1, item.2))) := by
        rw [objectValue, if_neg fun hrepeated => hrepeated.2 hnodup, dictOf_eq hnodup]
      have hbrace : cp '"' ≠ cp '}' := by decide
      have hstart : isWhitespace (cp '"') = false := by decide
      refine ⟨.dict (pairs.map fun item => (.str item.1, item.2)), ?_,
        .dict (hperm.map _) ?_ ?_⟩
      · rw [hmore] at hpairs ⊢
        rw [List.cons_append] at hpairs ⊢
        simp only [skipWhitespace_cons hstart, expect, if_neg hbrace, hpairs, bind, Except.bind,
          hvalue]
        rfl
      · rw [List.map_map, List.map_map]
        have := congrArg (List.map Value.str) hsorted
        rw [List.map_map, List.map_map] at this
        exact this.symm
      · rw [List.map_map, List.map_map]
        exact hsame

end Read

section Dumped

variable {limits : JsonLimits} {F : Floats} {closed : Bool}

@[simp] theorem dump_none {depth : ℕ} : dump limits F depth .none = some (lit "null") := by
  cases depth <;> rfl

@[simp] theorem dump_bool {depth : ℕ} (value : Bool) :
    dump limits F depth (.bool value) = some (lit (if value then "true" else "false")) := by
  cases depth <;> cases value <;> rfl

@[simp] theorem dump_int {depth : ℕ} (n : ℤ) :
    dump limits F depth (.int n) = dumpInt limits n := by
  cases depth <;> rfl

@[simp] theorem dump_float {depth : ℕ} (value : PyFloat) :
    dump limits F depth (.float value) = some (dumpFloat F value) := by
  cases depth <;> rfl

@[simp] theorem dump_str {depth : ℕ} (text : Str) :
    dump limits F depth (.str text) = some (dumpString text) := by
  cases depth <;> rfl

theorem dump_seq {depth : ℕ} {items : List Value} {text : Str} :
    dump limits F (depth + 1) (.seq false items) = some text ↔
      ∃ texts, List.Forall₂ (fun v own => dump limits F depth v = some own) items texts ∧
        text = cp '[' :: (commaSeparated texts ++ [cp ']']) := by
  constructor
  · intro h
    obtain ⟨texts, htexts, htext⟩ := Option.bind_eq_some_iff.1 h
    exact ⟨texts, mapM_eq_some.1 htexts, (Option.some.inj htext).symm⟩
  · rintro ⟨texts, htexts, rfl⟩
    exact Option.bind_eq_some_iff.2 ⟨texts, mapM_eq_some.2 htexts, rfl⟩

theorem dump_dict {depth : ℕ} {items : List (Str × Value)} {text : Str} :
    dump limits F (depth + 1) (.dict (items.map fun item => (.str item.1, item.2))) = some text ↔
      ∃ texts, List.Forall₂ (fun item member => ∃ own, dump limits F depth item.2 = some own ∧
          member = dumpMember item.1 own) (sortItems items) texts ∧
        text = cp '{' :: (commaSeparated texts ++ [cp '}']) := by
  have hmember : ∀ (item : Str × Value) (member : Str),
      (dump limits F depth item.2).map (dumpMember item.1) = some member ↔
        ∃ own, dump limits F depth item.2 = some own ∧ member = dumpMember item.1 own := by
    intro item member
    rw [Option.map_eq_some_iff]
    exact exists_congr fun own => and_congr_right fun _ => eq_comm
  simp only [dump, textItems_map, Option.bind_eq_bind, Option.bind_some,
    Option.bind_eq_some_iff, mapM_eq_some, hmember, Option.some.injEq]
  exact exists_congr fun texts => and_congr_right fun _ => eq_comm

private theorem readBack_float {depth : ℕ} {value : PyFloat}
    (h : ∀ q, value = .finite q → F.IsFloat q) :
    ReadBack ⟨limits, F.read, closed⟩ depth (.float value) (dumpFloat F value) := by
  cases value with
  | finite q => exact readBack_number (F.scanNumber_repr (h q rfl) limits closed)
  | infinite negative =>
      cases negative with
      | false => exact readBack_word (w := ("Infinity", .float (.infinite false))) (by simp [words])
      | true => exact readBack_word (w := ("-Infinity", .float (.infinite true))) (by simp [words])
  | nan => exact readBack_word (w := ("NaN", .float .nan)) (by simp [words])

private theorem readBack_scalar {depth : ℕ} {v : Value} (hv : IsJson F Str.Unpaired v)
    (hscalar : v.isScalar = true) {text : Str} (h : dump limits F depth v = some text) :
    ReadBack ⟨limits, F.read, closed⟩ depth v text := by
  cases hv with
  | none =>
      rw [dump_none] at h
      obtain rfl := Option.some.inj h
      exact readBack_word (w := ("null", .none)) (by simp [words])
  | bool value =>
      rw [dump_bool] at h
      obtain rfl := Option.some.inj h
      cases value with
      | false => exact readBack_word (w := ("false", .bool false)) (by simp [words])
      | true => exact readBack_word (w := ("true", .bool true)) (by simp [words])
  | int n =>
      rw [dump_int] at h
      exact readBack_number (scanNumber_dumpInt h)
  | float hfloat =>
      rw [dump_float] at h
      obtain rfl := Option.some.inj h
      exact readBack_float hfloat
  | str htext =>
      rw [dump_str] at h
      obtain rfl := Option.some.inj h
      exact readBack_str htext
  | seq hitems => cases hscalar
  | dict hkeys htexts hitems => cases hscalar

/-- What is written for a value that JSON represents is read back as an equal value. -/
theorem dump_readBack {depth : ℕ} {v : Value} (hv : IsJson F Str.Unpaired v) {text : Str}
    (h : dump limits F depth v = some text) :
    ReadBack ⟨limits, F.read, closed⟩ depth v text := by
  -- By induction on the nesting that is left; only a container needs some.
  induction depth generalizing v text with
  | zero =>
      cases hv with
      | seq hitems => cases h
      | dict hkeys htexts hitems => cases h
      | none => exact readBack_scalar .none rfl h
      | bool value => exact readBack_scalar (.bool value) rfl h
      | int n => exact readBack_scalar (.int n) rfl h
      | float hfloat => exact readBack_scalar (.float hfloat) rfl h
      | str htext => exact readBack_scalar (.str htext) rfl h
  | succ depth ih =>
      cases hv with
      | @seq items hitems =>
          obtain ⟨texts, hall, rfl⟩ := dump_seq.1 h
          refine readBack_seq ?_
          refine List.forall₂_iff_get.2 ⟨hall.length_eq, fun n hn hn' => ?_⟩
          exact ih (hitems _ (List.get_mem items ⟨n, hn⟩)) (hall.get hn hn')
      | @dict items hkeys hstrings hitems =>
          obtain ⟨texts, hall, rfl⟩ := dump_dict.1 h
          have hperm := sortItems_perm items
          refine readBack_dict hkeys hperm.symm ?_
          refine List.forall₂_iff_get.2 ⟨hall.length_eq, fun n hn hn' => ?_⟩
          have hmem := hperm.mem_iff.1 (List.get_mem (sortItems items) ⟨n, hn⟩)
          obtain ⟨own, hown, hmember⟩ := hall.get hn hn'
          exact ⟨hstrings _ hmem, own, hmember, ih (hitems _ hmem) hown⟩
      | none => exact readBack_scalar .none rfl h
      | bool value => exact readBack_scalar (.bool value) rfl h
      | int n => exact readBack_scalar (.int n) rfl h
      | float hfloat => exact readBack_scalar (.float hfloat) rfl h
      | str htext => exact readBack_scalar (.str htext) rfl h

/-- A document that is written is read back, also with a line break after it. -/
theorem loads_dumps {v : Value} (hv : IsJson F Str.Unpaired v) {text : Str}
    (h : dumps limits F v = some text) :
    ∃ w, loads ⟨limits, F.read, closed⟩ (text ++ [cp '\n']) = .ok w ∧ Same v w := by
  have hread : ReadBack ⟨limits, F.read, closed⟩ limits.depth v text := dump_readBack hv h
  have hend : EndsNumber (cp '\n') := by unfold EndsNumber; decide
  have hlength : text.length < (text ++ [cp '\n']).length + 1 := by
    rw [List.length_append]
    omega
  obtain ⟨w, hw, hsame⟩ := hread.reads hend [] hlength
  refine ⟨w, ?_, hsame⟩
  rw [loads, hread.skipWhitespace_append, hw]
  rfl

end Dumped

end Cortex.PyJson
