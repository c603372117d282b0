import Cortex.Library.JsonRoundTrip

/-!
# No prefix of a printed object is a document

A proper prefix of a printed object has not closed its outer bracket yet.
`closing` walks a text and stops after the bracket that closes the one it starts
inside of; it ignores what strings contain.  The parser consumes exactly what
`closing` walks over (`closing_of_value`), and a walk that has stopped stops at
the same place in every longer text (`closing_append`).
-/

namespace Cortex.Json

inductive Place
  | outside | inString | escaped
  deriving DecidableEq

/-- The rest of the text after the bracket that closes `depth` further brackets. -/
def closing : Place → ℕ → List Char → Option (List Char)
  | _, _, [] => none
  | .escaped, depth, _ :: s => closing .inString depth s
  | .inString, depth, c :: s =>
      if c = '"' then closing .outside depth s
      else if c = '\\' then closing .escaped depth s
      else closing .inString depth s
  | .outside, depth, c :: s =>
      if c = '"' then closing .inString depth s
      else if c = '{' ∨ c = '[' then closing .outside (depth + 1) s
      else if c = '}' ∨ c = ']' then
        match depth with
        | 0 => some s
        | depth + 1 => closing .outside depth s
      else closing .outside depth s

private theorem closing_append {place : Place} {depth : ℕ} {s rest : List Char} (t : List Char)
    (h : closing place depth s = some rest) : closing place depth (s ++ t) = some (rest ++ t) := by
  induction s generalizing place depth with
  | nil => cases place <;> simp [closing] at h
  | cons c s ih =>
      cases place with
      | escaped => exact ih h
      | inString =>
          simp only [closing, List.cons_append] at h ⊢
          by_cases hquote : c = '"'
          · rw [if_pos hquote] at h ⊢
            exact ih h
          rw [if_neg hquote] at h ⊢
          by_cases hback : c = '\\'
          · rw [if_pos hback] at h ⊢
            exact ih h
          · rw [if_neg hback] at h ⊢
            exact ih h
      | outside =>
          simp only [closing, List.cons_append] at h ⊢
          by_cases hquote : c = '"'
          · rw [if_pos hquote] at h ⊢
            exact ih h
          rw [if_neg hquote] at h ⊢
          by_cases hopen : c = '{' ∨ c = '['
          · rw [if_pos hopen] at h ⊢
            exact ih h
          rw [if_neg hopen] at h ⊢
          by_cases hclose : c = '}' ∨ c = ']'
          · rw [if_pos hclose] at h ⊢
            cases depth with
            | zero => simpa using h
            | succ depth => exact ih h
          · rw [if_neg hclose] at h ⊢
            exact ih h

/-! ## What the parser consumes -/

/-- A character that neither opens nor closes anything. -/
def Plain (c : Char) : Prop := c ≠ '"' ∧ c ≠ '{' ∧ c ≠ '[' ∧ c ≠ '}' ∧ c ≠ ']'

private theorem closing_plain {used : List Char} (hused : ∀ c ∈ used, Plain c) (depth : ℕ)
    (s : List Char) : closing .outside depth (used ++ s) = closing .outside depth s := by
  induction used with
  | nil => rfl
  | cons c used ih =>
      obtain ⟨hquote, hopen, hopen', hclose, hclose'⟩ := hused c List.mem_cons_self
      simp only [List.cons_append, closing, if_neg hquote, if_neg (not_or.2 ⟨hopen, hopen'⟩),
        if_neg (not_or.2 ⟨hclose, hclose'⟩)]
      exact ih fun d hd => hused d (List.mem_cons_of_mem _ hd)

/-- The text is a run of characters of one kind, and then the rest. -/
def Consumes (kind : Char → Prop) (s rest : List Char) : Prop :=
  ∃ used, s = used ++ rest ∧ ∀ c ∈ used, kind c

section Consumes

variable {kind kind' : Char → Prop} {s t u : List Char}

theorem Consumes.refl (s : List Char) : Consumes kind s s := ⟨[], rfl, by simp⟩

theorem Consumes.trans (h : Consumes kind s t) (h' : Consumes kind t u) : Consumes kind s u := by
  obtain ⟨used, rfl, hused⟩ := h
  obtain ⟨used', rfl, hused'⟩ := h'
  refine ⟨used ++ used', (List.append_assoc _ _ _).symm, fun c hc => ?_⟩
  rcases List.mem_append.1 hc with hc | hc
  · exact hused c hc
  · exact hused' c hc

theorem Consumes.cons {c : Char} (hc : kind c) (s : List Char) : Consumes kind (c :: s) s :=
  ⟨[c], rfl, by simpa using hc⟩

theorem Consumes.imp (h : Consumes kind s t) (himp : ∀ c, kind c → kind' c) :
    Consumes kind' s t := by
  obtain ⟨used, rfl, hused⟩ := h
  exact ⟨used, rfl, fun c hc => himp c (hused c hc)⟩

private theorem Consumes.closing_eq (h : Consumes Plain s t) (depth : ℕ) :
    closing .outside depth s = closing .outside depth t := by
  obtain ⟨used, rfl, hused⟩ := h
  exact closing_plain hused depth t

private theorem consumes_dropWhile {p : Char → Bool} (hp : ∀ c, p c = true → kind c) (s : List Char) :
    Consumes kind s (s.dropWhile p) := by
  refine ⟨s.takeWhile p, List.takeWhile_append_dropWhile.symm, fun c hc => ?_⟩
  exact hp c (List.mem_takeWhile_imp hc)

private theorem consumes_expect {a : Char} {rest : List Char} (ha : kind a) (h : expect a s = some rest) :
    Consumes kind s rest := by
  cases s with
  | nil => simp [expect] at h
  | cons c s =>
      simp only [expect, Option.ite_none_right_eq_some, Option.some.injEq] at h
      obtain ⟨rfl, rfl⟩ := h
      exact .cons ha s

end Consumes

private theorem consumes_skipWhitespace (s : List Char) : Consumes Plain s (skipWhitespace s) := by
  refine consumes_dropWhile (fun c hc => ?_) s
  simp only [isWhitespace, decide_eq_true_eq] at hc
  rcases hc with rfl | rfl | rfl | rfl <;> simp [Plain]

/-- What a number is spelled with. -/
def NumberChar (c : Char) : Prop :=
  c.isDigit = true ∨ c = '.' ∨ c = 'e' ∨ c = 'E' ∨ c = '+' ∨ c = '-'

private theorem plain_of_numberChar (c : Char) (hc : NumberChar c) : Plain c := by
  rcases hc with hc | rfl | rfl | rfl | rfl | rfl
  · refine ⟨?_, ?_, ?_, ?_, ?_⟩ <;> rintro rfl <;> exact absurd hc (by decide)
  all_goals simp [Plain]

private theorem consumes_span (s : List Char) : Consumes NumberChar s (s.span Char.isDigit).2 := by
  rw [List.span_eq_takeWhile_dropWhile]
  exact consumes_dropWhile (fun c => .inl) s

private theorem consumes_scanInteger {s : List Char} {p : List Char × List Char}
    (h : scanInteger s = some p) : Consumes NumberChar s p.2 := by
  cases s with
  | nil => simp [scanInteger] at h
  | cons c s =>
      simp only [scanInteger] at h
      split at h
      · rename_i hc
        injection h with h
        subst h hc
        exact .cons (.inl (by decide)) s
      · split at h
        · injection h with h
          subst h
          exact consumes_span (c :: s)
        · contradiction

private theorem consumes_scanFraction (s : List Char) : Consumes NumberChar s (scanFraction s).2 := by
  unfold scanFraction
  cases hpoint : expect '.' s with
  | none => exact .refl s
  | some rest =>
      simp only
      split
      · exact .refl s
      · exact (consumes_expect (by simp [NumberChar]) hpoint).trans (consumes_span rest)

private theorem consumes_scanExponent (s : List Char) : Consumes NumberChar s (scanExponent s).2 := by
  cases s with
  | nil => exact .refl []
  | cons e s =>
      simp only [scanExponent]
      by_cases he : e = 'e' ∨ e = 'E'
      · have hletter : NumberChar e := by rcases he with rfl | rfl <;> simp [NumberChar]
        simp only [if_pos he]
        cases s with
        | nil => exact .refl _
        | cons c s =>
            by_cases hc : c = '+' ∨ c = '-'
            · have hsign : NumberChar c := by rcases hc with rfl | rfl <;> simp [NumberChar]
              simp only [if_pos hc]
              split
              · exact .refl _
              · exact (Consumes.cons hletter _).trans
                  ((Consumes.cons hsign s).trans (consumes_span s))
            · simp only [if_neg hc]
              split
              · exact .refl _
              · exact (Consumes.cons hletter _).trans (consumes_span (c :: s))
      · simp only [if_neg he]
        exact .refl _

private theorem consumes_scanSign (s : List Char) : Consumes NumberChar s (scanSign s).2 := by
  unfold scanSign
  cases hminus : expect '-' s with
  | none => exact .refl s
  | some rest => exact consumes_expect (by simp [NumberChar]) hminus

theorem consumes_scanNumber {s : List Char} {p : Value × List Char} (h : scanNumber s = some p) :
    Consumes NumberChar s p.2 := by
  unfold scanNumber at h
  simp only at h
  split at h
  · contradiction
  · rename_i integer hinteger
    injection h with h
    subst h
    exact (consumes_scanSign s).trans ((consumes_scanInteger hinteger).trans
      ((consumes_scanFraction _).trans (consumes_scanExponent _)))

private theorem consumes_scanWord {word : List Char} (hword : ∀ c ∈ word, Plain c) {v : Value}
    {s : List Char} {p : Value × List Char} (h : scanWord word v s = some p) :
    Consumes Plain s p.2 := by
  unfold scanWord at h
  split at h
  · rename_i hprefix
    injection h with h
    subst h
    obtain ⟨rest, rfl⟩ := List.isPrefixOf_iff_prefix.1 hprefix
    exact ⟨word, by simp, hword⟩
  · contradiction

private theorem consumes_scanScalar {s : List Char} {p : Value × List Char} (h : scanScalar s = some p) :
    Consumes Plain s p.2 := by
  simp only [scanScalar, Option.or_eq_some_iff] at h
  rcases h with h | ⟨-, h | ⟨-, h | ⟨-, h | ⟨-, h | ⟨-, h | ⟨-, h⟩⟩⟩⟩⟩⟩
  · exact consumes_scanWord (by simp [Plain]) h
  · exact consumes_scanWord (by simp [Plain]) h
  · exact consumes_scanWord (by simp [Plain]) h
  · exact consumes_scanWord (by simp [Plain]) h
  · exact consumes_scanWord (by simp [Plain]) h
  · exact consumes_scanWord (by simp [Plain]) h
  · exact (consumes_scanNumber h).imp plain_of_numberChar

private theorem hexValue_ne {c : Char} {d : ℕ} (h : hexValue c = some d) : c ≠ '"' ∧ c ≠ '\\' := by
  have hquote : hexValue '"' = none := by decide
  have hback : hexValue '\\' = none := by decide
  refine ⟨?_, ?_⟩
  · rintro rfl
    rw [hquote] at h
    contradiction
  · rintro rfl
    rw [hback] at h
    contradiction

/-- A string is walked over up to its closing quote. -/
private theorem closing_scanUnits {s : List Char} {p : List ℕ × List Char} (h : scanUnits s = some p)
    (depth : ℕ) : closing .inString depth s = closing .outside depth p.2 := by
  induction s using scanUnits.induct generalizing p with
  | case1 => simp [scanUnits] at h
  | case2 s =>
      rw [scanUnits_quote, Option.some.injEq] at h
      subst h
      rfl
  | case3 hne => simp [scanUnits] at h
  | case4 h₁ h₂ h₃ h₄ s hne ih =>
      rw [scanUnits.eq_def] at h
      simp only [if_neg hne, if_true, Option.bind_eq_bind, Option.bind_eq_some_iff] at h
      obtain ⟨d₁, hd₁, d₂, hd₂, d₃, hd₃, d₄, hd₄, q, hq, h⟩ := h
      injection h with h
      subst h
      have hu : ('u' : Char) ≠ '"' ∧ ('u' : Char) ≠ '\\' := by decide
      simp only [closing, if_neg hne, if_true, if_neg (hexValue_ne hd₁).1,
        if_neg (hexValue_ne hd₁).2, if_neg (hexValue_ne hd₂).1, if_neg (hexValue_ne hd₂).2,
        if_neg (hexValue_ne hd₃).1, if_neg (hexValue_ne hd₃).2, if_neg (hexValue_ne hd₄).1,
        if_neg (hexValue_ne hd₄).2]
      exact ih hq
  | case5 s hshort hne =>
      rw [scanUnits.eq_def] at h
      simp at h
  | case6 e s hu hne ih =>
      rw [scanUnits.eq_def] at h
      simp only [if_neg hne, if_true, if_neg hu, Option.bind_eq_bind, Option.bind_eq_some_iff] at h
      obtain ⟨d, -, q, hq, h⟩ := h
      injection h with h
      subst h
      simp only [closing, if_neg hne, if_true]
      exact ih hq
  | case7 c s hquote hback hctrl =>
      rw [scanUnits.eq_def] at h
      simp [hquote, hback, hctrl] at h
  | case8 c s hquote hback hctrl ih =>
      rw [scanUnits_plain hquote hback hctrl, Option.map_eq_some_iff] at h
      obtain ⟨q, hq, rfl⟩ := h
      simp only [closing, if_neg hquote, if_neg hback]
      exact ih hq

/-- The rest of the text once the enclosing bracket is closed and `depth` are still open. -/
def closed : ℕ → List Char → Option (List Char)
  | 0, s => some s
  | depth + 1, s => closing .outside depth s

private theorem closing_expect {c : Char} (hc : c = '}' ∨ c = ']') {s rest : List Char}
    (h : expect c s = some rest) (depth : ℕ) :
    closing .outside depth s = closed depth rest := by
  cases s with
  | nil => simp [expect] at h
  | cons d s =>
      simp only [expect, Option.ite_none_right_eq_some, Option.some.injEq] at h
      obtain ⟨rfl, rfl⟩ := h
      rcases hc with rfl | rfl <;> cases depth <;> rfl

/-- The parser consumes what the walk walks over: a value is balanced, and what follows an
opening bracket goes up to the bracket that closes it. -/
private theorem closing_of_parse (fuel : ℕ) :
    (∀ s p, value fuel s = some p →
      ∀ depth, closing .outside depth s = closing .outside depth p.2) ∧
    (∀ s p, members fuel s = some p → ∀ depth, closing .outside depth s = closed depth p.2) ∧
    (∀ s p, items fuel s = some p → ∀ depth, closing .outside depth s = closed depth p.2) := by
  induction fuel with
  | zero => exact ⟨by simp [value], by simp [members], by simp [items]⟩
  | succ fuel ih =>
      obtain ⟨ihvalue, ihmembers, ihitems⟩ := ih
      refine ⟨fun s p h depth => ?_, fun s p h depth => ?_, fun s p h depth => ?_⟩
      · cases s with
        | nil => simp [value] at h
        | cons c s =>
            rw [value] at h
            by_cases hquote : c = '"'
            · simp only [if_pos hquote, Option.bind_eq_bind, Option.bind_eq_some_iff] at h
              obtain ⟨q, hq, h⟩ := h
              injection h with h
              subst h
              rw [hquote, ← closing_scanUnits hq depth]
              rfl
            rw [if_neg hquote] at h
            by_cases hobj : c = '{'
            · rw [if_pos hobj] at h
              have hopen : closing .outside depth (c :: s) = closing .outside (depth + 1) s := by
                rw [hobj]
                rfl
              rw [hopen, (consumes_skipWhitespace s).closing_eq]
              split at h
              · rename_i rest hclose
                injection h with h
                subst h
                exact closing_expect (.inl rfl) hclose (depth + 1)
              · simp only [Option.bind_eq_bind, Option.bind_eq_some_iff] at h
                obtain ⟨q, hq, h⟩ := h
                split at h
                · injection h with h
                  subst h
                  exact ihmembers _ q hq (depth + 1)
                · contradiction
            rw [if_neg hobj] at h
            by_cases harr : c = '['
            · rw [if_pos harr] at h
              have hopen : closing .outside depth (c :: s) = closing .outside (depth + 1) s := by
                rw [harr]
                rfl
              rw [hopen, (consumes_skipWhitespace s).closing_eq]
              split at h
              · rename_i rest hclose
                injection h with h
                subst h
                exact closing_expect (.inr rfl) hclose (depth + 1)
              · simp only [Option.bind_eq_bind, Option.bind_eq_some_iff] at h
                obtain ⟨q, hq, h⟩ := h
                injection h with h
                subst h
                exact ihitems _ q hq (depth + 1)
            · rw [if_neg harr] at h
              exact (consumes_scanScalar h).closing_eq depth
      · simp only [members, Option.bind_eq_bind, Option.bind_eq_some_iff] at h
        obtain ⟨s₁, hs₁, q, hq, s₂, hs₂, w, hw, h⟩ := h
        have hkey : closing .outside depth s = closing .outside depth q.2 := by
          rw [← closing_scanUnits hq depth]
          cases s with
          | nil => simp [expect] at hs₁
          | cons c s =>
              simp only [expect, Option.ite_none_right_eq_some, Option.some.injEq] at hs₁
              obtain ⟨rfl, rfl⟩ := hs₁
              rfl
        have hcolon : Consumes Plain _ s₂ := consumes_expect (by simp [Plain]) hs₂
        have hvalue := ihvalue _ w hw depth
        rw [hkey, (consumes_skipWhitespace q.2).closing_eq, hcolon.closing_eq,
          (consumes_skipWhitespace s₂).closing_eq, hvalue,
          (consumes_skipWhitespace w.2).closing_eq]
        split at h
        · rename_i rest hcomma
          simp only [Option.bind_eq_some_iff] at h
          obtain ⟨r, hr, h⟩ := h
          injection h with h
          subst h
          rw [(consumes_expect (by simp [Plain]) hcomma).closing_eq,
            (consumes_skipWhitespace rest).closing_eq]
          exact ihmembers _ r hr depth
        · simp only [Option.bind_eq_some_iff] at h
          obtain ⟨r, hr, h⟩ := h
          injection h with h
          subst h
          exact closing_expect (.inl rfl) hr depth
      · simp only [items, Option.bind_eq_bind, Option.bind_eq_some_iff] at h
        obtain ⟨w, hw, h⟩ := h
        rw [ihvalue _ w hw depth, (consumes_skipWhitespace w.2).closing_eq]
        split at h
        · rename_i rest hcomma
          simp only [Option.bind_eq_some_iff] at h
          obtain ⟨r, hr, h⟩ := h
          injection h with h
          subst h
          rw [(consumes_expect (by simp [Plain]) hcomma).closing_eq,
            (consumes_skipWhitespace rest).closing_eq]
          exact ihitems _ r hr depth
        · simp only [Option.bind_eq_some_iff] at h
          obtain ⟨r, hr, h⟩ := h
          injection h with h
          subst h
          exact closing_expect (.inr rfl) hr depth

/-! ## Prefixes -/

/-- The bracket that opens an object is closed where its value ends. -/
private theorem closing_of_object {fuel : ℕ} {s : List Char} {p : Value × List Char}
    (h : value fuel ('{' :: s) = some p) : closing .outside 0 s = some p.2 := by
  -- Seen from inside one more bracket, the value is balanced.
  cases fuel with
  | zero => simp [value] at h
  | succ fuel =>
      have hquote : ('{' : Char) ≠ '"' := by decide
      rw [value, if_neg hquote, if_pos rfl] at h
      rw [(consumes_skipWhitespace s).closing_eq]
      split at h
      · rename_i rest hclose
        injection h with h
        subst h
        exact closing_expect (.inl rfl) hclose 0
      · simp only [Option.bind_eq_bind, Option.bind_eq_some_iff] at h
        obtain ⟨q, hq, h⟩ := h
        split at h
        · injection h with h
          subst h
          exact (closing_of_parse fuel).2.1 _ q hq 0
        · contradiction

/-- A document that starts with a bracket and is not empty closes it. -/
private theorem closing_of_loads {s : List Char} {v : Value} (h : loads ('{' :: s) = some v) :
    ∃ rest, closing .outside 0 s = some rest ∧ skipWhitespace rest = [] := by
  have hstart : skipWhitespace ('{' :: s) = '{' :: s := rfl
  rw [loads, hstart] at h
  split at h
  · contradiction
  · rename_i v' rest hvalue
    split at h
    · exact ⟨rest, closing_of_object hvalue, ‹_›⟩
    · contradiction

/-- No proper prefix of a printed object is a document. -/
theorem loads_prefix {ms : List (List Char × Scalar)} (hne : ms ≠ [])
    (hvalid : ∀ m ∈ ms, m.2.Valid) (hkeys : (ms.map Prod.fst).Nodup) {s t : List Char}
    (hst : s ++ t = dumps ms) (ht : t ≠ []) : loads s = none := by
  cases s with
  | nil => rfl
  | cons c s =>
      rw [dumps, List.cons_append, List.cons.injEq] at hst
      obtain ⟨rfl, hst⟩ := hst
      cases hloads : loads ('{' :: s) with
      | none => rfl
      | some v =>
          exfalso
          obtain ⟨rest, hrest, -⟩ := closing_of_loads hloads
          have hlong := closing_append t hrest
          have hwhole := value_dumps hne hvalid hkeys (Nat.lt_succ_self (ms.length + 1)) []
          rw [List.append_nil, dumps] at hwhole
          rw [hst, closing_of_object hwhole, Option.some.injEq] at hlong
          exact ht (List.append_eq_nil_iff.1 hlong.symm).2

end Cortex.Json
