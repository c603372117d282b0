import Cortex.Library.PyRoundTrip
import Cortex.Library.Transaction

/-!
# What is read can be written

A document that is read without a repeated key is a value that JSON represents,
and under the same limits it is written again.  What is written is one line of
printable ASCII.
-/

namespace Cortex.PyJson

open Py
open Transaction (bind_eq_ok pure_eq_ok)

/-! ## What a reading leaves -/

/-- Printable ASCII. -/
def Printable (c : CodePoint) : Prop := 32 ≤ c.val ∧ c.val < 127

instance (c : CodePoint) : Decidable (Printable c) := inferInstanceAs (Decidable (_ ∧ _))

/-- The text in front of the rest is printable. -/
def Uses (s rest : Str) : Prop := ∃ used, s = used ++ rest ∧ ∀ c ∈ used, Printable c

private theorem Uses.refl (s : Str) : Uses s s := ⟨[], rfl, by simp⟩

private theorem Uses.trans {s mid rest : Str} (h : Uses s mid) (h' : Uses mid rest) :
    Uses s rest := by
  obtain ⟨used, rfl, hused⟩ := h
  obtain ⟨more, rfl, hmore⟩ := h'
  refine ⟨used ++ more, (List.append_assoc _ _ _).symm, fun c hc => ?_⟩
  exact (List.mem_append.1 hc).elim (hused c) (hmore c)

private theorem Uses.cons {c : CodePoint} (hc : Printable c) {s rest : Str} (h : Uses s rest) :
    Uses (c :: s) rest := by
  obtain ⟨used, rfl, hused⟩ := h
  refine ⟨c :: used, rfl, fun d hd => ?_⟩
  rcases List.mem_cons.1 hd with rfl | hd
  · exact hc
  · exact hused d hd

private theorem Uses.suffix {s rest : Str} (h : Uses s rest) : rest <:+ s := by
  obtain ⟨used, rfl, -⟩ := h
  exact List.suffix_append used rest

private theorem printable_of_isDigit {c : CodePoint} (hc : isDigit c = true) : Printable c := by
  simp only [isDigit, decide_eq_true_eq] at hc
  exact ⟨by omega, by omega⟩

private theorem uses_span (s : Str) : Uses s (s.span isDigit).2 := by
  rw [List.span_eq_takeWhile_dropWhile]
  refine ⟨s.takeWhile isDigit, List.takeWhile_append_dropWhile.symm, fun c hc => ?_⟩
  exact printable_of_isDigit (List.mem_takeWhile_imp hc)

private theorem scanInteger_uses {s integer rest : Str}
    (h : scanInteger s = some (integer, rest)) :
    s = integer ++ rest ∧ integer ≠ [] ∧ ∀ c ∈ integer, isDigit c = true := by
  cases s with
  | nil => cases h
  | cons c tail =>
      rw [scanInteger] at h
      by_cases hzero : c = cp '0'
      · rw [if_pos hzero] at h
        obtain ⟨rfl, rfl⟩ := Prod.mk.inj (Option.some.inj h)
        refine ⟨rfl, List.cons_ne_nil _ _, fun d hd => ?_⟩
        rw [List.mem_singleton.1 hd, hzero]
        decide
      · rw [if_neg hzero] at h
        by_cases hc : isDigit c = true
        · rw [if_pos hc, List.span_eq_takeWhile_dropWhile] at h
          obtain ⟨rfl, rfl⟩ := Prod.mk.inj (Option.some.inj h)
          refine ⟨List.takeWhile_append_dropWhile.symm, ?_, fun d hd => List.mem_takeWhile_imp hd⟩
          rw [List.takeWhile_cons_of_pos hc]
          exact List.cons_ne_nil _ _
        · rw [if_neg hc] at h
          cases h

private theorem expect_uses {c : Char} (hc : Printable (cp c)) {s rest : Str}
    (h : expect c s = some rest) : Uses s rest := by
  cases s with
  | nil => cases h
  | cons d s =>
      rw [expect] at h
      by_cases hd : d = cp c
      · rw [if_pos hd] at h
        obtain rfl := Option.some.inj h
        exact (Uses.refl s).cons (hd ▸ hc)
      · rw [if_neg hd] at h
        cases h

private theorem scanFraction_uses (s : Str) : Uses s (scanFraction s).2 := by
  unfold scanFraction
  cases hdot : expect '.' s with
  | none => exact .refl s
  | some rest =>
      dsimp only
      split
      · exact .refl s
      · exact (expect_uses (by decide) hdot).trans (uses_span rest)

private theorem scanExponent_uses (s : Str) : Uses s (scanExponent s).2 := by
  have hdigits : ∀ (used : Str) {rest : Str}, Uses s rest →
      Uses s (if (rest.span isDigit).1 = [] then (([] : Str), s)
        else (used ++ (rest.span isDigit).1, (rest.span isDigit).2)).2 := by
    intro used rest hrest
    split
    · exact .refl s
    · exact hrest.trans (uses_span rest)
  cases s with
  | nil => exact .refl []
  | cons e rest =>
      unfold scanExponent
      by_cases he : e = cp 'e' ∨ e = cp 'E'
      · have hletter : Printable e := by
          rcases he with rfl | rfl <;> decide
        simp only [if_pos he]
        cases rest with
        | nil => exact hdigits [e] ((Uses.refl _).cons hletter)
        | cons c tail =>
            by_cases hc : c = cp '+' ∨ c = cp '-'
            · have hsign : Printable c := by
                rcases hc with rfl | rfl <;> decide
              simp only [if_pos hc]
              exact hdigits (e :: [c]) (((Uses.refl tail).cons hsign).cons hletter)
            · simp only [if_neg hc]
              exact hdigits (e :: []) ((Uses.refl (c :: tail)).cons hletter)
      · simp only [if_neg he]
        exact .refl _

private theorem scanSign_uses (s : Str) : Uses s (scanSign s).2 := by
  unfold scanSign
  cases hminus : expect '-' s with
  | none => exact .refl s
  | some rest => exact expect_uses (by decide) hminus

section Accepted

variable {limits : JsonLimits} {F : Floats} {closed : Bool}

/-! ## Numbers -/

private theorem digitsValue_lt (digits : Str) (h : ∀ c ∈ digits, isDigit c = true) :
    digitsValue digits < 10 ^ digits.length := by
  induction digits using List.reverseRecOn with
  | nil => decide
  | append_singleton digits c ih =>
      have hc : isDigit c = true := h c (by simp)
      have hrest := ih fun d hd => h d (List.mem_append_left _ hd)
      simp only [isDigit, decide_eq_true_eq] at hc
      rw [digitsValue, List.foldl_append, ← digitsValue, List.foldl_cons, List.foldl_nil,
        List.length_append, List.length_singleton, pow_succ]
      omega

/-- A number has no more digits than a text that spells it. -/
private theorem length_dumpNat {digits : Str} (hne : digits ≠ [])
    (h : ∀ c ∈ digits, isDigit c = true) :
    (dumpNat (digitsValue digits)).length ≤ digits.length := by
  unfold dumpNat
  split
  · exact List.length_pos_iff.2 hne
  · rw [List.length_map, List.length_reverse]
    exact (Nat.digits_length_le_iff (by decide) _).2 (digitsValue_lt digits h)

/-- A number that is read can be written. -/
private theorem scanNumber_accepts {P : Str → Prop} {depth : ℕ} {s rest : Str} {v : Value}
    (h : scanNumber ⟨limits, F.read, closed⟩ s = .ok (v, rest)) :
    Uses s rest ∧ IsJson F P v ∧ (dump limits F depth v).isSome = true := by
  rw [scanNumber_eq] at h
  cases hscan : scanInteger (scanSign s).2 with
  | none =>
      rw [hscan] at h
      cases h
  | some found =>
      obtain ⟨integer, mid⟩ := found
      obtain ⟨hmid, hne, hdigits⟩ := scanInteger_uses hscan
      rw [hscan] at h
      dsimp only at h
      have huses : Uses s (scanExponent (scanFraction mid).2).2 := by
        have hinteger : Uses (scanSign s).2 mid :=
          ⟨integer, hmid, fun c hc => printable_of_isDigit (hdigits c hc)⟩
        exact (scanSign_uses s).trans (hinteger.trans
          ((scanFraction_uses mid).trans (scanExponent_uses _)))
      unfold numberValue at h
      split at h
      · split at h
        · rename_i hlength
          obtain ⟨rfl, rfl⟩ := Prod.mk.inj (Except.ok.inj h)
          refine ⟨huses, .int _, ?_⟩
          have habs : (if (scanSign s).1 = [] then (digitsValue integer : ℤ)
              else -(digitsValue integer : ℤ)).natAbs = digitsValue integer := by
            split <;> simp
          have hshort := (length_dumpNat hne hdigits).trans hlength
          rw [dump_int, dumpInt, habs, if_pos hshort]
          rfl
        · cases h
      · obtain ⟨rfl, rfl⟩ := Prod.mk.inj (Except.ok.inj h)
        refine ⟨huses, .float fun q hq => F.isFloat_of_read hq, ?_⟩
        rw [dump_float]
        rfl

private theorem scanScalar_accepts {P : Str → Prop} {depth : ℕ} {s rest : Str} {v : Value}
    (h : scanScalar ⟨limits, F.read, closed⟩ s = .ok (v, rest)) :
    rest <:+ s ∧ IsJson F P v ∧ (dump limits F depth v).isSome = true := by
  unfold scanScalar at h
  split at h
  · rename_i word hword
    obtain ⟨rfl, rfl⟩ := Prod.mk.inj (Except.ok.inj h)
    have hmem : word ∈ words := List.mem_of_find?_eq_some hword
    refine ⟨List.drop_suffix _ s, ?_⟩
    simp only [words, List.mem_cons, List.not_mem_nil, or_false] at hmem
    rcases hmem with rfl | rfl | rfl | rfl | rfl | rfl
    · exact ⟨.none, by simp⟩
    · exact ⟨.bool true, by simp⟩
    · exact ⟨.bool false, by simp⟩
    all_goals exact ⟨.float (fun q hq => by cases hq), by simp⟩
  · obtain ⟨huses, haccepts⟩ := scanNumber_accepts h
    exact ⟨huses.suffix, haccepts⟩

/-! ## Strings -/

private theorem skipWhitespace_suffix (s : Str) : skipWhitespace s <:+ s :=
  List.dropWhile_suffix _

private theorem expect_suffix {c : Char} {s rest : Str} (h : expect c s = some rest) :
    rest <:+ s := by
  cases s with
  | nil => cases h
  | cons d s =>
      rw [expect] at h
      split at h
      · obtain rfl := Option.some.inj h
        exact List.suffix_cons d s
      · cases h

private theorem require_suffix {c : Char} {s rest : Str} (h : require c s = .ok rest) :
    rest <:+ s := by
  unfold require at h
  split at h
  · rename_i found hfound
    obtain rfl := Except.ok.inj h
    exact expect_suffix hfound
  · cases h

/-- No surrogate. -/
def IsScalar (c : CodePoint) : Prop := c.val < 0xD800 ∨ 0xDFFF < c.val

private theorem simpleEscape_isScalar {e d : CodePoint} (h : simpleEscape e = some d) :
    IsScalar d := by
  unfold simpleEscape at h
  split at h
  · rename_i he
    obtain rfl := Option.some.inj h
    rcases he with rfl | rfl | rfl <;> exact .inl (by decide)
  iterate 5
    split at h
    · obtain rfl := Option.some.inj h
      exact .inl (by decide)
  cases h

private theorem scanPieces_accepts (s : Str) : ∀ {rest : Str} {pieces : List Piece},
    scanPieces s = some (pieces, rest) →
    rest <:+ s ∧ (s.IsUtf8 → ∀ c, Piece.point c ∈ pieces → IsScalar c) := by
  have htail : ∀ {s later : Str}, later <:+ s → s.IsUtf8 → later.IsUtf8 :=
    fun hsuffix hs c hc => hs c (hsuffix.mem hc)
  fun_induction scanPieces s with
  | case1 => intro rest pieces h; cases h
  | case2 s =>
      intro rest pieces h
      obtain ⟨rfl, rfl⟩ := Prod.mk.inj (Option.some.inj h)
      exact ⟨List.suffix_cons _ _, fun _ c hc => absurd hc (List.not_mem_nil)⟩
  | case3 => intro rest pieces h; cases h
  | case4 h₁ h₂ h₃ h₄ s hquote ih =>
      intro rest pieces h
      obtain ⟨u, -, h⟩ := Option.bind_eq_some_iff.1 h
      obtain ⟨⟨more, rest'⟩, hmore, h⟩ := Option.bind_eq_some_iff.1 h
      obtain ⟨rfl, rfl⟩ := Prod.mk.inj (Option.some.inj h)
      obtain ⟨hrest, hpoints⟩ := ih hmore
      have hlater : s <:+ cp '\\' :: cp 'u' :: h₁ :: h₂ :: h₃ :: h₄ :: s :=
        List.suffix_append [cp '\\', cp 'u', h₁, h₂, h₃, h₄] s
      refine ⟨hrest.trans hlater, fun hs c hc => ?_⟩
      exact hpoints (htail hlater hs) c ((List.mem_cons.1 hc).resolve_left Piece.noConfusion)
  | case5 => intro rest pieces h; cases h
  | case6 e s hu hquote ih =>
      intro rest pieces h
      obtain ⟨d, hd, h⟩ := Option.bind_eq_some_iff.1 h
      obtain ⟨⟨more, rest'⟩, hmore, h⟩ := Option.bind_eq_some_iff.1 h
      obtain ⟨rfl, rfl⟩ := Prod.mk.inj (Option.some.inj h)
      obtain ⟨hrest, hpoints⟩ := ih hmore
      have hlater : s <:+ cp '\\' :: e :: s := List.suffix_append [cp '\\', e] s
      refine ⟨hrest.trans hlater, fun hs c hc => ?_⟩
      rcases List.mem_cons.1 hc with hc | hc
      · rw [Piece.point.inj hc]
        exact simpleEscape_isScalar hd
      · exact hpoints (htail hlater hs) c hc
  | case7 => intro rest pieces h; cases h
  | case8 c s hquote hback hctrl ih =>
      intro rest pieces h
      obtain ⟨⟨more, rest'⟩, hmore, h⟩ := Option.bind_eq_some_iff.1 h
      obtain ⟨rfl, rfl⟩ := Prod.mk.inj (Option.some.inj h)
      obtain ⟨hrest, hpoints⟩ := ih hmore
      have hlater : s <:+ c :: s := List.suffix_cons c s
      refine ⟨hrest.trans hlater, fun hs d hd => ?_⟩
      rcases List.mem_cons.1 hd with hd | hd
      · rw [Piece.point.inj hd]
        exact hs c List.mem_cons_self
      · exact hpoints (htail hlater hs) d hd

private theorem unpaired_cons {c : CodePoint} {text : Str} (h : Str.Unpaired text)
    (hhead : ∀ d rest, text = d :: rest → ¬IsPair c d) : Str.Unpaired (c :: text) := by
  cases text with
  | nil => exact List.isChain_singleton c
  | cons d rest => exact List.isChain_cons_cons.2 ⟨hhead d rest rfl, h⟩

private theorem not_isPair_of_isScalar {c d : CodePoint} (hc : IsScalar c) : ¬IsPair c d := by
  rintro ⟨hlow, hhigh, -⟩
  rcases hc with hc | hc <;> omega

/-- Pieces whose code points are no surrogates are joined to a text without a pair that was left
apart, and a low surrogate in front was a unit. -/
private theorem joinPieces_unpaired (pieces : List Piece) :
    (∀ c, Piece.point c ∈ pieces → IsScalar c) →
    Str.Unpaired (joinPieces pieces) ∧
      ∀ d rest, joinPieces pieces = d :: rest → 0xDC00 ≤ d.val → d.val < 0xE000 →
        ∃ v tail, pieces = .unit v :: tail ∧ v.val = d.val := by
  fun_induction joinPieces pieces with
  | case1 => exact fun _ => ⟨List.isChain_nil, fun d rest h => by cases h⟩
  | case2 c pieces ih =>
      intro hpoints
      obtain ⟨hrest, -⟩ := ih fun d hd => hpoints d (List.mem_cons_of_mem _ hd)
      have hc := hpoints c List.mem_cons_self
      refine ⟨unpaired_cons hrest fun d rest _ => not_isPair_of_isScalar hc, ?_⟩
      intro d rest h hlow hhigh
      obtain ⟨rfl, -⟩ := List.cons.inj h
      rcases hc with hc | hc <;> omega
  | case3 u v pieces hpair ih =>
      intro hpoints
      obtain ⟨hrest, -⟩ := ih fun d hd =>
        hpoints d (List.mem_cons_of_mem _ (List.mem_cons_of_mem _ hd))
      obtain ⟨hu, hu', hv, hv'⟩ := hpair
      have hval : (Fin.ofNat 0x110000 (0x10000 + (u.val - 0xD800) * 0x400 + (v.val - 0xDC00))).val =
          0x10000 + (u.val - 0xD800) * 0x400 + (v.val - 0xDC00) := Nat.mod_eq_of_lt (by omega)
      refine ⟨unpaired_cons hrest fun d rest _ => ?_, ?_⟩
      · refine not_isPair_of_isScalar (.inr ?_)
        rw [hval]
        omega
      · intro d rest h hlow hhigh
        obtain ⟨rfl, -⟩ := List.cons.inj h
        rw [hval] at hlow hhigh
        omega
  | case4 u v pieces hpair ih =>
      intro hpoints
      obtain ⟨hrest, hhead⟩ := ih fun d hd => hpoints d (List.mem_cons_of_mem _ hd)
      refine ⟨unpaired_cons hrest ?_, ?_⟩
      · rintro d rest h ⟨hu, hu', hd, hd'⟩
        obtain ⟨w, tail, hpieces, hw⟩ := hhead d rest h hd hd'
        obtain ⟨hwv, -⟩ := List.cons.inj hpieces
        obtain rfl := Piece.unit.inj hwv
        exact hpair ⟨hu, hu', by omega, by omega⟩
      · intro d rest h _ _
        obtain ⟨rfl, -⟩ := List.cons.inj h
        exact ⟨u, _, rfl, rfl⟩
  | case5 u pieces hnone ih =>
      intro hpoints
      obtain ⟨hrest, hhead⟩ := ih fun d hd => hpoints d (List.mem_cons_of_mem _ hd)
      refine ⟨unpaired_cons hrest ?_, ?_⟩
      · rintro d rest h ⟨-, -, hd, hd'⟩
        obtain ⟨w, tail, hpieces, -⟩ := hhead d rest h hd hd'
        exact hnone w tail hpieces
      · intro d rest h _ _
        obtain ⟨rfl, -⟩ := List.cons.inj h
        exact ⟨u, _, rfl, rfl⟩

private theorem scanString_accepts {s text rest : Str} (h : scanString s = .ok (text, rest)) :
    rest <:+ s ∧ (s.IsUtf8 → Str.Unpaired text) := by
  unfold scanString at h
  split at h
  · rename_i pieces later hpieces
    obtain ⟨rfl, rfl⟩ := Prod.mk.inj (Except.ok.inj h)
    obtain ⟨hsuffix, hpoints⟩ := scanPieces_accepts s hpieces
    exact ⟨hsuffix, fun hs => (joinPieces_unpaired pieces (hpoints hs)).1⟩
  · cases h

/-! ## Values -/

/-- The texts of a document that passes a check have a property; a part of such a document passes
it too. -/
structure Passes (Clean P : Str → Prop) : Prop where
  suffix : ∀ {s later : Str}, later <:+ s → Clean s → Clean later
  text : ∀ {s text rest : Str}, scanString s = .ok (text, rest) → Clean s → P text

theorem passes_true : Passes (fun _ => True) fun _ => True :=
  ⟨fun _ h => h, fun _ h => h⟩

/-- A document without surrogates has no texts in which a pair was left apart. -/
theorem passes_unpaired : Passes Str.IsUtf8 Str.Unpaired :=
  ⟨fun hsuffix hs c hc => hs c (hsuffix.mem hc), fun h => (scanString_accepts h).2⟩

variable {Clean P : Str → Prop}

/-- The reader leaves a part of its text, and what it read can be written. -/
def Accepts (limits : JsonLimits) (F : Floats) (Clean P : Str → Prop) (depth : ℕ) (s : Str)
    (vs : List Value) (rest : Str) : Prop :=
  rest <:+ s ∧ ∀ v ∈ vs, (Clean s → IsJson F P v) ∧ (dump limits F depth v).isSome = true

private theorem exists_forall₂ {α β : Type} {R : α → β → Prop} {l : List α}
    (h : ∀ a ∈ l, ∃ b, R a b) : ∃ l', List.Forall₂ R l l' := by
  induction l with
  | nil => exact ⟨[], .nil⟩
  | cons a l ih =>
      obtain ⟨b, hb⟩ := h a List.mem_cons_self
      obtain ⟨l', hl'⟩ := ih fun c hc => h c (List.mem_cons_of_mem a hc)
      exact ⟨b :: l', .cons hb hl'⟩

private theorem accepts_seq {depth : ℕ} {s rest later : Str} {vs : List Value}
    (h : Accepts limits F Clean P depth s vs later) (hlater : rest <:+ later) :
    Accepts limits F Clean P (depth + 1) s [.seq false vs] rest := by
  obtain ⟨hsuffix, hvs⟩ := h
  refine ⟨hlater.trans hsuffix, fun v hv => ?_⟩
  rw [List.mem_singleton.1 hv]
  refine ⟨fun hclean => .seq fun item hitem => (hvs item hitem).1 hclean, ?_⟩
  obtain ⟨texts, htexts⟩ := exists_forall₂ fun item hitem =>
    Option.isSome_iff_exists.1 (hvs item hitem).2
  exact Option.isSome_iff_exists.2 ⟨_, dump_seq.2 ⟨texts, htexts, rfl⟩⟩

theorem isSome_dump_dict {depth : ℕ} {items : List (Str × Value)}
    (h : ∀ item ∈ items, (dump limits F depth item.2).isSome = true) :
    (dump limits F (depth + 1)
      (.dict (items.map fun item => (.str item.1, item.2)))).isSome = true := by
  obtain ⟨texts, htexts⟩ := exists_forall₂ (l := sortItems items)
    (R := fun item member => ∃ own, dump limits F depth item.2 = some own ∧
      member = dumpMember item.1 own) fun item hitem => by
        obtain ⟨own, hown⟩ := Option.isSome_iff_exists.1
          (h item ((sortItems_perm items).mem_iff.1 hitem))
        exact ⟨dumpMember item.1 own, own, hown, rfl⟩
  exact Option.isSome_iff_exists.2 ⟨_, dump_dict.2 ⟨texts, htexts, rfl⟩⟩

/-- The object of members that were read. -/
private theorem accepts_dict {depth : ℕ} {s rest later : Str} {pairs : List (Str × Value)}
    {v : Value} (h : Accepts limits F Clean P depth s (pairs.map Prod.snd) later)
    (hkeys : Clean s → ∀ pair ∈ pairs, P pair.1)
    (hv : objectValue ⟨limits, F.read, true⟩ pairs = .ok v) (hlater : rest <:+ later) :
    Accepts limits F Clean P (depth + 1) s [v] rest := by
  obtain ⟨hsuffix, hpairs⟩ := h
  have hpair : ∀ pair ∈ pairs, (Clean s → IsJson F P pair.2) ∧
      (dump limits F depth pair.2).isSome = true :=
    fun pair hmem => hpairs pair.2 (List.mem_map_of_mem hmem)
  unfold objectValue at hv
  split at hv
  · cases hv
  · rename_i hopen
    have hnodup : (pairs.map Prod.fst).Nodup := by
      by_contra hrepeated
      exact hopen ⟨rfl, hrepeated⟩
    rw [dictOf_eq hnodup] at hv
    obtain rfl := Except.ok.inj hv
    refine ⟨hlater.trans hsuffix, fun v hv => ?_⟩
    rw [List.mem_singleton.1 hv]
    refine ⟨fun hclean => .dict hnodup (hkeys hclean) fun pair hmem =>
      (hpair pair hmem).1 hclean, ?_⟩
    exact isSome_dump_dict fun pair hmem => (hpair pair hmem).2

private theorem Accepts.mono {depth : ℕ} {s inner rest : Str} {vs : List Value}
    (hpasses : Passes Clean P) (h : Accepts limits F Clean P depth inner vs rest)
    (hinner : inner <:+ s) : Accepts limits F Clean P depth s vs rest :=
  ⟨h.1.trans hinner, fun v hv =>
    ⟨fun hclean => (h.2 v hv).1 (hpasses.suffix hinner hclean), (h.2 v hv).2⟩⟩

private theorem Accepts.cons {depth : ℕ} {s later mid rest : Str} {v : Value} {vs : List Value}
    (hpasses : Passes Clean P) (h : Accepts limits F Clean P depth s [v] mid)
    (hlater : later <:+ mid) (hvs : Accepts limits F Clean P depth later vs rest) :
    Accepts limits F Clean P depth s (v :: vs) rest := by
  obtain ⟨hsuffix, hall⟩ := hvs.mono hpasses (hlater.trans h.1)
  refine ⟨hsuffix, fun w hw => ?_⟩
  rcases List.mem_cons.1 hw with rfl | hw
  · exact h.2 w List.mem_cons_self
  · exact hall w hw

/-- What each of the three readers accepts with so much fuel. -/
structure Accepting (limits : JsonLimits) (F : Floats) (Clean P : Str → Prop) (fuel : ℕ) :
    Prop where
  value : ∀ {depth s v rest}, value ⟨limits, F.read, true⟩ fuel depth s = .ok (v, rest) →
    Accepts limits F Clean P depth s [v] rest
  members : ∀ {depth s pairs rest},
    members ⟨limits, F.read, true⟩ fuel depth s = .ok (pairs, rest) →
      Accepts limits F Clean P depth s (pairs.map Prod.snd) rest ∧
        (Clean s → ∀ pair ∈ pairs, P pair.1)
  items : ∀ {depth s vs rest}, items ⟨limits, F.read, true⟩ fuel depth s = .ok (vs, rest) →
    Accepts limits F Clean P depth s vs rest

private theorem value_accepts (hpasses : Passes Clean P) {fuel : ℕ}
    (ih : Accepting limits F Clean P fuel) {depth : ℕ} {s rest : Str} {v : Value}
    (h : value ⟨limits, F.read, true⟩ (fuel + 1) depth s = .ok (v, rest)) :
    Accepts limits F Clean P depth s [v] rest := by
  cases s with
  | nil => cases h
  | cons c s =>
      have hnext : s <:+ c :: s := List.suffix_cons c s
      have hskip : skipWhitespace s <:+ c :: s := (skipWhitespace_suffix s).trans hnext
      unfold value at h
      by_cases hquote : c = cp '"'
      · simp only [if_pos hquote, bind_eq_ok] at h
        obtain ⟨⟨text, later⟩, htext, h⟩ := h
        obtain ⟨rfl, rfl⟩ := Prod.mk.inj (Except.ok.inj h)
        obtain ⟨hlater, -⟩ := scanString_accepts htext
        refine ⟨hlater.trans hnext, fun w hw => ?_⟩
        rw [List.mem_singleton.1 hw]
        exact ⟨fun hclean => .str (hpasses.text htext (hpasses.suffix hnext hclean)), by simp⟩
      simp only [if_neg hquote] at h
      by_cases hbrace : c = cp '{'
      · simp only [if_pos hbrace] at h
        cases depth with
        | zero => cases h
        | succ depth =>
            dsimp only at h
            cases hempty : expect '}' (skipWhitespace s) with
            | some later =>
                simp only [hempty, bind_eq_ok] at h
                obtain ⟨object, hobject, h⟩ := h
                obtain ⟨rfl, rfl⟩ := Prod.mk.inj (Except.ok.inj h)
                have hnone : Accepts limits F Clean P depth (c :: s)
                    (([] : List (Str × Value)).map Prod.snd) (skipWhitespace s) :=
                  ⟨hskip, fun w hw => absurd hw List.not_mem_nil⟩
                exact accepts_dict hnone (fun _ pair hpair => absurd hpair List.not_mem_nil) hobject
                  (expect_suffix hempty)
            | none =>
                simp only [hempty, bind_eq_ok] at h
                obtain ⟨⟨pairs, later⟩, hpairs, object, hobject, h⟩ := h
                obtain ⟨rfl, rfl⟩ := Prod.mk.inj (Except.ok.inj h)
                obtain ⟨haccepts, hkeys⟩ := ih.members hpairs
                exact accepts_dict (haccepts.mono hpasses hskip)
                  (fun hclean => hkeys (hpasses.suffix hskip hclean)) hobject List.suffix_rfl
      simp only [if_neg hbrace] at h
      by_cases hbracket : c = cp '['
      · simp only [if_pos hbracket] at h
        cases depth with
        | zero => cases h
        | succ depth =>
            dsimp only at h
            cases hempty : expect ']' (skipWhitespace s) with
            | some later =>
                simp only [hempty] at h
                obtain ⟨rfl, rfl⟩ := Prod.mk.inj (Except.ok.inj h)
                have hnone : Accepts limits F Clean P depth (c :: s) [] (skipWhitespace s) :=
                  ⟨hskip, fun w hw => absurd hw List.not_mem_nil⟩
                exact accepts_seq hnone (expect_suffix hempty)
            | none =>
                simp only [hempty, bind_eq_ok] at h
                obtain ⟨⟨vs, later⟩, hvs, h⟩ := h
                obtain ⟨rfl, rfl⟩ := Prod.mk.inj (Except.ok.inj h)
                exact accepts_seq ((ih.items hvs).mono hpasses hskip) List.suffix_rfl
      simp only [if_neg hbracket] at h
      obtain ⟨hsuffix, hjson, hdump⟩ := scanScalar_accepts h
      refine ⟨hsuffix, fun w hw => ?_⟩
      rw [List.mem_singleton.1 hw]
      exact ⟨fun _ => hjson, hdump⟩

private theorem members_accepts (hpasses : Passes Clean P) {fuel : ℕ}
    (ih : Accepting limits F Clean P fuel) {depth : ℕ} {s rest : Str}
    {pairs : List (Str × Value)}
    (h : members ⟨limits, F.read, true⟩ (fuel + 1) depth s = .ok (pairs, rest)) :
    Accepts limits F Clean P depth s (pairs.map Prod.snd) rest ∧
      (Clean s → ∀ pair ∈ pairs, P pair.1) := by
  unfold members at h
  simp only [bind_eq_ok] at h
  obtain ⟨s₁, hquote, ⟨key, s₂⟩, hkey, s₃, hcolon, ⟨v, s₄⟩, hv, h⟩ := h
  have hs₁ := require_suffix hquote
  have hs₂ := (scanString_accepts hkey).1.trans hs₁
  have hs₃ := (require_suffix hcolon).trans ((skipWhitespace_suffix s₂).trans hs₂)
  have hvalue := (ih.value hv).mono hpasses ((skipWhitespace_suffix s₃).trans hs₃)
  have htext : Clean s → P key := fun hclean => hpasses.text hkey (hpasses.suffix hs₁ hclean)
  cases hcomma : expect ',' (skipWhitespace s₄) with
  | some s₅ =>
      simp only [hcomma, bind_eq_ok] at h
      obtain ⟨⟨more, s₆⟩, hmore, h⟩ := h
      obtain ⟨rfl, rfl⟩ := Prod.mk.inj (Except.ok.inj h)
      obtain ⟨haccepts, hkeys⟩ := ih.members hmore
      have hlater : skipWhitespace s₅ <:+ s₄ := (skipWhitespace_suffix s₅).trans
        ((expect_suffix hcomma).trans (skipWhitespace_suffix s₄))
      refine ⟨hvalue.cons hpasses hlater haccepts, fun hclean pair hpair => ?_⟩
      rcases List.mem_cons.1 hpair with rfl | hpair
      · exact htext hclean
      · exact hkeys (hpasses.suffix (hlater.trans hvalue.1) hclean) pair hpair
  | none =>
      simp only [hcomma, bind_eq_ok] at h
      obtain ⟨s₅, hbrace, h⟩ := h
      obtain ⟨rfl, rfl⟩ := Prod.mk.inj (Except.ok.inj h)
      have hlater : s₅ <:+ s₄ := (require_suffix hbrace).trans (skipWhitespace_suffix s₄)
      refine ⟨⟨hlater.trans hvalue.1, hvalue.2⟩, fun hclean pair hpair => ?_⟩
      rw [List.mem_singleton.1 hpair]
      exact htext hclean

private theorem items_accepts (hpasses : Passes Clean P) {fuel : ℕ}
    (ih : Accepting limits F Clean P fuel) {depth : ℕ} {s rest : Str} {vs : List Value}
    (h : items ⟨limits, F.read, true⟩ (fuel + 1) depth s = .ok (vs, rest)) :
    Accepts limits F Clean P depth s vs rest := by
  unfold items at h
  simp only [bind_eq_ok] at h
  obtain ⟨⟨v, s₁⟩, hv, h⟩ := h
  have hvalue := ih.value hv
  cases hcomma : expect ',' (skipWhitespace s₁) with
  | some s₂ =>
      simp only [hcomma, bind_eq_ok] at h
      obtain ⟨⟨more, s₃⟩, hmore, h⟩ := h
      obtain ⟨rfl, rfl⟩ := Prod.mk.inj (Except.ok.inj h)
      have hlater : skipWhitespace s₂ <:+ s₁ := (skipWhitespace_suffix s₂).trans
        ((expect_suffix hcomma).trans (skipWhitespace_suffix s₁))
      exact hvalue.cons hpasses hlater (ih.items hmore)
  | none =>
      simp only [hcomma, bind_eq_ok] at h
      obtain ⟨s₂, hbracket, h⟩ := h
      obtain ⟨rfl, rfl⟩ := Prod.mk.inj (Except.ok.inj h)
      have hlater : s₂ <:+ s₁ := (require_suffix hbracket).trans (skipWhitespace_suffix s₁)
      exact ⟨hlater.trans hvalue.1, hvalue.2⟩

private theorem accepting (hpasses : Passes Clean P) (fuel : ℕ) :
    Accepting limits F Clean P fuel := by
  induction fuel with
  | zero => exact ⟨fun h => (by cases h), fun h => (by cases h), fun h => (by cases h)⟩
  | succ fuel ih =>
      exact ⟨value_accepts hpasses ih, members_accepts hpasses ih, items_accepts hpasses ih⟩

/-- A document that is read without a repeated key represents its value, which can be written. -/
theorem loads_accepts (hpasses : Passes Clean P) {s : Str} {v : Value}
    (h : loads ⟨limits, F.read, true⟩ s = .ok v) :
    (Clean s → IsJson F P v) ∧ (dumps limits F v).isSome = true := by
  unfold loads at h
  rw [bind_eq_ok] at h
  obtain ⟨⟨w, rest⟩, hw, h⟩ := h
  dsimp only at h
  split at h
  · obtain rfl := Except.ok.inj h
    have haccepts := ((accepting hpasses _).value hw).mono hpasses (skipWhitespace_suffix s)
    exact haccepts.2 w List.mem_cons_self
  · cases h

/-! ## One line of ASCII -/

private theorem printable_of_all {text : Str}
    (h : text.all (fun c => decide (Printable c)) = true) : ∀ c ∈ text, Printable c :=
  fun c hc => of_decide_eq_true (List.all_eq_true.1 h c hc)

private theorem printable_hexPoint : ∀ d : Fin 16, Printable (hexPoint d) := by decide

private theorem printable_escapeUnit (u : ℕ) : ∀ c ∈ escapeUnit u, Printable c := by
  intro c hc
  simp only [escapeUnit, List.mem_cons, List.not_mem_nil, or_false] at hc
  rcases hc with rfl | rfl | rfl | rfl | rfl | rfl
  · decide
  · decide
  all_goals exact printable_hexPoint _

private theorem printable_escapeLetter {c letter : CodePoint} (h : escapeLetter c = some letter) :
    Printable letter := by
  unfold escapeLetter at h
  split at h
  · rename_i hc
    obtain rfl := Option.some.inj h
    rcases hc with rfl | rfl <;> decide
  iterate 5
    split at h
    · obtain rfl := Option.some.inj h
      decide
  cases h

private theorem printable_escapePoint (c : CodePoint) : ∀ d ∈ escapePoint c, Printable d := by
  intro d hd
  unfold escapePoint at hd
  split at hd
  · rename_i letter hletter
    rcases List.mem_cons.1 hd with rfl | hd
    · decide
    · rw [List.mem_singleton.1 hd]
      exact printable_escapeLetter hletter
  · split at hd
    · rename_i hc
      rw [List.mem_singleton.1 hd]
      exact hc
    · obtain ⟨u, -, hu⟩ := List.mem_flatMap.1 hd
      exact printable_escapeUnit u d hu

private theorem printable_dumpString (text : Str) : ∀ c ∈ dumpString text, Printable c := by
  intro c hc
  simp only [dumpString, List.mem_cons, List.mem_append, List.mem_flatMap, List.not_mem_nil,
    or_false] at hc
  rcases hc with rfl | ⟨d, -, hd⟩ | rfl
  · decide
  · exact printable_escapePoint d c hd
  · decide

private theorem printable_commaSeparated {texts : List Str}
    (h : ∀ text ∈ texts, ∀ c ∈ text, Printable c) : ∀ c ∈ commaSeparated texts, Printable c := by
  induction texts with
  | nil => exact fun c hc => absurd hc List.not_mem_nil
  | cons text texts ih =>
      have hrest := ih fun other hother => h other (List.mem_cons_of_mem text hother)
      have htext := h text List.mem_cons_self
      cases texts with
      | nil => exact htext
      | cons other texts =>
          intro c hc
          rw [commaSeparated, List.mem_append, List.mem_cons] at hc
          rcases hc with hc | rfl | hc
          · exact htext c hc
          · decide
          · exact hrest c hc
          exact List.cons_ne_nil _ _

private theorem printable_brackets {first last : CodePoint} (hfirst : Printable first)
    (hlast : Printable last) {text : Str} (h : ∀ c ∈ text, Printable c) :
    ∀ c ∈ first :: (text ++ [last]), Printable c := by
  intro c hc
  simp only [List.mem_cons, List.mem_append, List.not_mem_nil, or_false] at hc
  rcases hc with rfl | hc | rfl
  · exact hfirst
  · exact h c hc
  · exact hlast

private theorem printable_dumpInt {n : ℤ} {text : Str} (h : dumpInt limits n = some text) :
    ∀ c ∈ text, Printable c := by
  have hdigits : ∀ c ∈ dumpNat n.natAbs, Printable c :=
    fun c hc => printable_of_isDigit (isDigit_dumpNat hc)
  unfold dumpInt at h
  split at h
  · obtain rfl := Option.some.inj h
    split
    · intro c hc
      rcases List.mem_cons.1 hc with rfl | hc
      · decide
      · exact hdigits c hc
    · exact hdigits
  · cases h

private theorem printable_dumpFloat {value : PyFloat}
    (h : ∀ q, value = .finite q → F.IsFloat q) : ∀ c ∈ dumpFloat F value, Printable c := by
  cases value with
  | finite q =>
      have haccepts : Uses (F.repr q) [] ∧ IsJson F (fun _ => True) (.float (.finite q)) ∧
          (dump ⟨0, 0⟩ F 0 (.float (.finite q))).isSome = true :=
        scanNumber_accepts (F.scanNumber_repr (h q rfl) ⟨0, 0⟩ false)
      obtain ⟨used, hused, hprintable⟩ := haccepts.1
      rw [List.append_nil] at hused
      rw [dumpFloat, hused]
      exact hprintable
  | infinite negative =>
      cases negative with
      | false =>
          show ∀ c ∈ lit "Infinity", Printable c
          exact printable_of_all (by decide)
      | true =>
          show ∀ c ∈ lit "-Infinity", Printable c
          exact printable_of_all (by decide)
  | nan =>
      show ∀ c ∈ lit "NaN", Printable c
      exact printable_of_all (by decide)

private theorem exists_of_forall₂ {α β : Type} {R : α → β → Prop} {l : List α} {l' : List β}
    (h : List.Forall₂ R l l') {b : β} (hb : b ∈ l') : ∃ a ∈ l, R a b := by
  induction h with
  | nil => exact absurd hb List.not_mem_nil
  | @cons a c l l' hac _ ih =>
      rcases List.mem_cons.1 hb with rfl | hb
      · exact ⟨a, List.mem_cons_self, hac⟩
      · obtain ⟨d, hd, hdb⟩ := ih hb
        exact ⟨d, List.mem_cons_of_mem a hd, hdb⟩

private theorem printable_dump {depth : ℕ} {v : Value} (hv : IsJson F P v) {text : Str}
    (h : dump limits F depth v = some text) : ∀ c ∈ text, Printable c := by
  induction hv generalizing depth text with
  | none =>
      obtain rfl := Option.some.inj (dump_none.symm.trans h)
      exact printable_of_all (by decide)
  | bool value =>
      obtain rfl := Option.some.inj ((dump_bool value).symm.trans h)
      cases value <;> exact printable_of_all (by decide)
  | int n => exact printable_dumpInt ((dump_int n).symm.trans h)
  | float hfloat =>
      obtain rfl := Option.some.inj ((dump_float _).symm.trans h)
      exact printable_dumpFloat hfloat
  | str htext =>
      obtain rfl := Option.some.inj ((dump_str _).symm.trans h)
      exact printable_dumpString _
  | @seq items hitems ih =>
      cases depth with
      | zero => cases h
      | succ depth =>
          obtain ⟨texts, hall, rfl⟩ := dump_seq.1 h
          refine printable_brackets (by decide) (by decide) (printable_commaSeparated ?_)
          intro text htext
          obtain ⟨item, hitem, hown⟩ := exists_of_forall₂ hall htext
          exact ih item hitem hown
  | @dict items hkeys hstrings hitems ih =>
      cases depth with
      | zero => cases h
      | succ depth =>
          obtain ⟨texts, hall, rfl⟩ := dump_dict.1 h
          refine printable_brackets (by decide) (by decide) (printable_commaSeparated ?_)
          intro text htext
          obtain ⟨item, hitem, own, hown, rfl⟩ := exists_of_forall₂ hall htext
          have hmem := (sortItems_perm items).mem_iff.1 hitem
          intro c hc
          rw [dumpMember, List.mem_append, List.mem_cons] at hc
          rcases hc with hc | rfl | hc
          · exact printable_dumpString _ c hc
          · decide
          · exact ih item hmem hown c hc

/-- What is written is printable ASCII, so it has no line break. -/
theorem printable_dumps {v : Value} (hv : IsJson F P v) {text : Str}
    (h : dumps limits F v = some text) : ∀ c ∈ text, Printable c := printable_dump hv h

end Accepted

end Cortex.PyJson
