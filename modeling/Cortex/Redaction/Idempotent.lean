import Cortex.Redaction.Cut

/-!
# Redacting twice

`redact` settles a text exactly if the cut leaves nothing torn, and nothing is exposed in
what it leaves (`redact_settled_iff`).  A limit below zero cuts the end off again.
-/

namespace Cortex.Redaction

open PyText Regex

variable {classes : CharClasses} {r text : Text} {beside : Text → Text → Text → Prop}
  {ps P K S : List Piece} {edge : Char → Bool} {u : Text}

/-! ## What does not stay -/

/-- In a line that a substitution leaves as it is, every secret is a mask already. -/
theorem read_eq_write
    (hmask : ∀ P s R, ps = P ++ .masked s :: R →
      s ++ readPieces R = redacted ++ writePieces R → s = redacted)
    (heq : readPieces ps = writePieces ps) : ∀ p ∈ ps, p.read = p.write := by
  have hall : ∀ (R P : List Piece), ps = P ++ R → readPieces R = writePieces R →
      ∀ p ∈ R, p.read = p.write := by
    intro R
    induction R with
    | nil =>
        intro P _ _ p hp
        cases hp
    | cons q R ih =>
        intro P hps heq p hp
        cases q with
        | kept c d =>
            obtain ⟨rfl, hR⟩ := List.cons.inj heq
            rcases List.mem_cons.1 hp with rfl | hp
            · rfl
            · exact ih (P ++ [.kept c c]) (by rw [hps]; simp) hR p hp
        | masked s =>
            obtain rfl := hmask P s R hps heq
            rcases List.mem_cons.1 hp with rfl | hp
            · rfl
            · exact ih (P ++ [.masked redacted]) (by rw [hps]; simp)
                (List.append_cancel_left heq) p hp
  exact hall ps [] rfl heq

theorem readPieces_eq_write (h : ∀ p ∈ ps, p.read = p.write) :
    readPieces ps = writePieces ps :=
  List.flatMap_congr h

/-- A rule that a substitution brings about holds of every line that it leaves. -/
theorem holds_of_sub_eq {rule : Rule} {p : Pattern Char} {template : List (Slot Char)}
    (h : rule.Holds (sub p template r)) (heq : sub p template r = r) : rule.Holds r :=
  heq ▸ h

/-- A token that is exposed is masked. -/
theorem botToken_changes {a t b : Text} (hr : Spaced r) (hsplit : r = a ++ redacted ++ (t ++ b))
    (ht : IsToken classes t) : sub (botToken classes) [.text redacted] r ≠ r := by
  intro heq
  obtain ⟨ps, hsound, hread, hwrite, hfind⟩ :=
    (@botToken_masks classes).exists_pieces hr
  rw [heq] at hwrite
  have hplain := (botTokenRule_isPlain classes).plain t ht
  obtain ⟨P, K, S, hps, hK, hP, rfl, -⟩ := aligned hplain.1 hplain.2 (hwrite.trans hsplit)
  -- no secret starts like a mask, so there is none
  have hsame := read_eq_write (fun P s R hps hs => by
    have hne := hsound.ne s (by rw [hps]; simp)
    obtain ⟨c, s, rfl⟩ := List.exists_cons_of_ne_nil hne
    obtain ⟨rfl, -⟩ := List.cons.inj hs
    rcases (hsound.beside P _ R hps).start with ⟨e, -, he⟩ | hfirst
    · cases he
    · exact absurd (hfirst '[' rfl) (by decide)) (hread.trans hwrite.symm)
  have hbefore : readPieces P = a ++ redacted :=
    (readPieces_eq_write fun p hp => hsame p (by rw [hps]; simp [hp])).trans hP
  have hbody : readPieces K = writePieces K :=
    readPieces_eq_write fun p hp => hsame p (by rw [hps]; simp [hp])
  have hne : K ≠ [] := by
    rintro rfl
    exact hplain.ne_nil rfl
  rcases hfind P K S hps hK hne with hnil | ⟨u, l₁, l₂, s, f, L, R, hin⟩ | ⟨c, hc, -⟩
  · refine botToken_none hnil ?_ (hbody ▸ ht)
    intro c hc
    rw [hbefore, List.getLast?_append_of_ne_nil _ (by decide)] at hc
    obtain rfl := Option.some.inj hc
    rw [classes.word_ascii _ (by decide)]
    decide
  · have hlength := hin.label.length_eq
    rw [List.length_append, List.length_append, List.length_nil] at hlength
    rw [← hbody] at hplain
    exact hplain.ne_nil (List.length_eq_zero_iff.1 (by omega))
  · cases hc

theorem colon_not_mem_scheme {a : Text} (ha : ∀ d ∈ a, isSchemeChar d = true) : ':' ∉ a :=
  fun hmem => absurd (ha ':' hmem) (by decide)

theorem at_not_mem_userinfo {info : Text} (h : IsUserinfo info) : '@' ∉ info :=
  fun hmem => absurd (h.2 '@' hmem) (by decide)

/-- A scheme has one colon. -/
theorem IsScheme.count_colon {t : Text} (h : IsScheme t) : t.count ':' = 1 := by
  obtain ⟨c, a, rfl, hc, ha⟩ := h
  have hfirst : c ≠ ':' := by
    rintro rfl
    exact absurd hc (by decide)
  rw [List.count_cons_of_ne hfirst, List.count_append,
    List.count_eq_zero.2 (colon_not_mem_scheme ha)]
  decide

/-- A scheme in a scheme ends where it does. -/
theorem IsScheme.eq_nil {l₁ l₂ t : Text} (h : IsScheme (l₁ ++ (t ++ l₂))) (ht : IsScheme t) :
    l₂ = [] := by
  have hcount := h.count_colon
  rw [List.count_append, List.count_append, ht.count_colon] at hcount
  have hl₁ : ':' ∉ l₁ := List.count_eq_zero.1 (by omega)
  obtain ⟨c, a, heq, hc, ha⟩ := h
  obtain ⟨d, b, rfl, hd, hb⟩ := ht
  have hfirst : ':' ∉ c :: a := by
    intro hmem
    rcases List.mem_cons.1 hmem with rfl | hmem
    · exact absurd hc (by decide)
    · exact colon_not_mem_scheme ha hmem
  have hsecond : ':' ∉ l₁ ++ d :: b := by
    intro hmem
    rcases List.mem_append.1 hmem with hmem | hmem
    · exact hl₁ hmem
    · rcases List.mem_cons.1 hmem with rfl | hmem
      · exact absurd hd (by decide)
      · exact colon_not_mem_scheme hb hmem
  have hsplit : (l₁ ++ d :: b) ++ ':' :: ('/' :: '/' :: l₂) = (c :: a) ++ ':' :: ['/', '/'] := by
    rw [List.append_assoc]
    rw [List.cons_append, List.append_assoc] at heq
    exact heq
  obtain ⟨-, hrest⟩ := Tokens.append_sep_inj hsecond hfirst hsplit
  simpa using hrest

/-- Userinfo that is exposed is masked. -/
theorem userinfo_changes {a scheme info b : Text} (hr : Spaced r)
    (hsplit : r = a ++ (scheme ++ (info ++ '@' :: b))) (ha : Open classes.isWord a)
    (hscheme : IsScheme scheme) (hinfo : IsUserinfo info) (hne : info ≠ redacted) :
    sub (userinfo classes) [.group 1, .text (redacted ++ "@".toList)] r ≠ r := by
  intro heq
  obtain ⟨ps, hsound, hread, hwrite, hfind⟩ :=
    (@userinfo_masks classes).exists_pieces hr
  rw [heq] at hwrite
  have hplain := (userinfoRule_isPlain classes).plain scheme hscheme
  obtain ⟨P, K, S, hps, hK, rfl, rfl, hS⟩ := aligned hplain.1 hplain.2 (hwrite.trans hsplit)
  have hat : '@' ∉ redacted := by decide
  -- a secret ends at its `@`, and so does the mask that is written for it
  have hsame := read_eq_write (fun P s R hps hs => by
    have hbeside := hsound.beside P s R hps
    have hword : '@' ∉ s := fun hmem => absurd (hbeside.word '@' hmem) (by decide)
    have hnext := hbeside.at_sign
    cases R with
    | nil => cases hnext
    | cons q R =>
        cases q with
        | kept c d =>
            obtain rfl := Option.some.inj hnext
            obtain rfl := eq_of_alike_left (hsound.alike '@' d (by rw [hps]; simp)) (by decide)
            exact (Tokens.append_sep_inj hword hat hs).1
        | masked s' =>
            have hmem : .masked s' ∈ ps := by rw [hps]; simp
            obtain ⟨P', S', hps'⟩ := List.append_of_mem hmem
            obtain ⟨c, s', rfl⟩ := List.exists_cons_of_ne_nil (hsound.ne s' hmem)
            obtain rfl := Option.some.inj hnext
            exact absurd ((hsound.beside P' _ S' hps').word '@' (.head _)) (by decide))
    (hread.trans hwrite.symm)
  have hpart : ∀ qs ⊆ ps, readPieces qs = writePieces qs := fun qs hsub =>
    readPieces_eq_write fun p hp => hsame p (hsub hp)
  have hP := hpart P (by rw [hps]; simp)
  have hKw := hpart K (by rw [hps]; simp)
  have hSw := hpart S (by rw [hps]; simp)
  rw [← hKw] at hscheme
  have hKne : K ≠ [] := by
    rintro rfl
    exact hscheme.ne_nil rfl
  rcases hfind P K S hps hK hKne with hnil | ⟨u, l₁, l₂, s, f, L, R, hin⟩ | ⟨c, hc, hhead⟩
  · exact userinfo_none hnil (hP ▸ ha) hscheme info b (hSw.trans hS) hinfo
  · obtain ⟨-, scheme, info', htext, hgs, hscheme', -⟩ := userinfo_find hin.finds
    have hlabel := hin.text_eq (l := scheme) htext (by rw [hgs]; rfl)
    rw [← hlabel] at hscheme'
    have hL : L = [] := hin.kept.eq_nil (hin.read.trans (hscheme'.eq_nil hscheme))
    rw [hin.after, hL] at hS
    exact hne (Tokens.append_sep_inj (at_not_mem_userinfo hinfo) hat hS.symm).1
  · obtain ⟨d, b, hread, hd, -⟩ := hscheme
    rw [hread] at hhead
    obtain rfl := Option.some.inj hhead
    obtain rfl := List.mem_singleton.1 hc
    exact absurd hd (by decide)

/-- What is exposed does not stay. -/
theorem Exposed.changes (h : Exposed classes r) (hr : Spaced r) :
    ∃ p ∈ patterns classes, sub p.1 p.2 r ≠ r := by
  cases h with
  | botToken a t b ht =>
      exact ⟨(Redaction.botToken classes, [.text redacted]), by simp [patterns],
        botToken_changes hr rfl ht⟩
  | userinfo a scheme info b ha hscheme hinfo hne hmask =>
      exact ⟨(Redaction.userinfo classes, [.group 1, .text (redacted ++ "@".toList)]),
        by simp [patterns], userinfo_changes hr rfl ha hscheme hinfo hne⟩

/-! ## Torn lines -/

theorem IsTornMark.not_marked {q : Text} {stop : Char → Bool} (hq : IsTornMark q)
    (hstop : stop '[' = false) : ¬Marked stop q := by
  obtain ⟨⟨k, hk⟩, hnil, hne⟩ := hq
  rintro (h | ⟨w, rfl, -⟩)
  · obtain ⟨c, q, rfl⟩ := List.exists_cons_of_ne_nil hnil
    obtain ⟨rfl, -⟩ := List.cons.inj hk
    rw [h '[' rfl] at hstop
    cases hstop
  · have hw : w = [] := by
      rw [List.append_assoc] at hk
      exact (List.append_eq_nil_iff.1 (List.append_right_eq_self.1 hk)).1
    exact hne (by rw [hw, List.append_nil])

theorem IsTornMark.not_guarded {q : Text} (hq : IsTornMark (q.map fold)) : ¬Guarded q := by
  obtain ⟨⟨k, hk⟩, hnil, hne⟩ := hq
  rintro (h | ⟨m, w, rfl, hm⟩)
  · obtain ⟨c, q, rfl⟩ := List.exists_cons_of_ne_nil (l := q) (by
      rintro rfl
      exact hnil rfl)
    have hmem : c ∈ maskChars := mem_maskChars (hk ▸ by simp)
    have hall : ∀ c ∈ maskChars, isSpace c = false := by decide
    have hspace := h c rfl
    rw [hall c hmem] at hspace
    cases hspace
  · have hm' : m.map fold = redacted := hm
    rw [List.map_append, hm', List.append_assoc] at hk
    have hw := (List.append_eq_nil_iff.1 (List.append_right_eq_self.1 hk)).1
    exact hne (by rw [List.map_append, hm', hw, List.append_nil])

/-- A line that is torn, but not at a blank, does not stay. -/
theorem Torn.changes (h : Torn classes r) (hr : Spaced r) :
    r.getLast? = some ' ' ∨ ∃ p ∈ patterns classes, sub p.1 p.2 r ≠ r := by
  cases h with
  | blank a => exact .inl List.getLast?_concat
  | botPath a q hq =>
      refine .inr ⟨(Redaction.botPath, [.text ("/bot".toList ++ redacted)]), by simp [patterns],
        fun heq => ?_⟩
      have hholds := holds_of_sub_eq (botPath_holds hr) heq
      exact hq.not_marked (by decide) (hholds a _ q rfl trivial rfl)
  | query a q hq =>
      refine .inr ⟨(Redaction.query, [.text ("?".toList ++ redacted)]), by simp [patterns],
        fun heq => ?_⟩
      have hholds := holds_of_sub_eq (query_holds hr) heq
      exact hq.not_marked (by decide) (hholds a _ q rfl trivial rfl)
  | hexSecret a t ha ht =>
      refine .inr ⟨(Redaction.hexSecret, [.text redacted]), by simp [patterns], fun heq => ?_⟩
      have hholds := holds_of_sub_eq (hexSecret_holds hr) heq
      obtain ⟨c, hc, -⟩ := hholds a t [] (by simp) ha ht
      cases hc
  | controlToken a t ha ht =>
      refine .inr ⟨(Redaction.controlToken, [.text redacted]), by simp [patterns], fun heq => ?_⟩
      have hholds := holds_of_sub_eq (controlToken_holds hr) heq
      obtain ⟨c, hc, -⟩ := hholds a t [] (by simp) ha ht
      cases hc
  | bearer a b q ha hb hq =>
      refine .inr ⟨(Redaction.bearer classes, [.text ("Bearer ".toList ++ redacted)]),
        by simp [patterns], fun heq => ?_⟩
      have hholds := holds_of_sub_eq (bearer_holds hr) heq
      exact hq.not_guarded (hholds a _ q rfl ha ⟨b, rfl, hb⟩)
  | keyValue a key sep q ha hkey hsep hq =>
      refine .inr ⟨(Redaction.keyValue classes, [.group 1, .group 2, .text redacted]),
        by simp [patterns], fun heq => ?_⟩
      have hholds := holds_of_sub_eq (keyValue_holds hr) heq
      exact hq.not_guarded (hholds a _ q rfl ha ⟨key, sep, rfl, hkey, hsep⟩)

/-! ## The second redaction -/

/-- A line that every pattern leaves as it is. -/
theorem maskedLine_eq_self (hr : IsLine r)
    (h : ∀ p ∈ patterns classes, sub p.1 p.2 r = r) : maskedLine classes r = r := by
  have hfold : ∀ l : List (Pattern Char × List (Slot Char)), l ⊆ patterns classes →
      l.foldl (fun line p => sub p.1 p.2 line) r = r := by
    intro l
    induction l with
    | nil => exact fun _ => rfl
    | cons p l ih =>
        intro hl
        rw [List.foldl_cons, h p (hl (.head _))]
        exact ih (List.subset_of_cons_subset hl)
  rw [maskedLine, collapse_eq_self hr]
  exact hfold _ (List.Subset.refl _)

/-- A blank at the end is not in the line that is redacted again: the new line has one
blank less. -/
theorem not_prefix_of_blank {s : Text} (hs : IsLine s) (hr : r <+: s)
    (hlast : r.getLast? = some ' ') : ¬r <+: maskedLine classes r := by
  intro hstart
  obtain ⟨a, rfl⟩ := List.getLast?_eq_some_iff.1 hlast
  obtain ⟨z, rfl⟩ := hr
  rw [List.append_assoc] at hs
  have hcount := hstart.sublist.count_le ' '
  rw [(maskedLine_line classes _).2, collapse_append_blank hs, List.count_append] at hcount
  have hblank : [' '].count ' ' = 1 := by decide
  omega

theorem slice_start (line : Text) (limit : ℤ) : slice line limit <+: line := by
  rw [slice]
  split_ifs <;> exact List.take_prefix _ _

theorem slice_of_nonneg {limit : ℤ} (h : 0 ≤ limit) (line : Text) :
    slice line limit = line.take limit.toNat :=
  if_pos h

theorem slice_of_neg {limit : ℤ} (h : limit < 0) (line : Text) :
    slice line limit = line.take (line.length - (-limit).toNat) :=
  if_neg (by omega)

theorem sub_nil (p : Pattern Char) (template : List (Slot Char)) : sub p template [] = [] := rfl

theorem settled_of_eq_nil {limit : ℤ} (h : redact classes text limit = []) :
    Settled classes text limit := by
  have hcollapse : collapse [] = [] := by
    rw [collapse, Xhs.words, Tokens.join_nil]
  have hnil : maskedLine classes [] = [] :=
    maskedLine_eq_self (hcollapse ▸ isLine_collapse []) fun p _ => sub_nil p.1 p.2
  have hslice := slice_start (maskedLine classes []) limit
  rw [hnil] at hslice
  rw [Settled, h, redact, hnil]
  exact ⟨List.prefix_nil.1 hslice, fun p _ => sub_nil p.1 p.2⟩

/-- What a settled redaction says of the line that was cut. -/
theorem Settled.stays {limit : ℤ} (h : Settled classes text limit) :
    IsLine (redact classes text limit) ∧
      maskedLine classes (redact classes text limit) = redact classes text limit := by
  have hs := (maskedLine_line classes text).1
  have hstart := slice_start (maskedLine classes text) limit
  have hlast : (redact classes text limit).getLast? ≠ some ' ' := by
    intro hlast
    refine not_prefix_of_blank hs hstart hlast (?_ : _ <+: maskedLine classes _)
    have hagain := slice_start (maskedLine classes (redact classes text limit)) limit
    rwa [show slice _ limit = _ from h.1] at hagain
  have hline := hs.of_start hstart hlast
  exact ⟨hline, maskedLine_eq_self hline h.2⟩

/-- A cut of the masked line leaves nothing to redact: what is left of it is not torn, and
nothing is exposed in it; a limit below zero leaves nothing at all. -/
structure CutsClean (classes : CharClasses) (line : Text) (limit : ℤ) : Prop where
  not_torn : 0 ≤ limit → ¬Torn classes (line.take limit.toNat)
  not_exposed : 0 ≤ limit → ¬Exposed classes (line.take limit.toNat)
  short : limit < 0 → line.length ≤ (-limit).toNat

theorem settled_of_cutsClean {limit : ℤ} (h : CutsClean classes (maskedLine classes text) limit) :
    Settled classes text limit := by
  have hs := maskedLine_line classes text
  have hkeeps := maskedLine_keepsRules classes text
  by_cases hlimit : 0 ≤ limit
  · have htorn := h.not_torn hlimit
    have hexposed := h.not_exposed hlimit
    have hredact := slice_of_nonneg hlimit (maskedLine classes text)
    have hlength := List.length_take_le limit.toNat (maskedLine classes text)
    have hstart := List.take_prefix limit.toNat (maskedLine classes text)
    rw [← List.take_append_drop limit.toNat (maskedLine classes text)] at hkeeps
    rw [← hredact] at htorn hexposed hstart hkeeps hlength
    have hlast : (slice (maskedLine classes text) limit).getLast? ≠ some ' ' := by
      intro hlast
      obtain ⟨a, ha⟩ := List.getLast?_eq_some_iff.1 hlast
      exact htorn (ha ▸ .blank a)
    have hline := hs.1.of_start hstart hlast
    have hstays := (hkeeps.cut htorn).stays hline.toSpaced hexposed
    refine ⟨?_, hstays⟩
    show slice (maskedLine classes (slice _ limit)) limit = slice _ limit
    rw [maskedLine_eq_self hline hstays, slice_of_nonneg hlimit, List.take_of_length_le hlength]
  · refine settled_of_eq_nil ?_
    have hshort := h.short (by omega)
    rw [redact, slice_of_neg (by omega), Nat.sub_eq_zero_of_le hshort, List.take_zero]

/-- `redact` settles a text exactly if the cut of the masked line is clean. -/
theorem redact_settled_iff (classes : CharClasses) (text : Text) (limit : ℤ) :
    Settled classes text limit ↔ CutsClean classes (maskedLine classes text) limit := by
  refine ⟨fun h => ?_, settled_of_cutsClean⟩
  obtain ⟨hline, hstays⟩ := h.stays
  have hpatterns := h.2
  constructor
  · intro hlimit htorn
    rw [← slice_of_nonneg hlimit] at htorn
    rcases htorn.changes hline.toSpaced with hlast | ⟨p, hp, hne⟩
    · exact hline.last hlast
    · exact hne (hpatterns p hp)
  · intro hlimit hexposed
    rw [← slice_of_nonneg hlimit] at hexposed
    obtain ⟨p, hp, hne⟩ := hexposed.changes hline.toSpaced
    exact hne (hpatterns p hp)
  · -- the second cut takes off as much as the first one
    intro hlimit
    have hlength := congrArg List.length h.1
    rw [redact, hstays, slice_of_neg hlimit, List.length_take] at hlength
    have hfirst : (redact classes text limit).length =
        (maskedLine classes text).length - (-limit).toNat := by
      rw [redact, slice_of_neg hlimit, List.length_take]
      omega
    omega

/-! ## A key that is cut to its length -/

/-- The letters that IGNORECASE takes for one of `[a-z]`. -/
theorem cases_of_isSmall_fold {c : Char} (h : isSmall (fold c) = true) :
    c ∈ ['İ', 'ı', 'ſ', '\u212A'] ∨ isCapital c = true ∨ isSmall c = true := by
  rw [fold] at h
  split_ifs at h with hi hs hk hcapital
  · rcases hi with rfl | rfl <;> simp
  · subst hs
    simp
  · subst hk
    simp
  · exact .inr (.inl hcapital)
  · exact .inr (.inr h)

/-- ASCII, and the letters that IGNORECASE adds to it. -/
def ascii : CharClasses where
  isWord c := isAlnum c || c = '_' || isSmall (fold c)
  isDigit := isNumber
  word_ascii c hc := by
    have hsmall : isSmall (fold c) = true → isAlnum c = true := by
      intro h
      rcases cases_of_isSmall_fold h with hmem | hcapital | hsmall
      · simp only [List.mem_cons, List.not_mem_nil, or_false] at hmem
        rcases hmem with rfl | rfl | rfl | rfl <;> exact absurd hc (by decide)
      · simp [isAlnum, hcapital]
      · simp [isAlnum, hsmall]
    cases h : isSmall (fold c) with
    | false => simp
    | true => simp [hsmall h]
  digit_ascii _ _ := rfl
  word_of_digit c hc := by simp [isAlnum, hc]
  not_space_of_word c hc := by
    simp only [Bool.or_eq_true, decide_eq_true_eq] at hc
    rcases hc with (hc | rfl) | hc
    · exact not_isSpace_of_isKeyChar (isKeyChar_of_isAlnum hc)
    · decide
    · rcases cases_of_isSmall_fold hc with hmem | hcapital | hsmall
      · simp only [List.mem_cons, List.not_mem_nil, or_false] at hmem
        rcases hmem with rfl | rfl | rfl | rfl <;> decide
      · exact not_isSpace_of_isKeyChar (by simp [isKeyChar, isAlnum, hcapital])
      · exact not_isSpace_of_isKeyChar (by simp [isKeyChar, isAlnum, hsmall])
  word_of_fold c hc := by simp [hc]

/-- A key of one character more than a control token is cut to the length of one. -/
theorem redact_cuts_key :
    redact ascii (List.replicate 44 'x') 43 = List.replicate 43 'x' ∧
      redact ascii (List.replicate 43 'x') 43 = redacted ∧
      sub controlToken [.text redacted] (List.replicate 43 'x') = redacted ∧
      ¬Settled ascii (List.replicate 44 'x') 43 := by
  have hfirst : redact ascii (List.replicate 44 'x') 43 = List.replicate 43 'x' := by
    decide +kernel
  have hagain : redact ascii (List.replicate 43 'x') 43 = redacted := by
    decide +kernel
  have hsub : sub controlToken [.text redacted] (List.replicate 43 'x') = redacted := by
    decide +kernel
  refine ⟨hfirst, hagain, hsub, fun h => ?_⟩
  have hkept := h.1
  rw [hfirst, hagain] at hkept
  exact absurd hkept (by decide)

end Cortex.Redaction
