import Cortex.Redaction.Rules

/-!
# Rules that survive a substitution

A rule survives the substitutions whose secrets stand where it does not look.  Then a
substitution keeps it (`Masks.keeps`), and the one that finds the texts of the rule brings
it about (`Masks.holds_sub`).
-/

namespace Cortex.Redaction

open PyText Regex

/-- What a rule needs of the places of the secrets. -/
structure Rule.Survives (r : Rule) (beside : Text → Text → Text → Prop) : Prop where
  left : ∀ ps P K S, Sound beside [] ps → ps = P ++ (K ++ S) → Kept K → r.body (readPieces K) →
    r.left (writePieces P) → r.left (readPieces P)
  rest : ∀ ps P K S, Sound beside [] ps → ps = P ++ (K ++ S) → Kept K → r.body (readPieces K) →
    r.rest (readPieces S) → r.rest (writePieces S)

variable {r : Rule} {beside beside' : Text → Text → Text → Prop} {p : Pattern Char}
  {template : List (Slot Char)} {label : Found Char → Text} {tail x t t' a b : Text}
  {P K S ps : List Piece} {labels : List Char} {edge cls : Char → Bool} {classes : CharClasses}

theorem Rule.Survives.mono (h : r.Survives beside)
    (himp : ∀ u s v, beside' u s v → beside u s v) : r.Survives beside' where
  left ps P K S hps := h.left ps P K S (hps.mono himp)
  rest ps P K S hps := h.rest ps P K S (hps.mono himp)

/-- A substitution keeps a rule that survives it. -/
theorem Masks.keeps (h : Masks beside p template label tail) (hr : r.IsPlain)
    (hs : r.Survives beside) (hx : Spaced x) (hold : r.Holds x) :
    r.Holds (sub p template x) := by
  obtain ⟨ps, hsound, rfl, hwrite, -⟩ := h.exists_pieces hx
  rw [← hwrite]
  refine hr.holds_write hsound (fun P K S hps hK => hs.left ps P K S hsound hps hK) ?_
  intro P K S hps hK hne hleft hbody
  refine hs.rest ps P K S hsound hps hK hbody (hold _ _ _ ?_ hleft hbody)
  rw [hps, readPieces_append, readPieces_append]

/-- A substitution brings the rule about whose texts it finds. -/
theorem Masks.holds_sub (h : Masks beside p template label tail) (hr : r.IsPlain)
    (hx : Spaced x)
    (hleft : ∀ ps P K S, Sound beside [] ps → ps = P ++ (K ++ S) → Kept K →
      r.body (readPieces K) → r.left (writePieces P) → r.left (readPieces P))
    (hnone : ∀ ps P K S, Sound beside [] ps → ps = P ++ (K ++ S) → Kept K →
      find p (readPieces P) (readPieces K ++ readPieces S) = none → r.left (readPieces P) →
      r.body (readPieces K) → r.rest (writePieces S))
    (hlabel : ∀ ps P K S u l₁ l₂ s f L R, Sound beside [] ps → ps = P ++ (K ++ S) → Kept K →
      InLabel p label tail P K S u l₁ l₂ s f L R → r.body (readPieces K) →
      r.rest (writePieces S))
    (htail : ∀ t, r.body t → ∀ c ∈ tail, t.head? ≠ some c) : r.Holds (sub p template x) := by
  obtain ⟨ps, hsound, rfl, hwrite, hfind⟩ := h.exists_pieces hx
  rw [← hwrite]
  refine hr.holds_write hsound (fun P K S hps hK => hleft ps P K S hsound hps hK) ?_
  intro P K S hps hK hne hbefore hbody
  rcases hfind P K S hps hK hne with hnil | ⟨u, l₁, l₂, s, f, L, R, hin⟩ | ⟨c, hc, hhead⟩
  · exact hnone ps P K S hsound hps hK hnil hbefore hbody
  · exact hlabel ps P K S u l₁ l₂ s f L R hsound hps hK hin hbody
  · exact absurd hhead (htail _ hbody c hc)

/-! ## Texts up to the case of a letter -/

theorem exists_append_of_forall₂ (h : List.Forall₂ Alike t (a ++ b)) :
    ∃ t₁ t₂, t = t₁ ++ t₂ ∧ List.Forall₂ Alike t₁ a ∧ List.Forall₂ Alike t₂ b :=
  ⟨t.take a.length, t.drop a.length, (List.take_append_drop _ _).symm,
    List.forall₂_take_append t a b h, List.forall₂_drop_append t a b h⟩

theorem forall_of_forall₂ (hcls : Caseless cls) (h : List.Forall₂ Alike t t')
    (ht : ∀ c ∈ t', cls c = true) : ∀ c ∈ t, cls c = true := by
  induction h with
  | nil => exact ht
  | cons hcd _ ih =>
      intro c hc
      rcases List.mem_cons.1 hc with rfl | hc
      · rw [hcls.eq hcd]
        exact ht _ (.head _)
      · exact ih (fun c hc => ht c (.tail _ hc)) c hc

theorem caseless_isDigit (classes : CharClasses) : Caseless classes.isDigit := by
  have hall : ∀ p ∈ recased, p.1.toNat < 128 ∧ p.2.toNat < 128 ∧
      isNumber p.1 = isNumber p.2 := by decide
  intro p hp
  obtain ⟨h₁, h₂, h⟩ := hall p hp
  rw [classes.digit_ascii _ h₁, classes.digit_ascii _ h₂, h]

theorem caseless_isWord (classes : CharClasses) : Caseless classes.isWord := by
  have hall : ∀ p ∈ recased, p.1.toNat < 128 ∧ p.2.toNat < 128 ∧
      (isAlnum p.1 || p.1 = '_') = (isAlnum p.2 || p.2 = '_') := by decide
  intro p hp
  obtain ⟨h₁, h₂, h⟩ := hall p hp
  rw [classes.word_ascii _ h₁, classes.word_ascii _ h₂, h]

/-- A text with a character that the mask does not have. -/
theorem plain_of_mem {c : Char} (hbracket : ∀ c ∈ t, c ≠ '[' ∧ c ≠ ']') (hc : c ∈ t)
    (hmask : c ∉ maskWord) : Plain t :=
  ⟨hbracket, fun hmid => hmask (hmid.subset hc)⟩

/-- A text that is longer than the mask. -/
theorem plain_of_length (hbracket : ∀ c ∈ t, c ≠ '[' ∧ c ≠ ']') (hlength : 8 < t.length) :
    Plain t :=
  ⟨hbracket, fun hmid => absurd (hmid.length_le.trans (by decide : maskWord.length ≤ 8))
    (by omega)⟩

theorem not_bracket_of (hcls : cls '[' = false ∧ cls ']' = false) (ht : ∀ c ∈ t, cls c = true) :
    ∀ c ∈ t, c ≠ '[' ∧ c ≠ ']' := by
  intro c hc
  have hc := ht c hc
  constructor
  · rintro rfl
    rw [hcls.1] at hc
    cases hc
  · rintro rfl
    rw [hcls.2] at hc
    cases hc

/-- A text that is a word up to its case has no bracket, if the word has none. -/
theorem not_bracket_of_fold {word : Text} (hword : '[' ∉ word ∧ ']' ∉ word)
    (h : t.map fold = word) : ∀ c ∈ t, c ≠ '[' ∧ c ≠ ']' := by
  intro c hc
  have hmem : fold c ∈ word := h ▸ List.mem_map_of_mem hc
  constructor
  · rintro rfl
    exact hword.1 (by simpa [show fold '[' = '[' by decide] using hmem)
  · rintro rfl
    exact hword.2 (by simpa [show fold ']' = ']' by decide] using hmem)

theorem not_isDigit_bracket (classes : CharClasses) :
    classes.isDigit '[' = false ∧ classes.isDigit ']' = false := by
  rw [classes.digit_ascii '[' (by decide), classes.digit_ascii ']' (by decide)]
  decide

/-! ## The texts of the rules -/

theorem markedRule_isPlain {word : Text} {stop : Char → Bool} (hword : Plain word)
    (hcase : ∀ d ∈ word, d ∉ "Bear".toList) : (markedRule word stop).IsPlain where
  plain t ht := by
    subst ht
    exact hword
  alike t t' h ht := by
    subst ht
    exact eq_of_forall₂_right h hcase

theorem botPathRule_isPlain : botPathRule.IsPlain :=
  markedRule_isPlain (plain_of_mem (c := '/') (by decide) (by decide) (by decide)) (by decide)

theorem queryRule_isPlain : queryRule.IsPlain :=
  markedRule_isPlain (plain_of_mem (c := '?') (by decide) (by decide) (by decide)) (by decide)

theorem botTokenRule_isPlain (classes : CharClasses) : (botTokenRule classes).IsPlain where
  plain t ht := by
    obtain ⟨d, k, rfl, -, hd, -, hk⟩ := ht
    refine plain_of_mem (c := ':') ?_ (by simp) (by decide)
    intro c hc
    rcases List.mem_append.1 hc with hc | hc
    · exact not_bracket_of (not_isDigit_bracket classes) hd c hc
    · rcases List.mem_cons.1 hc with rfl | hc
      · decide
      · exact not_bracket_of (by decide) hk c hc
  alike t t' h ht := by
    obtain ⟨d, k, rfl, hlength, hd, hk, hkey⟩ := ht
    obtain ⟨d', k', rfl, hd', hk'⟩ := exists_append_of_forall₂ h
    obtain ⟨c, k', hc, hrest, rfl⟩ := List.forall₂_cons_right_iff.1 hk'
    obtain rfl := eq_of_alike_right hc (by decide)
    exact ⟨d', k', rfl, by rwa [hd'.length_eq],
      forall_of_forall₂ (caseless_isDigit classes) hd' hd, by rwa [hrest.length_eq],
      forall_of_forall₂ (by decide) hrest hkey⟩

theorem providerKeyRule_isPlain (classes : CharClasses) : (providerKeyRule classes).IsPlain where
  plain t ht := by
    obtain ⟨k, rfl, -, hk⟩ := ht
    refine plain_of_mem (c := '-') ?_ (by simp) (by decide)
    have hbrackets : isKeyChar '[' = false ∧ isKeyChar ']' = false := by decide
    refine not_bracket_of hbrackets fun c hc => ?_
    rcases List.mem_cons.1 hc with rfl | hc
    · decide
    · rcases List.mem_cons.1 hc with rfl | hc
      · decide
      · rcases List.mem_cons.1 hc with rfl | hc
        · decide
        · exact hk c hc
  alike t t' h ht := by
    obtain ⟨k, rfl, hlength, hk⟩ := ht
    obtain ⟨t₁, t₂, rfl, h₁, h₂⟩ := exists_append_of_forall₂ (a := ['s', 'k', '-']) h
    obtain rfl := eq_of_forall₂_right h₁ (by decide)
    exact ⟨t₂, rfl, by rwa [h₂.length_eq], forall_of_forall₂ (by decide) h₂ hk⟩

theorem userinfoRule_isPlain (classes : CharClasses) : (userinfoRule classes).IsPlain where
  plain t ht := by
    obtain ⟨c, a, rfl, hc, ha⟩ := ht
    refine plain_of_mem (c := ':') ?_ (by simp) (by decide)
    intro d hd
    rcases List.mem_cons.1 hd with rfl | hd
    · have hall : ∀ e ∈ [d], (fun c => isSmall (fold c)) e = true :=
        fun e he => List.mem_singleton.1 he ▸ hc
      exact not_bracket_of (by decide) hall d (.head _)
    · rcases List.mem_append.1 hd with hd | hd
      · exact not_bracket_of (by decide) ha d hd
      · exact (by decide : ∀ d ∈ [':', '/', '/'], d ≠ '[' ∧ d ≠ ']') d hd
  alike t t' h ht := by
    obtain ⟨c, a, rfl, hc, ha⟩ := ht
    obtain ⟨d, t, hcd, hrest, rfl⟩ := List.forall₂_cons_right_iff.1 h
    obtain ⟨t₁, t₂, rfl, h₁, h₂⟩ := exists_append_of_forall₂ hrest
    obtain rfl := eq_of_forall₂_right h₂ (by decide)
    exact ⟨d, t₁, rfl, by rwa [fold_alike hcd], forall_of_forall₂ (by decide) h₁ ha⟩

theorem runRule_isPlain {cls edge : Char → Bool} {n : ℕ} (hn : 8 < n) (hcase : Caseless cls)
    (hcls : cls '[' = false ∧ cls ']' = false) : (runRule cls edge n).IsPlain where
  plain t ht := plain_of_length (not_bracket_of hcls ht.2) (by rwa [ht.1])
  alike t t' h ht := ⟨by rw [h.length_eq, ht.1], forall_of_forall₂ hcase h ht.2⟩

theorem hexSecretRule_isPlain : hexSecretRule.IsPlain :=
  runRule_isPlain (by decide) (by decide) (by decide)

theorem controlTokenRule_isPlain : controlTokenRule.IsPlain :=
  runRule_isPlain (by decide) (by decide) (by decide)

theorem bearerRule_isPlain (classes : CharClasses) : (bearerRule classes).IsPlain where
  plain t ht := by
    obtain ⟨b, rfl, hb⟩ := ht
    refine plain_of_mem (c := ' ') ?_ (by simp) (by decide)
    intro c hc
    rcases List.mem_append.1 hc with hc | hc
    · exact not_bracket_of_fold (by decide) hb c hc
    · rw [List.mem_singleton.1 hc]
      decide
  alike t t' h ht := by
    obtain ⟨b, rfl, hb⟩ := ht
    obtain ⟨t₁, t₂, rfl, h₁, h₂⟩ := exists_append_of_forall₂ h
    obtain rfl := eq_of_forall₂_right h₂ (by decide)
    exact ⟨t₁, rfl, by rw [map_fold_alike h₁, hb]⟩

theorem IsSeparator.not_bracket (h : IsSeparator t) : ∀ c ∈ t, c ≠ '[' ∧ c ≠ ']' := by
  obtain ⟨a, c, b, rfl, hc, ha, hb⟩ := h
  intro d hd
  rcases List.mem_append.1 hd with hd | hd
  · exact not_bracket_of (by decide) ha d hd
  · rcases List.mem_cons.1 hd with rfl | hd
    · rcases hc with rfl | rfl <;> decide
    · exact not_bracket_of (by decide) hb d hd

theorem IsSeparator.alike (h : List.Forall₂ Alike t t') (ht : IsSeparator t') :
    IsSeparator t := by
  obtain ⟨a, c, b, rfl, hc, ha, hb⟩ := ht
  obtain ⟨t₁, t₂, rfl, h₁, h₂⟩ := exists_append_of_forall₂ h
  obtain ⟨d, t₂, hcd, hrest, rfl⟩ := List.forall₂_cons_right_iff.1 h₂
  obtain rfl : d = c := by
    rcases hc with rfl | rfl
    · exact eq_of_alike_right hcd (by decide)
    · exact eq_of_alike_right hcd (by decide)
  exact ⟨t₁, d, t₂, rfl, hc, forall_of_forall₂ (by decide) h₁ ha,
    forall_of_forall₂ (by decide) hrest hb⟩

theorem keyWords_no_bracket : ∀ word ∈ keyWords, '[' ∉ word ∧ ']' ∉ word := by decide

theorem keyValueRule_isPlain (classes : CharClasses) : (keyValueRule classes).IsPlain where
  plain t ht := by
    obtain ⟨key, sep, rfl, hkey, hsep⟩ := ht
    have hbracket : ∀ c ∈ key ++ sep, c ≠ '[' ∧ c ≠ ']' := by
      intro c hc
      rcases List.mem_append.1 hc with hc | hc
      · exact not_bracket_of_fold (keyWords_no_bracket _ hkey) rfl c hc
      · exact hsep.not_bracket c hc
    obtain ⟨a, c, b, rfl, hc, -, -⟩ := hsep
    refine plain_of_mem (c := c) hbracket (by simp) ?_
    rcases hc with rfl | rfl <;> decide
  alike t t' h ht := by
    obtain ⟨key, sep, rfl, hkey, hsep⟩ := ht
    obtain ⟨t₁, t₂, rfl, h₁, h₂⟩ := exists_append_of_forall₂ h
    exact ⟨t₁, t₂, rfl, by rwa [map_fold_alike h₁], hsep.alike h₂⟩

/-! ## What survives -/

/-- Nothing of the class stands before a text that starts with a character which no
secret ends at. -/
theorem open_left (h : Sound beside [] ps) (hps : ps = P ++ (K ++ S)) (hcls : Caseless cls)
    (hK : ∃ c ∈ (readPieces K).head?, ∀ u s v, beside u s v → c ∉ v.head?)
    (hP : Open cls (writePieces P)) : Open cls (readPieces P) :=
  open_read (h.alike.of_subset (by rw [hps]; simp)) hcls (h.not_masked hps hK) hP

/-- No secret ends at a character of the class. -/
theorem Beside.not_head {u s v : Text} {c : Char} (h : Beside labels edge u s v)
    (hc : edge c = true) : c ∉ v.head? := by
  intro hmem
  rw [h.after c hmem] at hc
  cases hc

theorem markedRule_survives {word : Text} {stop : Char → Bool} {c : Char}
    (hlast : word.getLast? = some c) (hc : c ∉ labels) (hbracket : ']' ∉ labels)
    (hstop : ∀ c, stop c = true → isStop c = true) (hcase : Caseless stop) :
    (markedRule word stop).Survives (Beside labels edge) where
  left _ _ _ _ _ _ _ _ _ := trivial
  rest ps P K S h hps _ hbody hrest := by
    refine h.marked_write (P := P ++ K) (by rw [hps, List.append_assoc]) ?_ hbracket hstop hcase
      hrest
    intro d hd
    have hword : readPieces K = word := hbody
    have hne : word ≠ [] := by
      rintro rfl
      cases hlast
    rw [readPieces_append, hword, List.getLast?_append_of_ne_nil _ hne, hlast] at hd
    obtain rfl := Option.some.inj hd
    exact hc

theorem isStop_of_endsPath {c : Char} (h : endsPath c = true) : isStop c = true := by
  simp only [endsPath, isStop, Bool.or_eq_true, decide_eq_true_eq] at h ⊢
  tauto

theorem isStop_of_endsQuery {c : Char} (h : endsQuery c = true) : isStop c = true := by
  simp only [endsQuery, isStop, Bool.or_eq_true, decide_eq_true_eq] at h ⊢
  tauto

theorem botPathRule_survives (ht : 't' ∉ labels) (hbracket : ']' ∉ labels) :
    botPathRule.Survives (Beside labels edge) :=
  markedRule_survives rfl ht hbracket (fun _ => isStop_of_endsPath) (by decide)

theorem queryRule_survives (ht : '?' ∉ labels) (hbracket : ']' ∉ labels) :
    queryRule.Survives (Beside labels edge) :=
  markedRule_survives rfl ht hbracket (fun _ => isStop_of_endsQuery) (by decide)

theorem providerKeyRule_survives (hedge : ∀ c, isAlnum c = true → edge c = true) :
    (providerKeyRule classes).Survives (Beside labels edge) where
  left ps P K S h hps _ hbody hleft := by
    obtain ⟨k, hk, -⟩ := hbody
    refine open_left h hps (caseless_isWord classes) ⟨'s', by rw [hk]; rfl, ?_⟩ hleft
    exact fun u s v hbeside => hbeside.not_head (hedge _ (by decide))
  rest _ _ _ _ _ _ _ _ hrest := hrest

theorem head?_of_length {n : ℕ} (h : t.length = n + 1) : ∃ c ∈ t.head?, c ∈ t := by
  cases t with
  | nil => cases h
  | cons c t => exact ⟨c, rfl, .head _⟩

theorem getLast?_of_length {n : ℕ} (h : t.length = n + 1) :
    ∃ c ∈ (a ++ t).getLast?, c ∈ t := by
  rcases List.eq_nil_or_concat' t with rfl | ⟨t, c, rfl⟩
  · cases h
  · refine ⟨c, ?_, by simp⟩
    rw [← List.append_assoc, List.getLast?_concat]
    rfl

theorem isAlnum_of_isHex {c : Char} (h : isHex c = true) : isAlnum c = true := by
  simp only [isHex, isAlnum, isNumber, isCapital, isSmall, Bool.or_eq_true,
    decide_eq_true_eq] at h ⊢
  omega

theorem runRule_survives {cls edge' : Char → Bool} {n : ℕ}
    (hcls : ∀ c, cls c = true → edge' c = true) (hcase : Caseless edge')
    (hedge : ∀ c, edge' c = true → edge c = true) :
    (runRule cls edge' (n + 1)).Survives (Beside labels edge) where
  left ps P K S h hps _ hbody hleft := by
    obtain ⟨c, hhead, hc⟩ := head?_of_length hbody.1
    refine open_left h hps hcase ⟨c, hhead, ?_⟩ hleft
    exact fun u s v hbeside => hbeside.not_head (hedge _ (hcls _ (hbody.2 c hc)))
  rest ps P K S h hps _ hbody hrest := by
    obtain ⟨c, hlast, hc⟩ := getLast?_of_length (a := readPieces P) hbody.1
    refine h.head_write (P := P ++ K) (by rw [hps, List.append_assoc]) hcase ?_ hrest
    rw [readPieces_append]
    exact ⟨c, hlast, hedge _ (hcls _ (hbody.2 c hc))⟩

theorem hexSecretRule_survives (hedge : ∀ c, isAlnum c = true → edge c = true) :
    hexSecretRule.Survives (Beside labels edge) :=
  runRule_survives (fun _ => isAlnum_of_isHex) (by decide) hedge

theorem controlTokenRule_survives (hedge : ∀ c, isKeyChar c = true → edge c = true) :
    controlTokenRule.Survives (Beside labels edge) :=
  runRule_survives (fun _ h => h) (by decide) hedge

/-- Only two characters are the letter in one of its cases. -/
theorem eq_of_fold_eq_b {c : Char} (h : fold c = 'b') : c = 'b' ∨ c = 'B' := by
  unfold fold at h
  split_ifs at h with _ _ _ hcapital
  · exact absurd h (by decide)
  · exact absurd h (by decide)
  · exact absurd h (by decide)
  · rw [isCapital, decide_eq_true_eq] at hcapital
    have hall : ∀ n < 91, 65 ≤ n → Char.ofNat (n + 32) = 'b' → n = 66 := by decide
    exact .inr (Char.toNat_inj.1 (hall _ (by omega) hcapital.1 h))
  · exact .inl h

theorem bearerRule_survives (hedge : ∀ c, isAlnum c = true → edge c = true) :
    (bearerRule classes).Survives (Beside labels edge) where
  left ps P K S h hps _ hbody hleft := by
    obtain ⟨b, hK, hb⟩ := hbody
    cases b with
    | nil => cases hb
    | cons c b =>
        have hc : isAlnum c = true := by
          rcases eq_of_fold_eq_b (List.cons.inj hb).1 with rfl | rfl <;> decide
        refine open_left h hps (caseless_isWord classes) ⟨c, by rw [hK]; rfl, ?_⟩ hleft
        exact fun u s v hbeside => hbeside.not_head (hedge _ hc)
  rest ps P K S h hps _ _ hrest :=
    h.guarded_write (P := P ++ K) (by rw [hps, List.append_assoc]) hrest

end Cortex.Redaction
