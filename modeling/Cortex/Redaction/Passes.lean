import Cortex.Redaction.Finds

/-!
# The nine substitutions

Each substitution brings its own rule about: where it finds nothing the rule holds, and
behind its labels it has written masks.
-/

namespace Cortex.Redaction

open PyText Regex

variable {classes : CharClasses} {u t b v x word : Text} {P K S L R ps : List Piece}
  {stop : Char → Bool} {beside : Text → Text → Text → Prop}

/-! ## Where nothing is found -/

theorem not_reads_of_find {p : Pattern Char} (h : find p u (t ++ b) = none) {s v : Text}
    (hb : b = s ++ v) (gs : List Text) : ¬Reads p u (t ++ s) v gs := by
  refine find_eq_none_iff.1 h (t ++ s) v gs ?_
  rw [hb, List.append_assoc]

/-- Where a word and a run behind it are not found, the run is empty. -/
theorem ends_of_find {chars : String}
    (h : find (.seq (.chars (literal chars)) (.run (fun c => !stop c) 1 none)) u
      (chars.toList ++ b) = none) : Ends stop b := by
  by_contra hnot
  cases b with
  | nil => exact hnot fun c hc => by cases hc
  | cons c b =>
      refine not_reads_of_find h (s := [c]) (v := b) rfl [] (reads_seq.2
        ⟨chars.toList, [c], [], [], rfl, rfl, reads_chars.2 ⟨rfl, ofClasses_literal.2 rfl⟩, ?_⟩)
      refine reads_run.2 ⟨rfl, le_rfl, fun n hn => (by cases hn), fun d hd => ?_⟩
      rw [List.mem_singleton.1 hd]
      have hc : ¬stop c = true := fun hstop => hnot fun e he => by
        rw [← Option.some.inj he]
        exact hstop
      simpa using hc

theorem reads_boundary (h : Open classes.isWord u) {c : Char} (hc : classes.isWord c = true)
    (v : Text) : Reads (.look (boundary classes.isWord)) u [] (c :: v) [] :=
  reads_look.2 ⟨rfl, rfl, (boundary_iff hc).2 h⟩

theorem botToken_none (h : find (botToken classes) u (t ++ b) = none)
    (hu : Open classes.isWord u) : ¬IsToken classes t := by
  rintro ⟨d, k, rfl, hd, hdigit, hk, hkey⟩
  obtain ⟨c, d, rfl⟩ := List.exists_cons_of_ne_nil (ne_nil_of_length (by decide) hd)
  refine find_eq_none_iff.1 h _ b [] rfl (reads_seq.2 ⟨[], _, [], [], rfl, rfl,
    reads_boundary hu (classes.word_of_digit c (hdigit c (.head _))) _, ?_⟩)
  refine reads_seq.2 ⟨c :: d, ':' :: k, [], [], rfl, rfl,
    reads_run.2 ⟨rfl, hd, fun n hn => (by cases hn), hdigit⟩, ?_⟩
  refine reads_seq.2 ⟨[':'], k, [], [], rfl, rfl, reads_chars.2 ⟨rfl, ?_⟩, ?_⟩
  · exact ofClasses_literal.2 rfl
  · exact reads_run.2 ⟨rfl, hk.ge, fun n hn => (by cases hn), hkey⟩

theorem providerKey_none (h : find (providerKey classes) u (t ++ b) = none)
    (hu : Open classes.isWord u) : ¬(providerKeyRule classes).body t := by
  rintro ⟨k, rfl, hk, hkey⟩
  refine find_eq_none_iff.1 h _ b [] rfl (reads_seq.2 ⟨[], _, [], [], rfl, rfl,
    reads_boundary hu (isWord_of_isAlnum (by decide)) _, ?_⟩)
  refine reads_seq.2 ⟨['s', 'k', '-'], k, [], [], rfl, rfl, reads_chars.2 ⟨rfl, ?_⟩, ?_⟩
  · exact ofClasses_literal.2 rfl
  · exact reads_run.2 ⟨rfl, hk.ge, fun n hn => (by cases hn), hkey⟩

theorem userinfo_none (h : find (userinfo classes) u (t ++ b) = none)
    (hu : Open classes.isWord u) (ht : IsScheme t) :
    ∀ info v, b = info ++ '@' :: v → ¬IsUserinfo info := by
  rintro info v rfl ⟨hne, hinfo⟩
  obtain ⟨c, a, rfl, hc, ha⟩ := ht
  refine not_reads_of_find h (s := info ++ ['@']) (v := v) (by simp) [c :: (a ++ [':', '/', '/'])]
    (reads_seq.2 ⟨[], _, [], _, rfl, rfl, reads_boundary hu (classes.word_of_fold c hc) _, ?_⟩)
  refine reads_seq.2 ⟨_, info ++ ['@'], [_], [], rfl, rfl, reads_group.2 ⟨[], rfl, ?_⟩, ?_⟩
  · refine reads_seq.2 ⟨[c], a ++ [':', '/', '/'], [], [], rfl, rfl,
      reads_chars.2 ⟨rfl, .cons hc .nil⟩, ?_⟩
    refine reads_seq.2 ⟨a, [':', '/', '/'], [], [], rfl, rfl,
      reads_run.2 ⟨rfl, Nat.zero_le _, fun n hn => (by cases hn), ha⟩, reads_chars.2 ⟨rfl, ?_⟩⟩
    exact ofClasses_literal.2 rfl
  · refine reads_seq.2 ⟨info, ['@'], [], [], rfl, rfl, ?_, reads_chars.2 ⟨rfl, ?_⟩⟩
    · refine reads_run.2 ⟨rfl, List.length_pos_iff.2 hne, fun n hn => (by cases hn), ?_⟩
      intro d hd
      rw [hinfo d hd]
      rfl
    · exact ofClasses_literal.2 rfl

theorem run_none {cls edge : Char → Bool} {n : ℕ}
    (h : find (.seq (.look (notBehind edge))
      (.seq (.run cls n (some n)) (.look (notAhead [edge])))) u (t ++ b) = none)
    (hu : Open edge u) (ht : t.length = n ∧ ∀ c ∈ t, cls c = true) :
    ∃ c ∈ b.head?, edge c = true := by
  by_contra hnot
  refine find_eq_none_iff.1 h t b [] rfl (reads_seq.2 ⟨[], t, [], [], rfl, rfl, ?_, ?_⟩)
  · refine reads_look.2 ⟨rfl, rfl, ?_⟩
    rw [notBehind]
    cases hlast : u.getLast? with
    | none => rfl
    | some c => simp [hu c hlast]
  · refine reads_seq.2 ⟨t, [], [], [], (List.append_nil t).symm, rfl, ?_, ?_⟩
    · refine reads_run.2 ⟨rfl, ht.1.ge, fun m hm => ?_, ht.2⟩
      rw [← Option.some.inj hm]
      exact ht.1.le
    · refine reads_look.2 ⟨rfl, rfl, ?_⟩
      cases b with
      | nil => rfl
      | cons c b =>
          have hc : ¬edge c = true := fun hedge => hnot ⟨c, rfl, hedge⟩
          simpa [notAhead, starts] using hc

theorem bearer_none (h : find (bearer classes) u (t ++ b) = none) (hu : Open classes.isWord u)
    (ht : (bearerRule classes).body t) : Guarded b := by
  obtain ⟨w, rfl, hw⟩ := ht
  refine guarded_of_not_reads (u ++ (w ++ [' '])) fun s v hb hreads => ?_
  obtain ⟨c, w, rfl, hc, hrest⟩ := List.map_eq_cons_iff.1 hw
  refine not_reads_of_find h hb [] (reads_seq.2 ⟨[], _, [], [], rfl, rfl,
    reads_boundary hu (classes.word_of_fold c (by rw [hc]; decide)) _, ?_⟩)
  refine reads_seq.2 ⟨c :: w, [' '] ++ s, [], [], by simp, rfl, reads_chars.2 ⟨rfl, ?_⟩, ?_⟩
  · exact ofClasses_ignoreCase.2 hw
  · refine reads_seq.2 ⟨[' '], s, [], [], rfl, rfl, ?_, ?_⟩
    · refine reads_run.2 ⟨rfl, le_rfl, fun n hn => (by cases hn), fun d hd => ?_⟩
      rw [List.mem_singleton.1 hd]
      decide
    · rwa [List.append_nil, List.append_assoc]

/-- A key with or without a sign before its last letters. -/
theorem reads_apiKey {a k : Text} {l : List Char} (h : t.map fold = a ++ (l ++ k))
    (ha : a = "api".toList) (hk : k = "key".toList) (hl : l.length ≤ 1)
    (hsign : ∀ d ∈ l, d = '_' ∨ d = '-') : Reads secretKey u t v [] := by
  obtain ⟨t₁, t', rfl, h₁, h'⟩ := List.map_eq_append_iff.1 h
  obtain ⟨t₂, t₃, rfl, h₂, h₃⟩ := List.map_eq_append_iff.1 h'
  refine reads_alt.2 (.inl (reads_seq.2 ⟨t₁, t₂ ++ t₃, [], [], rfl, rfl, ?_, ?_⟩))
  · exact reads_chars.2 ⟨rfl, ofClasses_ignoreCase.2 (h₁.trans ha)⟩
  · refine reads_seq.2 ⟨t₂, t₃, [], [], rfl, rfl, reads_run.2 ⟨rfl, Nat.zero_le _, ?_, ?_⟩, ?_⟩
    · intro n hn
      rw [← Option.some.inj hn, ← List.length_map (f := fold), h₂]
      exact hl
    · intro c hc
      rw [Bool.or_eq_true, decide_eq_true_eq, decide_eq_true_eq]
      have hfold := hsign (fold c) (h₂ ▸ List.mem_map_of_mem hc)
      have hall : ∀ n < 91, 65 ≤ n → Char.ofNat (n + 32) ≠ '_' ∧ Char.ofNat (n + 32) ≠ '-' := by
        decide
      rcases hfold with hc | hc
      · rcases fold_cases hc (by decide) with hc | ⟨hlow, hhigh, hc⟩
        · exact .inl hc
        · exact absurd hc (hall _ hhigh hlow).1
      · rcases fold_cases hc (by decide) with hc | ⟨hlow, hhigh, hc⟩
        · exact .inr hc
        · exact absurd hc (hall _ hhigh hlow).2
    · exact reads_chars.2 ⟨rfl, ofClasses_ignoreCase.2 (h₃.trans hk)⟩

theorem reads_secretKey (h : t.map fold ∈ keyWords) : Reads secretKey u t v [] := by
  have hword : ∀ {word : String}, t.map fold = word.toList →
      Reads (.chars (ignoreCase word)) u t v [] :=
    fun h => reads_chars.2 ⟨rfl, ofClasses_ignoreCase.2 h⟩
  simp only [keyWords, List.mem_cons, List.not_mem_nil, or_false] at h
  rcases h with h | h | h | h | h | h | h
  · exact reads_apiKey (l := []) (k := "key".toList) h rfl rfl (by decide) (by decide)
  · exact reads_apiKey (l := ['_']) (k := "key".toList) h rfl rfl (by decide) (by decide)
  · exact reads_apiKey (l := ['-']) (k := "key".toList) h rfl rfl (by decide) (by decide)
  · exact reads_alt.2 (.inr (reads_alt.2 (.inl (hword h))))
  · exact reads_alt.2 (.inr (reads_alt.2 (.inr (reads_alt.2 (.inl (hword h))))))
  · exact reads_alt.2 (.inr (reads_alt.2 (.inr (reads_alt.2 (.inr (reads_alt.2
      (.inl (hword h))))))))
  · exact reads_alt.2 (.inr (reads_alt.2 (.inr (reads_alt.2 (.inr (reads_alt.2
      (.inr (hword h))))))))

theorem keyValue_none (h : find (keyValue classes) u (t ++ b) = none)
    (hu : Open classes.isWord u) (ht : (keyValueRule classes).body t) : Guarded b := by
  obtain ⟨key, sep, rfl, hkey, hsep⟩ := ht
  refine guarded_of_not_reads (u ++ (key ++ sep)) fun s v hb hreads => ?_
  obtain ⟨l, hl, hsmall⟩ := keyWords_small _ hkey
  cases key with
  | nil => cases hl
  | cons c key =>
      obtain rfl := Option.some.inj hl
      refine not_reads_of_find h hb [c :: key, sep] (reads_seq.2 ⟨[], _, [], _, rfl, rfl,
        reads_boundary hu (classes.word_of_fold c hsmall) _, ?_⟩)
      refine reads_seq.2 ⟨c :: key, sep ++ s, [c :: key], [sep], by simp, rfl,
        reads_group.2 ⟨[], rfl, reads_secretKey hkey⟩, ?_⟩
      refine reads_seq.2 ⟨sep, s, [sep], [], rfl, rfl,
        reads_group.2 ⟨[], rfl, separator_reads.2 ⟨rfl, hsep⟩⟩, ?_⟩
      rwa [List.append_nil, List.append_assoc]

/-! ## What each substitution brings about -/

theorem Kept.eq_nil (hL : Kept L) (h : readPieces L = []) : L = [] := by
  cases L with
  | nil => rfl
  | cons p L =>
      obtain ⟨c, d, rfl⟩ := hL _ (.head _)
      cases h

/-- A stop behind a secret is written: the next secret does not start with it. -/
theorem Sound.ends_write_first (h : Sound beside [] ps) (hps : ps = P ++ R)
    (hcase : Caseless stop)
    (hbeside : ∀ u s v, beside u s v → ∀ c ∈ s.head?, stop c = false)
    (hR : Ends stop (readPieces R)) : Ends stop (writePieces R) := by
  cases R with
  | nil => exact hR
  | cons p R =>
      cases p with
      | kept c d =>
          intro e he
          obtain rfl := Option.some.inj he
          rw [← hcase.eq (h.alike c d (by rw [hps]; simp))]
          exact hR c rfl
      | masked s =>
          obtain ⟨c, s, rfl⟩ := List.exists_cons_of_ne_nil (h.ne s (by rw [hps]; simp))
          have hfirst := hbeside _ _ _ (h.beside P _ R hps) c rfl
          rw [hR c rfl] at hfirst
          cases hfirst

/-- A substitution behind a word. -/
theorem Masks.holds_marked {p : Pattern Char} {template : List (Slot Char)}
    (h : Masks beside p template (fun _ => word) []) (hr : (markedRule word stop).IsPlain)
    (hx : Spaced x) (hcase : Caseless stop)
    (hbeside : ∀ u s v, beside u s v → (∀ c ∈ s.head?, stop c = false) ∧ Ends stop v)
    (hnone : ∀ u b, find p u (word ++ b) = none → Ends stop b) :
    (markedRule word stop).Holds (sub p template x) := by
  have hfirst := fun u s v hb => (hbeside u s v hb).1
  refine h.holds_sub hr hx (fun _ _ _ _ _ _ _ _ _ => trivial) ?_ ?_ ?_
  · intro ps P K S hps hsplit hK hfind _ hbody
    have hword : readPieces K = word := hbody
    rw [hword] at hfind
    exact .inl (hps.ends_write_first (P := P ++ K) (by rw [hsplit, List.append_assoc]) hcase
      hfirst (hnone _ _ hfind))
  · intro ps P K S u l₁ l₂ s f L R hps hsplit hK hin hbody
    have hword : readPieces K = word := hbody
    have hlength := hin.label.length_eq
    rw [hword, List.length_append, List.length_append] at hlength
    have hL : L = [] := by
      refine hin.kept.eq_nil (hin.read.trans ?_)
      exact List.length_eq_zero_iff.1 (by omega)
    have hS : S = .masked s :: R := by rw [hin.after, hL]; rfl
    have hps' : ps = P ++ K ++ .masked s :: R := by rw [hsplit, hS, List.append_assoc]
    rw [hS]
    refine .inr ⟨writePieces R, rfl, hps.ends_write_first (P := P ++ K ++ [.masked s]) ?_ hcase
      hfirst (hbeside _ _ _ (hps.beside _ s R hps')).2⟩
    rw [hps']
    simp
  · intro t _ c hc
    cases hc

theorem botPath_holds (hx : Spaced x) :
    botPathRule.Holds (sub botPath [.text ("/bot".toList ++ redacted)] x) :=
  botPath_masks.holds_marked botPathRule_isPlain hx (by decide)
    (fun _ _ _ h => ⟨h.first, h.ends⟩) fun _ _ => ends_of_find

theorem query_holds (hx : Spaced x) :
    queryRule.Holds (sub query [.text ("?".toList ++ redacted)] x) :=
  query_masks.holds_marked queryRule_isPlain hx (by decide)
    (fun _ _ _ h => ⟨h.first, h.ends⟩) fun _ _ => ends_of_find

/-- Without a label, what is kept is not found. -/
theorem Masks.holds_unlabelled {p : Pattern Char} {template : List (Slot Char)} {r : Rule}
    (h : Masks beside p template (fun _ => []) []) (hr : r.IsPlain) (hs : r.Survives beside)
    (hx : Spaced x)
    (hnone : ∀ u t b, find p u (t ++ b) = none → r.left u → r.body t → r.rest b) :
    r.Holds (sub p template x) := by
  refine h.holds_sub hr hx hs.left ?_ ?_ ?_
  · intro ps P K S hps hsplit hK hfind hleft hbody
    exact hs.rest ps P K S hps hsplit hK hbody (hnone _ _ _ hfind hleft hbody)
  · intro ps P K S u l₁ l₂ s f L R hps hsplit hK hin hbody
    have hlength := hin.label.length_eq
    rw [List.length_append, List.length_append, List.length_nil] at hlength
    exact absurd (List.length_eq_zero_iff.1 (by omega)) (hr.plain _ hbody).ne_nil
  · intro t _ c hc
    cases hc

theorem botToken_holds (hx : Spaced x) :
    (botTokenRule classes).Holds (sub (botToken classes) [.text redacted] x) :=
  botToken_masks.holds_unlabelled (botTokenRule_isPlain classes) botTokenRule_survives hx
    fun _ _ _ hfind hu ht => botToken_none hfind hu.1 ht

theorem providerKey_holds (hx : Spaced x) :
    (providerKeyRule classes).Holds (sub (providerKey classes) [.text redacted] x) :=
  providerKey_masks.holds_unlabelled (providerKeyRule_isPlain classes)
    (providerKeyRule_survives fun _ h => h) hx fun _ _ _ hfind hu ht => providerKey_none hfind hu ht

theorem hexSecret_holds (hx : Spaced x) :
    hexSecretRule.Holds (sub hexSecret [.text redacted] x) :=
  (hexSecret_masks.mono fun _ _ _ h => h.toBeside).holds_unlabelled hexSecretRule_isPlain
    (hexSecretRule_survives fun _ h => h) hx fun _ _ _ hfind hu ht => run_none hfind hu ht

theorem controlToken_holds (hx : Spaced x) :
    controlTokenRule.Holds (sub controlToken [.text redacted] x) :=
  (controlToken_masks.mono fun _ _ _ h => h.toBeside).holds_unlabelled controlTokenRule_isPlain
    (controlTokenRule_survives fun _ h => h) hx fun _ _ _ hfind hu ht => run_none hfind hu ht

theorem bearer_holds (hx : Spaced x) : (bearerRule classes).Holds
    (sub (bearer classes) [.text ("Bearer ".toList ++ redacted)] x) := by
  have hmasks := (@bearer_masks classes).mono fun _ _ _ h => h.toBeside
  have hs := @bearerRule_survives [' ', '=', ':'] isKeyChar classes fun _ => isKeyChar_of_isAlnum
  refine hmasks.holds_sub (bearerRule_isPlain classes) hx hs.left ?_ ?_ ?_
  · intro ps P K S hps hsplit hK hfind hleft hbody
    exact hs.rest ps P K S hps hsplit hK hbody (bearer_none hfind hleft hbody)
  · intro ps P K S u l₁ l₂ s f L R hps hsplit hK hin hbody
    obtain ⟨b, hread, hb⟩ := hbody
    have hlength := hin.label.length_eq
    have hb := congrArg List.length hb
    rw [List.length_map] at hb
    rw [hread, List.length_append, List.length_append, List.length_append, hb] at hlength
    have hL : L = [] := by
      refine hin.kept.eq_nil (hin.read.trans (List.length_eq_zero_iff.1 ?_))
      have hseven : "Bearer ".toList.length = 7 := by decide
      rw [hseven] at hlength
      simp only [List.length_cons, List.length_nil] at hlength
      omega
    rw [hin.after, hL]
    exact .inr ⟨redacted, writePieces R, rfl, isMark_redacted⟩
  · intro t _ c hc
    cases hc

/-! ### Separators -/

/-- A sign that separates a key from its value. -/
def IsSign (c : Char) : Prop := c = '=' ∨ c = ':'

theorem not_isSign_of_isSpace {c : Char} (h : isSpace c = true) : ¬IsSign c := by
  rintro (rfl | rfl)
  · exact absurd h (by decide)
  · exact absurd h (by decide)

theorem not_isSign_of_key {key : Text} (h : key.map fold ∈ keyWords) :
    ∀ c ∈ key, ¬IsSign c := by
  have hall : ∀ word ∈ keyWords, '=' ∉ word ∧ ':' ∉ word := by decide
  intro c hc hsign
  have hmem : fold c ∈ key.map fold := List.mem_map_of_mem hc
  rcases hsign with rfl | rfl
  · exact (hall _ h).1 hmem
  · exact (hall _ h).2 hmem

/-- There is one sign in a label, so behind a separator in it is white space. -/
theorem space_of_label {l₁ l₂ key sep key' sep' : Text}
    (h : l₁ ++ (key' ++ sep' ++ l₂) = key ++ sep) (hkey : key.map fold ∈ keyWords)
    (hsep : IsSeparator sep) (hsep' : IsSeparator sep') : ∀ c ∈ l₂, isSpace c = true := by
  obtain ⟨a, c, b, rfl, hc, ha, hb⟩ := hsep
  obtain ⟨a', c', b', rfl, hc', -, -⟩ := hsep'
  have hsplit : (l₁ ++ (key' ++ a')) ++ c' :: (b' ++ l₂) = (key ++ a) ++ c :: b := by
    rw [List.append_assoc key a, ← h]
    simp
  have hbefore : ∀ d ∈ key ++ a, ¬IsSign d := by
    intro d hd
    rcases List.mem_append.1 hd with hd | hd
    · exact not_isSign_of_key hkey d hd
    · exact not_isSign_of_isSpace (ha d hd)
  have hl₂ : b' ++ l₂ = b := by
    rcases List.append_eq_append_iff.1 hsplit with ⟨r, hr, heq⟩ | ⟨r, -, heq⟩
    · cases r with
      | nil => exact (List.cons.inj heq).2
      | cons d r =>
          obtain ⟨rfl, -⟩ := List.cons.inj heq
          exact absurd hc' (hbefore c' (hr ▸ by simp))
    · cases r with
      | nil => exact (List.cons.inj heq).2.symm
      | cons d r =>
          obtain ⟨-, htail⟩ := List.cons.inj heq
          exact absurd hc' (not_isSign_of_isSpace (hb c' (htail ▸ by simp)))
  exact fun d hd => hb d (hl₂ ▸ List.mem_append_right b' hd)

/-- The label of a match is its start. -/
theorem InLabel.text_eq {p : Pattern Char} {label : Found Char → Text} {u l₁ l₂ s tail l w : Text}
    {f : Found Char} (h : InLabel p label tail P K S u l₁ l₂ s f L R) (htext : f.text = l ++ w)
    (hlabel : label f = l) : l₁ ++ (readPieces K ++ l₂) = l := by
  have hlength := h.label.length_eq
  rw [hlabel] at hlength
  exact (List.append_inj (h.text.symm.trans htext) hlength).1

theorem keyValue_holds (hx : Spaced x) : (keyValueRule classes).Holds
    (sub (keyValue classes) [.group 1, .group 2, .text redacted] x) := by
  refine (@keyValue_masks classes).holds_sub (keyValueRule_isPlain classes) hx
    ?_ ?_ ?_ ?_
  · intro ps P K S hps hsplit hK hbody hleft
    obtain ⟨key, sep, hread, hkey, hsep⟩ := hbody
    obtain ⟨l, hl, hsmall⟩ := keyWords_small _ hkey
    cases key with
    | nil => cases hl
    | cons c key =>
        obtain rfl := Option.some.inj hl
        refine open_left hps hsplit (caseless_isWord classes) ⟨c, by rw [hread]; rfl, ?_⟩ hleft
        intro u s v hbeside hmem
        have hspace := hbeside.ends c hmem
        rw [classes.not_space_of_word c (classes.word_of_fold c hsmall)] at hspace
        cases hspace
  · intro ps P K S hps hsplit hK hfind hleft hbody
    exact (hps.mono fun _ _ _ h => h.toBeside).guarded_write (P := P ++ K)
      (by rw [hsplit, List.append_assoc]) (keyValue_none hfind hleft hbody)
  · intro ps P K S u l₁ l₂ s f L R hps hsplit hK hin hbody
    obtain ⟨key', sep', hread, -, hsep'⟩ := hbody
    obtain ⟨-, key, sep, s', htext, hgs, hkey, hsep, -⟩ := keyValue_find hin.finds
    have heq := hin.text_eq (l := key ++ sep) (w := s') (by rw [htext, List.append_assoc])
      (by rw [hgs]; simp)
    rw [hread] at heq
    have hspace := space_of_label heq hkey hsep hsep'
    rw [hin.after]
    cases L with
    | nil => exact .inr ⟨redacted, writePieces R, rfl, isMark_redacted⟩
    | cons p L =>
        obtain ⟨c, d, rfl⟩ := hin.kept _ (.head _)
        refine .inl fun e he => ?_
        obtain rfl := Option.some.inj he
        rw [← isSpace_alike (hps.alike c d (by rw [hsplit, hin.after]; simp))]
        exact hspace c (hin.read ▸ .head _)
  · intro t _ c hc
    cases hc

theorem at_not_mem_scheme (h : IsScheme t) : '@' ∉ t := by
  obtain ⟨c, a, rfl, hc, ha⟩ := h
  intro hmem
  rcases List.mem_cons.1 hmem with rfl | hmem
  · exact absurd hc (by decide)
  · rcases List.mem_append.1 hmem with hmem | hmem
    · exact absurd (ha '@' hmem) (by decide)
    · exact absurd hmem (by decide)

theorem userinfo_holds (hx : Spaced x) : (userinfoRule classes).Holds
    (sub (userinfo classes) [.group 1, .text (redacted ++ "@".toList)] x) := by
  refine (@userinfo_masks classes).holds_sub (userinfoRule_isPlain classes) hx
    ?_ ?_ ?_ ?_
  · intro ps P K S hps hsplit hK hbody hleft
    exact (hps.mono fun _ _ _ hb => hb.toBeside).apart_read hsplit hleft
  · intro ps P K S hps hsplit hK hfind hleft hbody
    refine userinfo_rest (P := P ++ K) hps (by rw [hsplit, List.append_assoc]) ?_ ?_
    · rintro S₁ S₂ rfl - huser
      exact absurd huser (userinfo_none hfind hleft.1 hbody _ _ readPieces_append)
    · rintro A s B S₂ rfl huser
      exact hps.userinfo_masked (P := P ++ K) (by rw [hsplit, List.append_assoc]) huser
  · intro ps P K S u l₁ l₂ s f L R hps hsplit hK hin hbody
    refine userinfo_rest (P := P ++ K) hps (by rw [hsplit, List.append_assoc]) ?_ ?_
    · -- an `@` before the secret would be in the scheme
      rintro S₁ S₂ hS hkept -
      exfalso
      obtain ⟨-, scheme, info, htext, hgs, hscheme, -⟩ := userinfo_find hin.finds
      have heq := hin.text_eq (l := scheme) htext (by rw [hgs]; rfl)
      have hKept : Kept (S₁ ++ [.kept '@' '@']) := by
        intro q hq
        rcases List.mem_append.1 hq with hq | hq
        · exact hkept q hq
        · exact ⟨'@', '@', List.mem_singleton.1 hq⟩
      obtain ⟨L', hL, -⟩ := kept_of_append (K := S₁ ++ [.kept '@' '@']) (S := S₂)
        (hin.after.symm.trans (by rw [hS]; simp)) hKept
      refine at_not_mem_scheme hscheme (heq ▸ ?_)
      have hmem : '@' ∈ l₂ := by
        rw [← hin.read, hL]
        simp
      simp [hmem]
    · rintro A s' B S₂ rfl huser
      exact hps.userinfo_masked (P := P ++ K) (by rw [hsplit, List.append_assoc]) huser
  · rintro t ⟨c, a, rfl, hc, -⟩ d hd heq
    obtain rfl := List.mem_singleton.1 hd
    obtain rfl := Option.some.inj heq
    exact absurd hc (by decide)

end Cortex.Redaction
