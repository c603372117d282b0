import Cortex.Redaction.Passes

/-!
# The masked line, and where it is cut

The line after the nine substitutions keeps all their rules (`maskedLine_keepsRules`), and
a line that keeps them stays as it is, but for what is exposed in it.  A cut breaks a rule
only at its end: in a mask behind a label, or where a run that was longer has the length
that is masked.
-/

namespace Cortex.Redaction

open PyText Regex

/-- A part of the mask that a cut leaves of it. -/
def IsTornMark (q : Text) : Prop := q <+: redacted ∧ q ≠ [] ∧ q ≠ redacted

/-- A line that a cut leaves at a blank, in the mask behind a label, or at the end of a run
of a length that is masked. -/
inductive Torn (classes : CharClasses) : Text → Prop
  | blank (a : Text) : Torn classes (a ++ [' '])
  | botPath (a q : Text) (hq : IsTornMark q) :
      Torn classes (a ++ (['/', 'b', 'o', 't'] ++ q))
  | query (a q : Text) (hq : IsTornMark q) : Torn classes (a ++ (['?'] ++ q))
  | hexSecret (a t : Text) (ha : Open isAlnum a) (ht : t.length = 64 ∧ ∀ c ∈ t, isHex c = true) :
      Torn classes (a ++ t)
  | controlToken (a t : Text) (ha : Open isKeyChar a)
      (ht : t.length = 43 ∧ ∀ c ∈ t, isKeyChar c = true) : Torn classes (a ++ t)
  | bearer (a b q : Text) (ha : Open classes.isWord a)
      (hb : b.map fold = ['b', 'e', 'a', 'r', 'e', 'r']) (hq : IsTornMark (q.map fold)) :
      Torn classes (a ++ ((b ++ [' ']) ++ q))
  | keyValue (a key sep q : Text) (ha : Open classes.isWord a) (hkey : key.map fold ∈ keyWords)
      (hsep : IsSeparator sep) (hq : IsTornMark (q.map fold)) :
      Torn classes (a ++ ((key ++ sep) ++ q))

/-- A line in which masking has exposed a token or userinfo: behind a mask a word starts
anew, and the `/` that ended userinfo may be in a masked query. -/
inductive Exposed (classes : CharClasses) : Text → Prop
  | botToken (a t b : Text) (ht : IsToken classes t) :
      Exposed classes (a ++ redacted ++ (t ++ b))
  | userinfo (a scheme info b : Text) (ha : Open classes.isWord a) (hscheme : IsScheme scheme)
      (hinfo : IsUserinfo info) (hne : info ≠ redacted)
      (hmask : redacted <:+ a ∨ '?' :: redacted <:+: info) :
      Exposed classes (a ++ (scheme ++ (info ++ '@' :: b)))

variable {classes : CharClasses} {x r z text : Text} {u s v w m : Text}
  {beside : Text → Text → Text → Prop} {p : Pattern Char} {template : List (Slot Char)}
  {label : Found Char → Text} {tail : Text} {stop : Char → Bool}

/-! ## The masked line -/

theorem Masks.isLine (h : Masks beside p template label tail) (hx : IsLine x) :
    IsLine (sub p template x) := by
  obtain ⟨ps, hsound, rfl, hwrite, -⟩ := h.exists_pieces hx.toSpaced
  rw [← hwrite]
  exact hsound.isLine hx

theorem Masks.count_blank (h : Masks beside p template label tail) (hx : Spaced x) :
    (sub p template x).count ' ' = x.count ' ' := by
  obtain ⟨ps, hsound, rfl, hwrite, -⟩ := h.exists_pieces hx
  rw [← hwrite]
  exact hsound.count_blank

/-- Every substitution leaves a line, with as many blanks. -/
theorem sub_line (hp : (p, template) ∈ patterns classes) (hx : IsLine x) :
    IsLine (sub p template x) ∧ (sub p template x).count ' ' = x.count ' ' := by
  have hline : ∀ {beside label tail}, Masks beside p template label tail →
      IsLine (sub p template x) ∧ (sub p template x).count ' ' = x.count ' ' :=
    fun h => ⟨h.isLine hx, h.count_blank hx.toSpaced⟩
  simp only [patterns, List.mem_cons, Prod.mk.injEq, List.not_mem_nil, or_false] at hp
  rcases hp with ⟨rfl, rfl⟩ | ⟨rfl, rfl⟩ | ⟨rfl, rfl⟩ | ⟨rfl, rfl⟩ | ⟨rfl, rfl⟩ | ⟨rfl, rfl⟩ |
    ⟨rfl, rfl⟩ | ⟨rfl, rfl⟩ | ⟨rfl, rfl⟩
  · exact hline botPath_masks
  · exact hline botToken_masks
  · exact hline providerKey_masks
  · exact hline userinfo_masks
  · exact hline query_masks
  · exact hline hexSecret_masks
  · exact hline controlToken_masks
  · exact hline bearer_masks
  · exact hline keyValue_masks

/-- The masked line is a line, with the blanks of the collapsed text. -/
theorem maskedLine_line (classes : CharClasses) (text : Text) :
    IsLine (maskedLine classes text) ∧
      (maskedLine classes text).count ' ' = (collapse text).count ' ' := by
  have hfold : ∀ (l : List (Pattern Char × List (Slot Char))) (x : Text), l ⊆ patterns classes →
      IsLine x → IsLine (l.foldl (fun line p => sub p.1 p.2 line) x) ∧
        (l.foldl (fun line p => sub p.1 p.2 line) x).count ' ' = x.count ' ' := by
    intro l
    induction l with
    | nil => exact fun x _ hx => ⟨hx, rfl⟩
    | cons p l ih =>
        intro x hl hx
        obtain ⟨hline, hcount⟩ := sub_line (hl (.head _)) hx
        obtain ⟨hlast, hall⟩ := ih _ (List.subset_of_cons_subset hl) hline
        exact ⟨hlast, hall.trans hcount⟩
  exact hfold (patterns classes) _ (List.Subset.refl _) (isLine_collapse text)

/-- The line keeps the rule of each substitution. -/
structure KeepsRules (classes : CharClasses) (x : Text) : Prop where
  botPath : botPathRule.Holds x
  botToken : (botTokenRule classes).Holds x
  providerKey : (providerKeyRule classes).Holds x
  userinfo : (userinfoRule classes).Holds x
  query : queryRule.Holds x
  hexSecret : hexSecretRule.Holds x
  controlToken : controlTokenRule.Holds x
  bearer : (bearerRule classes).Holds x
  keyValue : (keyValueRule classes).Holds x

theorem maskedLine_keepsRules (classes : CharClasses) (text : Text) :
    KeepsRules classes (maskedLine classes text) := by
  have h₀ := isLine_collapse text
  have h₁ := botPath_masks.isLine h₀
  have h₂ := (@botToken_masks classes).isLine h₁
  have h₃ := (@providerKey_masks classes).isLine h₂
  have h₄ := (@userinfo_masks classes).isLine h₃
  have h₅ := query_masks.isLine h₄
  have h₆ := hexSecret_masks.isLine h₅
  have h₇ := controlToken_masks.isLine h₆
  have h₈ := (@bearer_masks classes).isLine h₇
  -- what each of the later substitutions keeps
  have k₂ := fun (r : Rule) (hr : r.IsPlain) (hs : r.Survives (Beside [] isAlnum)) =>
    (@botToken_masks classes).keeps hr hs h₁.toSpaced
  have k₃ := fun (r : Rule) (hr : r.IsPlain) (hs : r.Survives (Beside [] isAlnum)) =>
    (@providerKey_masks classes).keeps hr hs h₂.toSpaced
  have k₄ := fun (r : Rule) (hr : r.IsPlain) (hs : r.Survives UserinfoBeside) =>
    (@userinfo_masks classes).keeps hr hs h₃.toSpaced
  have k₅ := fun (r : Rule) (hr : r.IsPlain) (hs : r.Survives QueryBeside) =>
    query_masks.keeps hr hs h₄.toSpaced
  have k₆ := fun (r : Rule) (hr : r.IsPlain) (hs : r.Survives (RunBeside isAlnum)) =>
    hexSecret_masks.keeps hr hs h₅.toSpaced
  have k₇ := fun (r : Rule) (hr : r.IsPlain) (hs : r.Survives (RunBeside isKeyChar)) =>
    controlToken_masks.keeps hr hs h₆.toSpaced
  have k₈ := fun (r : Rule) (hr : r.IsPlain) (hs : r.Survives WordBeside) =>
    (@bearer_masks classes).keeps hr hs h₇.toSpaced
  have k₉ := fun (r : Rule) (hr : r.IsPlain) (hs : r.Survives WordBeside) =>
    (@keyValue_masks classes).keeps hr hs h₈.toSpaced
  have hkey := fun c => isKeyChar_of_isAlnum (c := c)
  simp only [maskedLine, patterns, List.foldl_cons, List.foldl_nil]
  constructor
  · have hr := botPathRule_isPlain
    have hw : botPathRule.Survives WordBeside :=
      (botPathRule_survives (by decide) (by decide)).mono fun _ _ _ h => h.toBeside
    refine k₉ _ hr hw (k₈ _ hr hw (k₇ _ hr ?_ (k₆ _ hr ?_ (k₅ _ hr ?_ (k₄ _ hr ?_ (k₃ _ hr ?_
      (k₂ _ hr ?_ (botPath_holds h₀.toSpaced))))))))
    · exact (botPathRule_survives (by decide) (by decide)).mono fun _ _ _ h => h.toBeside
    · exact (botPathRule_survives (by decide) (by decide)).mono fun _ _ _ h => h.toBeside
    · exact (botPathRule_survives (by decide) (by decide)).mono fun _ _ _ h => h.toBeside
    · exact (botPathRule_survives (by decide) (by decide)).mono fun _ _ _ h => h.toBeside
    · exact botPathRule_survives (by decide) (by decide)
    · exact botPathRule_survives (by decide) (by decide)
  · have hr := botTokenRule_isPlain classes
    have hw : (botTokenRule classes).Survives WordBeside :=
      botTokenRule_survives.mono fun _ _ _ h => h.toBeside
    refine k₉ _ hr hw (k₈ _ hr hw (k₇ _ hr ?_ (k₆ _ hr ?_ (k₅ _ hr ?_ (k₄ _ hr ?_ (k₃ _ hr
      botTokenRule_survives (botToken_holds h₁.toSpaced)))))))
    · exact botTokenRule_survives.mono fun _ _ _ h => h.toBeside
    · exact botTokenRule_survives.mono fun _ _ _ h => h.toBeside
    · exact botTokenRule_survives.mono fun _ _ _ h => h.toBeside
    · exact botTokenRule_survives.mono fun _ _ _ h => h.toBeside
  · have hr := providerKeyRule_isPlain classes
    have hw : (providerKeyRule classes).Survives WordBeside :=
      (providerKeyRule_survives hkey).mono fun _ _ _ h => h.toBeside
    refine k₉ _ hr hw (k₈ _ hr hw (k₇ _ hr ?_ (k₆ _ hr ?_ (k₅ _ hr ?_ (k₄ _ hr ?_
      (providerKey_holds h₂.toSpaced))))))
    · exact (providerKeyRule_survives hkey).mono fun _ _ _ h => h.toBeside
    · exact (providerKeyRule_survives fun _ h => h).mono fun _ _ _ h => h.toBeside
    · exact (providerKeyRule_survives fun _ h => h).mono fun _ _ _ h => h.toBeside
    · exact (providerKeyRule_survives fun _ h => h).mono fun _ _ _ h => h.toBeside
  · have hr := userinfoRule_isPlain classes
    exact k₉ _ hr userinfoRule_survives_word (k₈ _ hr userinfoRule_survives_word
      (k₇ _ hr userinfoRule_survives_run (k₆ _ hr userinfoRule_survives_run
        (k₅ _ hr userinfoRule_survives_query (userinfo_holds h₃.toSpaced)))))
  · have hr := queryRule_isPlain
    have hw : queryRule.Survives WordBeside :=
      (queryRule_survives (by decide) (by decide)).mono fun _ _ _ h => h.toBeside
    refine k₉ _ hr hw (k₈ _ hr hw (k₇ _ hr ?_ (k₆ _ hr ?_ (query_holds h₄.toSpaced))))
    · exact (queryRule_survives (by decide) (by decide)).mono fun _ _ _ h => h.toBeside
    · exact (queryRule_survives (by decide) (by decide)).mono fun _ _ _ h => h.toBeside
  · have hr := hexSecretRule_isPlain
    have hw : hexSecretRule.Survives WordBeside :=
      (hexSecretRule_survives hkey).mono fun _ _ _ h => h.toBeside
    refine k₉ _ hr hw (k₈ _ hr hw (k₇ _ hr ?_ (hexSecret_holds h₅.toSpaced)))
    exact (hexSecretRule_survives hkey).mono fun _ _ _ h => h.toBeside
  · have hr := controlTokenRule_isPlain
    have hw : controlTokenRule.Survives WordBeside :=
      (controlTokenRule_survives fun _ h => h).mono fun _ _ _ h => h.toBeside
    exact k₉ _ hr hw (k₈ _ hr hw (controlToken_holds h₆.toSpaced))
  · exact k₉ _ (bearerRule_isPlain classes)
      ((bearerRule_survives hkey).mono fun _ _ _ h => h.toBeside) (bearer_holds h₇.toSpaced)
  · exact keyValue_holds h₈.toSpaced

/-! ## Lines that stay as they are -/

theorem takeWhile_run (hs : ∀ c ∈ s, stop c = false) (hv : Ends stop v) :
    (s ++ v).takeWhile (fun c => !stop c) = s := by
  rw [List.takeWhile_append_of_pos fun c hc => by rw [hs c hc]; rfl]
  cases v with
  | nil => simp
  | cons c v =>
      rw [List.takeWhile_cons_of_neg (by rw [hv c rfl]; decide), List.append_nil]

/-- A secret up to a stop, where a mask or a stop is, is a mask. -/
theorem eq_redacted_of_marked (hne : s ≠ []) (hs : ∀ c ∈ s, stop c = false) (hv : Ends stop v)
    (hmask : ∀ c ∈ redacted, stop c = false) (h : Marked stop (s ++ v)) : s = redacted := by
  rcases h with h | ⟨w, hw, hend⟩
  · obtain ⟨c, s, rfl⟩ := List.exists_cons_of_ne_nil hne
    have hc := hs c (.head _)
    rw [h c rfl] at hc
    cases hc
  · rw [← takeWhile_run hs hv, hw, takeWhile_run hmask hend]

theorem not_guarded (h : IsCredential s v) : ¬Guarded (s ++ v) := by
  rintro (hend | ⟨m, w, hw, hm⟩)
  · obtain ⟨c, s', rfl⟩ := List.exists_cons_of_ne_nil h.ne_nil
    have hc := h.word c (.head _)
    rw [hend c rfl] at hc
    cases hc
  · exact h.not_mark m w hw hm

theorem botPath_stays (h : botPathRule.Holds r) :
    sub botPath [.text ("/bot".toList ++ redacted)] r = r := by
  refine sub_eq_self botPath_masks.progress ?_
  rintro u f v rfl hfind
  obtain ⟨s, ht, hne, hs, hv⟩ := botPath_find hfind
  have hmarked := h u ['/', 'b', 'o', 't'] (s ++ v) (by rw [ht, List.append_assoc]) trivial rfl
  rw [ht, eq_redacted_of_marked hne hs hv (by decide) hmarked]
  rfl

theorem query_stays (h : queryRule.Holds r) :
    sub query [.text ("?".toList ++ redacted)] r = r := by
  refine sub_eq_self query_masks.progress ?_
  rintro u f v rfl hfind
  obtain ⟨s, ht, hne, hs, hv⟩ := query_find hfind
  have hmarked := h u ['?'] (s ++ v) (by rw [ht, List.append_assoc]) trivial rfl
  rw [ht, eq_redacted_of_marked hne hs hv (by decide) hmarked]
  rfl

theorem take_drop_append (n : ℕ) (k v : Text) : k ++ v = k.take n ++ (k.drop n ++ v) := by
  rw [← List.append_assoc, List.take_append_drop]

theorem botToken_stays (h : (botTokenRule classes).Holds r) (hexposed : ¬Exposed classes r) :
    sub (botToken classes) [.text redacted] r = r := by
  refine sub_eq_self botToken_masks.progress ?_
  rintro u f v rfl hfind
  exfalso
  obtain ⟨hopen, d, k, ht, hd, hdigit, hk, hkey, -⟩ := botToken_find hfind
  have htoken : IsToken classes (d ++ ':' :: k.take 20) :=
    ⟨d, k.take 20, rfl, hd, hdigit, by rw [List.length_take, min_eq_left hk],
      fun c hc => hkey c (List.take_subset _ _ hc)⟩
  have hsplit : f.text ++ v = (d ++ ':' :: k.take 20) ++ (k.drop 20 ++ v) := by
    rw [ht]
    simpa using take_drop_append 20 k v
  rw [hsplit] at h hexposed
  by_cases hmask : redacted <:+ u
  · obtain ⟨a, rfl⟩ := hmask
    exact hexposed (.botToken a _ _ htoken)
  · exact h u _ _ rfl ⟨hopen, hmask⟩ htoken

theorem providerKey_stays (h : (providerKeyRule classes).Holds r) :
    sub (providerKey classes) [.text redacted] r = r := by
  refine sub_eq_self providerKey_masks.progress ?_
  rintro u f v rfl hfind
  exfalso
  obtain ⟨hopen, k, ht, hk, hkey, -⟩ := providerKey_find hfind
  have hsplit : f.text ++ v = 's' :: 'k' :: '-' :: k.take 16 ++ (k.drop 16 ++ v) := by
    rw [ht]
    simpa using take_drop_append 16 k v
  refine h u _ _ (by rw [hsplit]) hopen
    ⟨k.take 16, rfl, by rw [List.length_take, min_eq_left hk], fun c hc => ?_⟩
  exact hkey c (List.take_subset _ _ hc)

theorem userinfo_stays (h : (userinfoRule classes).Holds r) (hexposed : ¬Exposed classes r) :
    sub (userinfo classes) [.group 1, .text (redacted ++ "@".toList)] r = r := by
  refine sub_eq_self userinfo_masks.progress ?_
  rintro u f v rfl hfind
  obtain ⟨hopen, scheme, info, ht, hgs, hscheme, hinfo⟩ := userinfo_find hfind
  have hsplit : f.text ++ v = scheme ++ (info ++ '@' :: v) := by
    rw [ht]
    simp
  rw [hsplit] at h hexposed
  have hmask : info = redacted := by
    by_contra hne
    refine hexposed (.userinfo u scheme info v hopen hscheme hinfo hne ?_)
    by_cases hu : redacted <:+ u
    · exact .inl hu
    · exact .inr ((h u scheme _ rfl ⟨hopen, hu⟩ hscheme info v rfl hinfo).resolve_left hne)
  have hgroups : f.groups = [scheme] := hgs
  rw [ht, hmask]
  simp [expand, Slot.expand, hgroups]

theorem run_stays {cls edge : Char → Bool} {n : ℕ} (hn : 0 < n) (h : (runRule cls edge n).Holds r) :
    sub (.seq (.look (notBehind edge))
      (.seq (.run cls n (some n)) (.look (notAhead [edge])))) [.text redacted] r = r := by
  refine sub_eq_self ?_ ?_
  · intro u w f hfind
    obtain ⟨v, rfl⟩ := find_eq_some hfind
    exact ne_nil_of_length hn (run_find hfind).2.1.ge
  · rintro u f v rfl hfind
    exfalso
    obtain ⟨hopen, hlength, hall, hnext⟩ := run_find hfind
    obtain ⟨c, hc, hedge⟩ := h u f.text v rfl hopen ⟨hlength, hall⟩
    rw [hnext c hc] at hedge
    cases hedge

theorem bearer_stays (h : (bearerRule classes).Holds r) (hr : Spaced r) :
    sub (bearer classes) [.text ("Bearer ".toList ++ redacted)] r = r := by
  refine sub_eq_self bearer_masks.progress ?_
  rintro u f v rfl hfind
  exfalso
  obtain ⟨hopen, b, w, s, ht, hb, hw, hspace, hs⟩ := bearer_find hfind
  have hblank : w = [' '] := by
    have hr' : Spaced (u ++ b ++ (w ++ (s ++ v))) := by
      rw [ht] at hr
      simpa only [List.append_assoc] using hr
    exact (hr'.eq_blank hspace).resolve_left hw
  subst hblank
  refine not_guarded hs (h u (b ++ [' ']) (s ++ v) ?_ hopen ⟨b, rfl, hb⟩)
  rw [ht]
  simp

theorem keyValue_stays (h : (keyValueRule classes).Holds r) :
    sub (keyValue classes) [.group 1, .group 2, .text redacted] r = r := by
  refine sub_eq_self keyValue_masks.progress ?_
  rintro u f v rfl hfind
  exfalso
  obtain ⟨hopen, key, sep, s, ht, -, hkey, hsep, hs⟩ := keyValue_find hfind
  refine not_guarded hs (h u (key ++ sep) (s ++ v) ?_ hopen ⟨key, sep, rfl, hkey, hsep⟩)
  rw [ht]
  simp

/-- A line that keeps the rules stays, if nothing is exposed in it. -/
theorem KeepsRules.stays (h : KeepsRules classes r) (hr : Spaced r)
    (hexposed : ¬Exposed classes r) : ∀ p ∈ patterns classes, sub p.1 p.2 r = r := by
  intro p hp
  simp only [patterns, List.mem_cons, List.not_mem_nil, or_false] at hp
  rcases hp with rfl | rfl | rfl | rfl | rfl | rfl | rfl | rfl | rfl
  · exact botPath_stays h.botPath
  · exact botToken_stays h.botToken hexposed
  · exact providerKey_stays h.providerKey
  · exact userinfo_stays h.userinfo hexposed
  · exact query_stays h.query
  · exact run_stays (by decide) h.hexSecret
  · exact run_stays (by decide) h.controlToken
  · exact bearer_stays h.bearer hr
  · exact keyValue_stays h.keyValue

/-! ## Cuts -/

/-- A rule of the whole line holds of its start, if what may stand behind a text still
does where the line is cut. -/
theorem Rule.Holds.cut {rule : Rule} (h : rule.Holds (r ++ z))
    (hrest : ∀ a t b, r = a ++ (t ++ b) → rule.left a → rule.body t → rule.rest (b ++ z) →
      rule.rest b) : rule.Holds r := by
  rintro a t b hr ha ht
  exact hrest a t b hr ha ht (h a t (b ++ z) (by rw [hr]; simp) ha ht)

theorem ends_cut {b : Text} (h : Ends stop (b ++ z)) : Ends stop b := by
  cases b with
  | nil => exact fun c hc => (by cases hc)
  | cons c b => exact h

/-- A mask is cut, or the cut is behind it. -/
theorem mark_cut {b : Text} (hm : m.map fold = redacted) (h : b ++ z = m ++ w) (hb : b ≠ []) :
    IsTornMark (b.map fold) ∨ ∃ w', b = m ++ w' ∧ w = w' ++ z := by
  rcases List.append_eq_append_iff.1 h with ⟨k, rfl, -⟩ | ⟨k, rfl, rfl⟩
  · by_cases hk : k = []
    · subst hk
      refine .inr ⟨[], by simp, ?_⟩
      simpa using h.symm
    · refine .inl ⟨⟨k.map fold, by rw [← List.map_append, hm]⟩, by simpa using hb, fun heq => ?_⟩
      rw [List.map_append, heq] at hm
      exact hk (List.map_eq_nil_iff.1 (List.append_right_eq_self.1 hm))
  · exact .inr ⟨k, rfl, rfl⟩

theorem marked_cut {b : Text} (h : Marked stop (b ++ z)) (hb : ¬IsTornMark b) :
    Marked stop b := by
  by_cases hnil : b = []
  · exact .inl fun c hc => (by subst hnil; cases hc)
  rcases h with h | ⟨w, hw, hend⟩
  · exact .inl (ends_cut h)
  rcases List.append_eq_append_iff.1 hw with ⟨k, hk, -⟩ | ⟨k, rfl, rfl⟩
  · by_cases hk' : k = []
    · subst hk'
      exact .inr ⟨[], by simpa using hk.symm, fun c hc => (by cases hc)⟩
    · refine absurd ⟨⟨k, hk.symm⟩, hnil, fun heq => hk' ?_⟩ hb
      rw [heq] at hk
      exact List.append_right_eq_self.1 hk.symm
  · exact .inr ⟨k, rfl, ends_cut hend⟩

theorem guarded_cut {b : Text} (h : Guarded (b ++ z)) (hb : ¬IsTornMark (b.map fold)) :
    Guarded b := by
  by_cases hnil : b = []
  · exact .inl fun c hc => (by subst hnil; cases hc)
  rcases h with h | ⟨m, w, hw, hm⟩
  · exact .inl (ends_cut h)
  · obtain ⟨w', rfl, -⟩ := (mark_cut hm hw hnil).resolve_left hb
    exact .inr ⟨m, w', rfl, hm⟩

theorem head_cut {cls : Char → Bool} {b : Text} (h : ∃ c ∈ (b ++ z).head?, cls c = true)
    (hb : b ≠ []) : ∃ c ∈ b.head?, cls c = true := by
  obtain ⟨c, b, rfl⟩ := List.exists_cons_of_ne_nil hb
  exact h

/-- A cut line keeps the rules, if the cut leaves nothing torn. -/
theorem KeepsRules.cut (h : KeepsRules classes (r ++ z)) (hr : ¬Torn classes r) :
    KeepsRules classes r where
  botPath := h.botPath.cut fun a t b hsplit _ ht hb => by
    refine marked_cut hb fun htorn => hr ?_
    rw [hsplit, show t = _ from ht]
    exact .botPath a b htorn
  botToken := h.botToken.cut fun _ _ _ _ _ _ hb => hb
  providerKey := h.providerKey.cut fun _ _ _ _ _ _ hb => hb
  userinfo := h.userinfo.cut fun _ _ b _ _ _ hb info v hv hinfo =>
    hb info (v ++ z) (by rw [hv]; simp) hinfo
  query := h.query.cut fun a t b hsplit _ ht hb => by
    refine marked_cut hb fun htorn => hr ?_
    rw [hsplit, show t = _ from ht]
    exact .query a b htorn
  hexSecret := h.hexSecret.cut fun a t b hsplit ha ht hb => by
    refine head_cut hb ?_
    rintro rfl
    rw [List.append_nil] at hsplit
    exact hr (hsplit ▸ .hexSecret a t ha ht)
  controlToken := h.controlToken.cut fun a t b hsplit ha ht hb => by
    refine head_cut hb ?_
    rintro rfl
    rw [List.append_nil] at hsplit
    exact hr (hsplit ▸ .controlToken a t ha ht)
  bearer := h.bearer.cut fun a t b hsplit ha ht hb => by
    obtain ⟨w, rfl, hw⟩ := ht
    exact guarded_cut hb fun htorn => hr (hsplit ▸ .bearer a w b ha hw htorn)
  keyValue := h.keyValue.cut fun a t b hsplit ha ht hb => by
    obtain ⟨key, sep, rfl, hkey, hsep⟩ := ht
    exact guarded_cut hb fun htorn => hr (hsplit ▸ .keyValue a key sep b ha hkey hsep htorn)

end Cortex.Redaction
