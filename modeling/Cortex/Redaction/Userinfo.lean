import Cortex.Redaction.Survive

/-!
# What is left of tokens and userinfo

Two patterns do not find everything that they would find in the line they have written:
behind a mask a word starts anew.  Their rules leave such texts out.  For userinfo there
is one more case, as a masked query no longer has the `/` that ended it.
-/

namespace Cortex.Redaction

open PyText Regex

variable {beside : Text → Text → Text → Prop} {t t' w : Text} {P K S A B ps : List Piece}
  {labels : List Char} {edge : Char → Bool} {classes : CharClasses}

/-- A secret of `userinfo`, between the slashes and the `@`. -/
structure UserinfoBeside (u s v : Text) : Prop extends Beside ['/'] isAlnum u s v where
  slash : u.getLast? = some '/'
  at_sign : v.head? = some '@'
  word : ∀ c ∈ s, endsUserinfo c = false

/-- A secret of `query`. -/
structure QueryBeside (u s v : Text) : Prop extends Beside ['?'] isAlnum u s v where
  mark : u.getLast? = some '?'
  first : ∀ c ∈ s.head?, endsQuery c = false
  ends : Ends endsQuery v

/-- A secret that is a run of key characters. -/
structure RunBeside (edge : Char → Bool) (u s v : Text) : Prop extends Beside [] edge u s v where
  run : ∀ c ∈ s, isKeyChar c = true

/-- A secret that is the rest of a word. -/
structure WordBeside (u s v : Text) : Prop
    extends Beside [' ', '=', ':'] isKeyChar u s v where
  ends : Ends isSpace v

/-! ## Masks before a text -/

/-- A mask that ends behind was kept. -/
theorem Sound.kept_mark_end (h : Sound (Beside labels edge) [] ps) {l m v : Text}
    (hps : ps = P ++ S) (hm : l ++ m = redacted) (hne : m ≠ []) (hP : l <:+ readPieces P)
    (hS : readPieces S = m ++ v) : ∃ P' M, P = P' ++ M ∧ Kept M ∧ readPieces M = l := by
  induction l using List.reverseRecOn generalizing P S m with
  | nil => exact ⟨P, [], by simp, fun p hp => (by cases hp), rfl⟩
  | append_singleton l c ih =>
      rcases List.eq_nil_or_concat' P with rfl | ⟨P, p, rfl⟩
      · exact absurd (List.suffix_nil.1 hP) (by simp)
      rw [List.append_assoc, List.singleton_append] at hps
      cases p with
      | masked s =>
          have hbeside := h.beside P s S hps
          rw [readPieces_append, readPieces_masked, readPieces_nil, List.append_nil] at hP
          exact absurd hS (hbeside.closed _ m v hm (by simp) hne hP)
      | kept e d =>
          rw [readPieces_append, readPieces_kept, readPieces_nil] at hP
          obtain ⟨r, hr⟩ := hP
          rw [← List.append_assoc] at hr
          obtain ⟨hread, hc⟩ := List.append_inj' hr rfl
          obtain rfl := (List.cons.inj hc).1
          obtain ⟨P', M, rfl, hM, rfl⟩ := ih (m := c :: m) hps
            (by rw [← hm, List.append_assoc]; rfl) (List.cons_ne_nil _ _) ⟨r, hread⟩
            (by rw [readPieces_kept, hS]; rfl)
          refine ⟨P', M ++ [.kept c d], by simp, fun q hq => ?_, by simp⟩
          rcases List.mem_append.1 hq with hq | hq
          · exact hM q hq
          · exact ⟨c, d, List.mem_singleton.1 hq⟩

/-- No mask was read where none is written. -/
theorem Sound.not_suffix_read (h : Sound (Beside labels edge) [] ps) (hps : ps = P ++ S)
    (hP : ¬redacted <:+ writePieces P) : ¬redacted <:+ readPieces P := by
  intro hread
  rcases List.eq_nil_or_concat' P with rfl | ⟨P, p, rfl⟩
  · exact absurd (List.suffix_nil.1 hread) (by decide)
  cases p with
  | masked s => exact not_suffix_of_masked hP P s rfl
  | kept c d =>
      have hsplit : redacted = '[' :: maskWord ++ [']'] := rfl
      obtain ⟨r, hr⟩ := hread
      rw [readPieces_append, readPieces_kept, readPieces_nil, hsplit, ← List.append_assoc] at hr
      obtain ⟨hstart, hc⟩ := List.append_inj' hr rfl
      obtain rfl := (List.cons.inj hc).1
      rw [List.append_assoc, List.singleton_append] at hps
      obtain ⟨P', M, rfl, hM, hread⟩ := h.kept_mark_end (m := [']']) hps hsplit.symm
        (List.cons_ne_nil _ _) ⟨r, hstart⟩ (by rw [readPieces_kept]; rfl)
      have hkept : Kept (M ++ [.kept ']' d]) := by
        intro q hq
        rcases List.mem_append.1 hq with hq | hq
        · exact hM q hq
        · exact ⟨']', d, List.mem_singleton.1 hq⟩
      have hwrite := writePieces_mark hkept (h.alike.of_subset (by rw [hps]; simp))
        (by rw [readPieces_append, hread]; rfl)
      exact hP ⟨writePieces P', by rw [← hwrite]; simp⟩

/-- Behind no word and no mask: it was so before. -/
theorem Sound.apart_read (h : Sound (Beside labels edge) [] ps) (hps : ps = P ++ S)
    (hP : Open classes.isWord (writePieces P) ∧ ¬redacted <:+ writePieces P) :
    Open classes.isWord (readPieces P) ∧ ¬redacted <:+ readPieces P :=
  ⟨open_read (h.alike.of_subset (by rw [hps]; simp)) (caseless_isWord classes)
    (not_suffix_of_masked hP.2) hP.1, h.not_suffix_read hps hP.2⟩

theorem botTokenRule_survives :
    (botTokenRule classes).Survives (Beside labels edge) where
  left _ _ _ _ h hps _ _ hleft := h.apart_read hps hleft
  rest _ _ _ _ _ _ _ _ hrest := hrest

/-! ## Userinfo -/

theorem infix_alike (h : List.Forall₂ Alike t t') (hw : ∀ c ∈ w, c ∉ "bEAR".toList)
    (hmid : w <:+: t) : w <:+: t' := by
  obtain ⟨a, b, rfl⟩ := hmid
  have hsymm : List.Forall₂ (flip Alike) t' (a ++ w ++ b) := h.flip
  have h₁ := List.forall₂_take_append _ _ _ hsymm
  have hmiddle := List.forall₂_drop_append _ _ _ h₁
  have heq := eq_of_forall₂_left hmiddle.flip hw
  rw [heq]
  exact (List.drop_suffix _ _).isInfix.trans (List.take_prefix _ _).isInfix

/-- What is written without a mask in it is as it was read. -/
theorem Masked.write (hK : Kept K) (h : AllAlike K) (hread : Masked (readPieces K)) :
    Masked (writePieces K) := by
  rcases hread with hread | hread
  · exact .inl (writePieces_mark hK h hread)
  · exact .inr (infix_alike (forall₂_alike hK h) (by decide) hread)

theorem IsUserinfo.read (hK : Kept K) (h : AllAlike K) (hwrite : IsUserinfo (writePieces K)) :
    IsUserinfo (readPieces K) := by
  have halike := forall₂_alike hK h
  refine ⟨fun hnil => hwrite.1 ?_, fun c hc => ?_⟩
  · rw [hnil] at halike
    exact List.forall₂_nil_left_iff.1 halike
  · have hall := forall_of_forall₂ (show Caseless fun c => !endsUserinfo c by decide) halike
      fun c hc => by simp [hwrite.2 c hc]
    simpa using hall c hc

/-- A character in no secret was kept. -/
theorem exists_kept {c : Char} {a b : Text} (h : readPieces ps = a ++ c :: b)
    (hc : ∀ s, .masked s ∈ ps → c ∉ s) :
    ∃ A d B, ps = A ++ .kept c d :: B ∧ readPieces A = a ∧ readPieces B = b := by
  induction ps generalizing a with
  | nil => simp at h
  | cons p ps ih =>
      have hrest := fun s hs => hc s (.tail _ hs)
      cases p with
      | kept e d =>
          cases a with
          | nil =>
              obtain ⟨rfl, htail⟩ := List.cons.inj h
              exact ⟨[], d, ps, rfl, rfl, htail⟩
          | cons f a =>
              obtain ⟨rfl, htail⟩ := List.cons.inj h
              obtain ⟨A, d', B, rfl, rfl, rfl⟩ := ih htail hrest
              exact ⟨.kept e d :: A, d', B, rfl, rfl, rfl⟩
      | masked s =>
          rw [readPieces_masked] at h
          rcases List.append_eq_append_iff.1 h with ⟨r, rfl, hr⟩ | ⟨r, rfl, hr⟩
          · obtain ⟨A, d, B, rfl, rfl, rfl⟩ := ih hr hrest
            exact ⟨.masked s :: A, d, B, rfl, rfl, rfl⟩
          · cases r with
            | nil =>
                obtain ⟨A, d, B, rfl, hA, rfl⟩ := ih (a := []) hr.symm hrest
                refine ⟨.masked (a ++ []) :: A, d, B, rfl, ?_, rfl⟩
                rw [readPieces_masked, hA, List.append_nil, List.append_nil]
            | cons e r =>
                obtain ⟨rfl, -⟩ := List.cons.inj hr
                exact absurd (by simp) (hc _ (.head _))

/-- Pieces are all kept, or there is a first secret in them. -/
theorem kept_or_masked (ps : List Piece) : Kept ps ∨ ∃ A s B, ps = A ++ .masked s :: B := by
  induction ps with
  | nil => exact .inl fun p hp => (by cases hp)
  | cons p ps ih =>
      cases p with
      | masked s => exact .inr ⟨[], s, ps, rfl⟩
      | kept c d =>
          rcases ih with hkept | ⟨A, s, B, rfl⟩
          · refine .inl fun q hq => ?_
            rcases List.mem_cons.1 hq with rfl | hq
            · exact ⟨c, d, rfl⟩
            · exact hkept q hq
          · exact .inr ⟨.kept c d :: A, s, B, rfl⟩

/-- The rule for userinfo, from the pieces before the `@`. -/
theorem userinfo_rest (h : Sound beside [] ps) (hps : ps = P ++ S)
    (hkept : ∀ S₁ S₂, S = S₁ ++ .kept '@' '@' :: S₂ → Kept S₁ → IsUserinfo (readPieces S₁) →
      Masked (readPieces S₁))
    (hmask : ∀ A s B S₂, S = A ++ .masked s :: (B ++ .kept '@' '@' :: S₂) →
      IsUserinfo (writePieces (A ++ .masked s :: B)) →
        Masked (writePieces (A ++ .masked s :: B))) :
    ∀ info v, writePieces S = info ++ '@' :: v → IsUserinfo info → Masked info := by
  intro info v hinfo huser
  obtain ⟨S₁, K, S₂, hS, hK, rfl, hwrite, -⟩ := aligned (t := ['@']) (by decide) (by decide) hinfo
  have hsub : S ⊆ ps := by rw [hps]; simp
  have hat : K = [.kept '@' '@'] := by
    obtain ⟨p, K, rfl⟩ := List.exists_cons_of_ne_nil (l := K) (by rintro rfl; cases hwrite)
    obtain ⟨c, d, rfl⟩ := hK _ (.head _)
    obtain ⟨rfl, hnil⟩ := List.cons.inj hwrite
    obtain rfl := eq_of_alike_right (h.alike c '@' (hsub (by rw [hS]; simp))) (by decide)
    cases K with
    | nil => rfl
    | cons q K => exact absurd hnil writePieces_ne_nil
  subst hat
  have halike : AllAlike S₁ := h.alike.of_subset (List.Subset.trans (by rw [hS]; simp) hsub)
  rcases kept_or_masked S₁ with hS₁ | ⟨A, s, B, rfl⟩
  · exact (hkept S₁ S₂ hS hS₁ (huser.read hS₁ halike)).write hS₁ halike
  · exact hmask A s B S₂ (by rw [hS]; simp) huser

/-- A scheme ends with its slashes. -/
theorem IsScheme.getLast? {u : Text} (h : IsScheme t) : (u ++ t).getLast? = some '/' := by
  obtain ⟨c, a, rfl, -, -⟩ := h
  have hsplit : u ++ c :: (a ++ [':', '/', '/']) = (u ++ c :: (a ++ [':', '/'])) ++ ['/'] := by
    simp
  rw [hsplit, List.getLast?_concat]

/-- Before the `@` comes no secret that a blank ends. -/
theorem userinfoRule_survives_word : (userinfoRule classes).Survives WordBeside where
  left _ _ _ _ h hps _ _ hleft := (h.mono fun _ _ _ hb => hb.toBeside).apart_read hps hleft
  rest ps P K S h hps _ _ hrest := by
    refine userinfo_rest (P := P ++ K) h (by rw [hps, List.append_assoc]) ?_ ?_
    · rintro S₁ S₂ rfl - huser
      exact hrest _ _ readPieces_append huser
    · rintro A s B S₂ rfl huser
      exfalso
      rw [← List.append_assoc, ← List.append_assoc] at hps
      have hends := (h.beside _ s _ hps).ends
      have hword : ∀ c ∈ writePieces (A ++ .masked s :: B), isSpace c = false := by
        intro c hc
        have hnot := huser.2 c hc
        rw [endsUserinfo, Bool.or_eq_false_iff, Bool.or_eq_false_iff] at hnot
        exact hnot.1.1
      cases B with
      | nil => exact absurd (hends '@' rfl) (by decide)
      | cons q B =>
          cases q with
          | kept c d =>
              have hd := hword d (by simp)
              rw [← isSpace_alike (h.alike c d (by rw [hps]; simp)), hends c rfl] at hd
              cases hd
          | masked s' =>
              have hmem : .masked s' ∈ ps := by rw [hps]; simp
              obtain ⟨c, s', rfl⟩ := List.exists_cons_of_ne_nil (h.ne s' hmem)
              have hc := h.word _ hmem c (.head _)
              rw [hends c rfl] at hc
              cases hc

/-- Userinfo in which a query is masked now. -/
theorem userinfoRule_survives_query : (userinfoRule classes).Survives QueryBeside where
  left _ _ _ _ h hps _ _ hleft := (h.mono fun _ _ _ hb => hb.toBeside).apart_read hps hleft
  rest ps P K S h hps _ hbody hrest := by
    refine userinfo_rest (P := P ++ K) h (by rw [hps, List.append_assoc]) ?_ ?_
    · rintro S₁ S₂ rfl - huser
      exact hrest _ _ readPieces_append huser
    · rintro A s B S₂ rfl huser
      rw [← List.append_assoc, ← List.append_assoc] at hps
      have hbeside := h.beside _ s _ hps
      have hmark := hbeside.mark
      rcases List.eq_nil_or_concat' A with rfl | ⟨A, q, rfl⟩
      · -- before the secret stands the end of the scheme
        rw [List.append_nil, readPieces_append, List.nil_append,
          IsScheme.getLast? hbody] at hmark
        cases hmark
      · cases q with
        | kept c d =>
            obtain rfl : c = '?' := by simpa using hmark
            obtain rfl := eq_of_alike_left (h.alike '?' d (by rw [hps]; simp)) (by decide)
            exact .inr ⟨writePieces A, writePieces B, by simp⟩
        | masked s' =>
            -- a query ends where the next one starts
            exfalso
            have hps' : ps = P ++ K ++ A ++ .masked s' ::
                (.masked s :: (B ++ .kept '@' '@' :: S₂)) := by
              rw [hps]
              simp
            obtain ⟨c, s, rfl⟩ := List.exists_cons_of_ne_nil (h.ne s (by rw [hps]; simp))
            have hc := hbeside.first c rfl
            rw [(h.beside _ s' _ hps').ends c rfl] at hc
            cases hc

theorem not_isSpace_of_isKeyChar {c : Char} (h : isKeyChar c = true) : isSpace c = false := by
  by_contra hspace
  simp only [isKeyChar, isAlnum, isNumber, isCapital, isSmall, isSpace, Bool.or_eq_true,
    decide_eq_true_eq, Bool.not_eq_false] at h hspace
  rcases h with (h | rfl) | rfl
  · omega
  · revert hspace
    decide
  · revert hspace
    decide

theorem not_isStop_of_isKeyChar {c : Char} (h : isKeyChar c = true) : isStop c = false := by
  by_contra hstop
  simp only [isStop, Bool.or_eq_true, decide_eq_true_eq, Bool.not_eq_false] at hstop
  rcases hstop with (((((hspace | rfl) | rfl) | rfl) | rfl) | rfl) | rfl
  · rw [not_isSpace_of_isKeyChar h] at hspace
    cases hspace
  all_goals exact absurd h (by decide)

theorem not_endsUserinfo_of_isKeyChar {c : Char} (h : isKeyChar c = true) :
    endsUserinfo c = false := by
  by_contra hends
  simp only [endsUserinfo, Bool.or_eq_true, decide_eq_true_eq, Bool.not_eq_false] at hends
  rcases hends with (hspace | rfl) | rfl
  · rw [not_isSpace_of_isKeyChar h] at hspace
    cases hspace
  all_goals exact absurd h (by decide)

theorem Sound.run (h : Sound (RunBeside edge) [] ps) :
    ∀ s, .masked s ∈ ps → ∀ c ∈ s, isKeyChar c = true := by
  intro s hmem c hc
  obtain ⟨P, S, hps⟩ := List.append_of_mem hmem
  exact (h.beside P s S hps).run c hc

/-- Userinfo is still userinfo before its runs are masked. -/
theorem Sound.userinfo_read (h : Sound (RunBeside edge) [] ps) (hsub : K ⊆ ps)
    (huser : IsUserinfo (writePieces K)) : IsUserinfo (readPieces K) := by
  constructor
  · obtain ⟨p, K, rfl⟩ := List.exists_cons_of_ne_nil (l := K) (by
      rintro rfl
      exact huser.1 rfl)
    cases p with
    | kept c d => exact List.cons_ne_nil _ _
    | masked s => exact List.append_ne_nil_of_left_ne_nil (h.ne s (hsub (.head _))) _
  · intro c hc
    obtain ⟨p, hp, hc⟩ := List.mem_flatMap.1 hc
    cases p with
    | kept e d =>
        obtain rfl := List.mem_singleton.1 hc
        have hd := huser.2 d (List.mem_flatMap.2 ⟨_, hp, .head _⟩)
        have hcase : Caseless endsUserinfo := by decide
        rwa [hcase.eq (h.alike c d (hsub hp))]
    | masked s => exact not_endsUserinfo_of_isKeyChar (h.run s (hsub hp) c hc)

/-- A mask with a secret in it is none. -/
theorem Sound.not_redacted_read (h : Sound (RunBeside edge) [] ps) {s : Text}
    (hps : ps = P ++ (A ++ .masked s :: (B ++ S))) :
    readPieces (A ++ .masked s :: B) ≠ redacted := by
  intro hread
  rw [readPieces_append, readPieces_masked] at hread
  rw [← List.append_assoc] at hps
  have hmem : .masked s ∈ ps := by rw [hps]; simp
  obtain ⟨c, s', rfl⟩ := List.exists_cons_of_ne_nil (h.ne s hmem)
  by_cases hA : readPieces A = []
  · rw [hA] at hread
    obtain ⟨rfl, -⟩ := List.cons.inj hread
    exact absurd (h.run _ hmem '[' (.head _)) (by decide)
  · refine (h.beside _ _ _ hps).opened (readPieces A) (c :: s' ++ readPieces B) (readPieces S)
      (hread ▸ isMark_redacted) hA (by simp) ⟨readPieces P, by simp⟩ ?_
    rw [readPieces_append, List.append_assoc]

/-- A masked query is kept. -/
theorem Sound.kept_query (h : Sound (RunBeside edge) [] ps) (hps : ps = P ++ (K ++ S))
    (hread : '?' :: redacted <:+: readPieces K) : '?' :: redacted <:+: writePieces K := by
  have hsound := h.mono fun _ _ _ hb => hb.toBeside
  have hsub : K ⊆ ps := by rw [hps]; simp
  obtain ⟨a, b, hab⟩ := hread
  rw [List.append_assoc] at hab
  obtain ⟨A, d, B, rfl, rfl, hB⟩ := exists_kept hab.symm fun s hs hmem =>
    absurd (h.run s (hsub hs) '?' hmem) (by decide)
  obtain rfl := eq_of_alike_left (h.alike '?' d (hsub (by simp))) (by decide)
  cases B with
  | nil => cases hB
  | cons p B =>
      cases p with
      | masked s =>
          have hmem : .masked s ∈ ps := hsub (by simp)
          obtain ⟨c, s', rfl⟩ := List.exists_cons_of_ne_nil (h.ne s hmem)
          obtain ⟨rfl, -⟩ := List.cons.inj hB
          exact absurd (h.run _ hmem '[' (.head _)) (by decide)
      | kept c e =>
          have hps' : ps = P ++ A ++ [.kept '?' '?'] ++ .kept c e :: (B ++ S) := by
            rw [hps]
            simp
          obtain ⟨M, S', hM, hkept, hmark, -⟩ := hsound.kept_mark_cons (m := redacted)
            (v := b ++ readPieces S) hps' isMark_redacted (by
              rw [readPieces_append, ← List.append_assoc]
              exact congrArg (· ++ readPieces S) hB)
          have hwrite := writePieces_mark hkept
            (h.alike.of_subset fun q hq => by rw [hps', hM]; simp [hq]) hmark
          -- the mask ends before the pieces that follow
          have hstart : redacted <+: writePieces (.kept c e :: B) := by
            rcases List.append_eq_append_iff.1 (hM.symm.trans (List.cons_append ..).symm) with
              ⟨r, hr, -⟩ | ⟨r, rfl, -⟩
            · exact ⟨writePieces r, by rw [hr, writePieces_append, hwrite]⟩
            · have hnil : readPieces r = [] := by
                have hlength := congrArg List.length hmark
                have hlonger := congrArg List.length hB
                rw [readPieces_append, List.length_append] at hlength
                change _ = (redacted ++ b).length at hlonger
                rw [List.length_append] at hlonger
                exact List.length_eq_zero_iff.1 (by omega)
              cases r with
              | nil => rw [← hwrite, List.append_nil]
              | cons q r =>
                  obtain ⟨f, g, rfl⟩ := hkept q (by simp)
                  cases hnil
          obtain ⟨w, hw⟩ := hstart
          exact ⟨writePieces A, w, by
            rw [writePieces_append, writePieces_kept, ← hw, List.append_assoc]; rfl⟩

/-- A run of key characters was userinfo before it was masked. -/
theorem userinfoRule_survives_run : (userinfoRule classes).Survives (RunBeside edge) where
  left _ _ _ _ h hps _ _ hleft := (h.mono fun _ _ _ hb => hb.toBeside).apart_read hps hleft
  rest ps P K S h hps _ hbody hrest := by
    refine userinfo_rest (P := P ++ K) h (by rw [hps, List.append_assoc]) ?_ ?_
    · rintro S₁ S₂ rfl - huser
      exact hrest _ _ readPieces_append huser
    · rintro A s B S₂ rfl huser
      have hps' : ps = P ++ K ++ (A ++ .masked s :: B ++ .kept '@' '@' :: S₂) := by
        rw [hps]
        simp
      have huser' := h.userinfo_read (fun q hq => by
        rw [hps']
        exact List.mem_append_right _ (List.mem_append_left _ hq)) huser
      rcases hrest _ (readPieces S₂) (by simp) huser' with hread | hread
      · exact absurd hread (h.not_redacted_read (by rw [hps, ← List.append_assoc]))
      · exact .inr (h.kept_query hps' hread)

/-- The text from the slashes to the `@` is one mask, if there is a mask in it. -/
theorem Sound.userinfo_masked (h : Sound UserinfoBeside [] ps) {s : Text}
    (hps : ps = P ++ (A ++ .masked s :: (B ++ .kept '@' '@' :: S)))
    (huser : IsUserinfo (writePieces (A ++ .masked s :: B))) :
    Masked (writePieces (A ++ .masked s :: B)) := by
  have hsub : A ++ .masked s :: (B ++ .kept '@' '@' :: S) ⊆ ps := by rw [hps]; simp
  rw [← List.append_assoc] at hps
  have hbeside := h.beside _ s _ hps
  have hno : ∀ c d, .kept c d ∈ A ++ .masked s :: B → c ∉ "bEAR".toList →
      endsUserinfo c = false := by
    intro c d hmem hc
    obtain rfl := eq_of_alike_left (h.alike c d (hsub (by
      rw [← List.cons_append, ← List.append_assoc]
      exact List.mem_append_left _ hmem))) hc
    exact huser.2 c (List.mem_flatMap.2 ⟨_, hmem, .head _⟩)
  -- the secret starts behind the slashes, and ends at the `@`
  have hA : A = [] := by
    rcases List.eq_nil_or_concat' A with rfl | ⟨A, q, rfl⟩
    · rfl
    cases q with
    | kept c d =>
        obtain rfl : c = '/' := by simpa using hbeside.slash
        exact absurd (hno '/' d (by simp) (by decide)) (by decide)
    | masked s' =>
        have hps' : ps = P ++ A ++ .masked s' :: (.masked s :: (B ++ .kept '@' '@' :: S)) := by
          rw [hps]
          simp
        have hat := (h.beside _ s' _ hps').at_sign
        obtain ⟨c, s, rfl⟩ := List.exists_cons_of_ne_nil (h.ne s (hsub (by simp)))
        obtain rfl := Option.some.inj hat
        exact absurd (hbeside.word '@' (.head _)) (by decide)
  have hB : B = [] := by
    have hat := hbeside.at_sign
    cases B with
    | nil => rfl
    | cons q B =>
        cases q with
        | kept c d =>
            obtain rfl := Option.some.inj hat
            exact absurd (hno '@' d (by simp) (by decide)) (by decide)
        | masked s' =>
            have hmem : .masked s' ∈ ps := hsub (by simp)
            obtain ⟨P', S', hps'⟩ := List.append_of_mem hmem
            obtain ⟨c, s', rfl⟩ := List.exists_cons_of_ne_nil (h.ne s' hmem)
            obtain rfl := Option.some.inj hat
            exact absurd ((h.beside P' _ S' hps').word '@' (.head _)) (by decide)
  rw [hA, hB]
  exact .inl rfl

end Cortex.Redaction
