import Cortex.Redaction.Pieces

/-!
# Substitutions by pieces

A match of a pattern is a label, a secret and a tail: the label is written anew, and the
secret is masked.  `Masks.exists_pieces` cuts a whole line into pieces, and says of every
kept part of it either that the pattern finds nothing there, or that it is in a label.
-/

namespace Cortex.Redaction

open PyText Regex

/-- One text written over another one of the same length. -/
def relabel (l l' : Text) : List Piece := List.zipWith .kept l l'

/-- The pieces of a token. -/
def tokenPieces (label : Found Char → Text) (tail : Text) : Token Char → List Piece
  | .copied c => [.kept c c]
  | .found f =>
      let rest := f.text.drop (label f).length
      relabel (f.text.take (label f).length) (label f) ++
        .masked (rest.take (rest.length - tail.length)) :: relabel tail tail

/-- A substitution masks secrets that stand where they may. -/
structure Masks (beside : Text → Text → Text → Prop) (p : Pattern Char)
    (template : List (Slot Char)) (label : Found Char → Text) (tail : Text) : Prop where
  progress : Progress p
  of_find : ∀ u f v, Spaced (u ++ (f.text ++ v)) → find p u (f.text ++ v) = some f →
    ∃ l s, f.text = l ++ (s ++ tail) ∧ List.Forall₂ Alike l (label f) ∧
      expand template f = label f ++ (redacted ++ tail) ∧ s ≠ [] ∧
      (∀ c ∈ s, isSpace c = false) ∧ beside (u ++ l) s (tail ++ v)

/-- A kept part of a line that is in the label of a match. -/
structure InLabel (p : Pattern Char) (label : Found Char → Text) (tail : Text)
    (P K S : List Piece) (u l₁ l₂ s : Text) (f : Found Char) (L R : List Piece) : Prop where
  finds : find p u (f.text ++ readPieces R) = some f
  text : f.text = (l₁ ++ (readPieces K ++ l₂)) ++ (s ++ tail)
  label : List.Forall₂ Alike (l₁ ++ (readPieces K ++ l₂)) (label f)
  before : readPieces P = u ++ l₁
  after : S = L ++ .masked s :: (relabel tail tail ++ R)
  kept : Kept L
  read : readPieces L = l₂

variable {beside beside' : Text → Text → Text → Prop} {p : Pattern Char}
  {template : List (Slot Char)} {label : Found Char → Text} {tail l l' u x : Text}
  {ps : List Piece}

theorem Masks.mono (h : Masks beside p template label tail)
    (himp : ∀ u s v, beside u s v → beside' u s v) : Masks beside' p template label tail where
  progress := h.progress
  of_find u f v hx hfind := by
    obtain ⟨l, s, htext, hlabel, hwrite, hne, hword, hbeside⟩ := h.of_find u f v hx hfind
    exact ⟨l, s, htext, hlabel, hwrite, hne, hword, himp _ _ _ hbeside⟩

theorem Sound.mono (h : Sound beside u ps) (himp : ∀ u s v, beside u s v → beside' u s v) :
    Sound beside' u ps where
  alike := h.alike
  ne := h.ne
  word := h.word
  beside P s S hps := himp _ _ _ (h.beside P s S hps)

/-! ## Labels -/

theorem readPieces_relabel (h : List.Forall₂ Alike l l') : readPieces (relabel l l') = l := by
  induction h with
  | nil => rfl
  | cons _ _ ih => exact congrArg (List.cons _) ih

theorem writePieces_relabel (h : List.Forall₂ Alike l l') : writePieces (relabel l l') = l' := by
  induction h with
  | nil => rfl
  | cons _ _ ih => exact congrArg (List.cons _) ih

theorem forall₂_alike_refl (t : Text) : List.Forall₂ Alike t t :=
  List.forall₂_same.2 fun _ _ => .inl rfl

theorem kept_relabel (l l' : Text) : Kept (relabel l l') := by
  induction l generalizing l' with
  | nil =>
      intro p hp
      cases hp
  | cons c l ih =>
      cases l' with
      | nil =>
          intro p hp
          cases hp
      | cons d l' =>
          intro p hp
          rcases List.mem_cons.1 hp with rfl | hp
          · exact ⟨c, d, rfl⟩
          · exact ih l' p hp

/-- The pieces of a match. -/
theorem tokenPieces_found {f : Found Char} {s : Text} (htext : f.text = l ++ (s ++ tail))
    (hlabel : List.Forall₂ Alike l (label f)) :
    tokenPieces label tail (.found f) =
      relabel l (label f) ++ .masked s :: relabel tail tail := by
  have hlength := hlabel.length_eq
  rw [tokenPieces, htext, ← hlength, List.take_left, List.drop_left, List.length_append,
    Nat.add_sub_cancel, List.take_left]

/-! ## Sound pieces -/

theorem sound_nil (u : Text) : Sound beside u [] where
  alike c d h := by cases h
  ne s h := by cases h
  word s h := by cases h
  beside P s S h := by simp at h

theorem Sound.kept {c d : Char} (h : Sound beside (u ++ [c]) ps) (hcd : Alike c d) :
    Sound beside u (.kept c d :: ps) where
  alike a b hmem := by
    rcases List.mem_cons.1 hmem with heq | hmem
    · obtain ⟨rfl, rfl⟩ := Piece.kept.inj heq
      exact hcd
    · exact h.alike a b hmem
  ne s hmem := by
    rcases List.mem_cons.1 hmem with heq | hmem
    · cases heq
    · exact h.ne s hmem
  word s hmem := by
    rcases List.mem_cons.1 hmem with heq | hmem
    · cases heq
    · exact h.word s hmem
  beside P s S hps := by
    cases P with
    | nil => cases (List.cons.inj hps).1
    | cons q P =>
        obtain ⟨rfl, rfl⟩ := List.cons.inj hps
        have hbeside := h.beside P s S rfl
        rwa [List.append_assoc] at hbeside

theorem Sound.masked {s : Text} (h : Sound beside (u ++ s) ps) (hne : s ≠ [])
    (hword : ∀ c ∈ s, isSpace c = false) (hbeside : beside u s (readPieces ps)) :
    Sound beside u (.masked s :: ps) where
  alike a b hmem := by
    rcases List.mem_cons.1 hmem with heq | hmem
    · cases heq
    · exact h.alike a b hmem
  ne t hmem := by
    rcases List.mem_cons.1 hmem with heq | hmem
    · obtain rfl := Piece.masked.inj heq
      exact hne
    · exact h.ne t hmem
  word t hmem := by
    rcases List.mem_cons.1 hmem with heq | hmem
    · obtain rfl := Piece.masked.inj heq
      exact hword
    · exact h.word t hmem
  beside P t S hps := by
    cases P with
    | nil =>
        obtain ⟨heq, rfl⟩ := List.cons.inj hps
        obtain rfl := Piece.masked.inj heq
        rwa [readPieces_nil, List.append_nil]
    | cons q P =>
        obtain ⟨rfl, rfl⟩ := List.cons.inj hps
        have hrest := h.beside P t S rfl
        rwa [List.append_assoc] at hrest

theorem Sound.relabel (hl : List.Forall₂ Alike l l') (h : Sound beside (u ++ l) ps) :
    Sound beside u (relabel l l' ++ ps) := by
  induction hl generalizing u with
  | nil => rwa [List.append_nil] at h
  | cons hcd hl ih => exact .kept (ih (by rwa [List.append_assoc])) hcd

/-- The tokens of a pattern, cut into pieces. -/
theorem Masks.sound (h : Masks beside p template label tail) {T : List (Token Char)}
    (hT : Traced p u T) (hx : Spaced (u ++ readAll T)) :
    readPieces (T.flatMap (tokenPieces label tail)) = readAll T ∧
      writePieces (T.flatMap (tokenPieces label tail)) = T.flatMap (Token.write template) ∧
        Sound beside u (T.flatMap (tokenPieces label tail)) := by
  induction hT with
  | nil u => exact ⟨rfl, rfl, sound_nil u⟩
  | copied hfind hrest ih =>
      obtain ⟨hread, hwrite, hsound⟩ := ih (by rw [List.append_assoc]; exact hx)
      refine ⟨congrArg (List.cons _) hread, congrArg (List.cons _) hwrite, .kept hsound (.inl rfl)⟩
  | @found u f T hfind hrest ih =>
      obtain ⟨hread, hwrite, hsound⟩ := ih (by rw [List.append_assoc]; exact hx)
      obtain ⟨l, s, htext, hlabel, hexpand, hne, hword, hbeside⟩ := h.of_find u f _ hx hfind
      have hpieces : (Token.found f :: T).flatMap (tokenPieces label tail) =
          Redaction.relabel l (label f) ++ (.masked s :: (Redaction.relabel tail tail ++
            T.flatMap (tokenPieces label tail))) := by
        rw [List.flatMap_cons, tokenPieces_found htext hlabel, List.append_assoc]
        rfl
      have htail := forall₂_alike_refl tail
      rw [hpieces]
      refine ⟨?_, ?_, .relabel hlabel (.masked (.relabel htail ?_) hne hword ?_)⟩
      · rw [readPieces_append, readPieces_masked, readPieces_append, readPieces_relabel hlabel,
          readPieces_relabel htail, hread]
        show _ = f.text ++ readAll T
        rw [htext, List.append_assoc, List.append_assoc]
      · rw [writePieces_append, writePieces_masked, writePieces_append,
          writePieces_relabel hlabel, writePieces_relabel htail, hwrite, List.flatMap_cons]
        show _ = expand template f ++ _
        rw [hexpand, List.append_assoc, List.append_assoc]
      · rw [htext] at hsound
        simpa only [List.append_assoc] using hsound
      · rwa [readPieces_append, readPieces_relabel htail, hread]

/-! ## Where a part of a line comes from -/

theorem exists_split {α β : Type*} {f : α → List β} {T : List α} {P S : List β}
    (h : T.flatMap f = P ++ S) (hS : S ≠ []) :
    ∃ T₁ token T₂ C₁ C₂, T = T₁ ++ token :: T₂ ∧ f token = C₁ ++ C₂ ∧ C₂ ≠ [] ∧
      P = T₁.flatMap f ++ C₁ ∧ S = C₂ ++ T₂.flatMap f := by
  induction T generalizing P with
  | nil => exact absurd (List.append_eq_nil_iff.1 h.symm).2 hS
  | cons token T ih =>
      rw [List.flatMap_cons] at h
      rcases List.append_eq_append_iff.1 h with ⟨r, rfl, hrest⟩ | ⟨r, hr, hrest⟩
      · obtain ⟨T₁, token', T₂, C₁, C₂, rfl, hf, hC, rfl, hS⟩ := ih hrest
        exact ⟨token :: T₁, token', T₂, C₁, C₂, rfl, hf, hC, by simp, hS⟩
      · by_cases hr' : r = []
        · subst hr'
          obtain ⟨T₁, token', T₂, C₁, C₂, rfl, hf, hC, hP, hS⟩ := ih (P := []) hrest.symm
          refine ⟨token :: T₁, token', T₂, C₁, C₂, rfl, hf, hC, ?_, hS⟩
          rw [List.append_nil] at hr
          rw [← hr, List.flatMap_cons, List.append_assoc, ← hP, List.append_nil]
        · exact ⟨[], token, T, P, r, rfl, hr, hr', rfl, hrest⟩

/-- Kept pieces end before a secret. -/
theorem kept_of_append {A K S ps : List Piece} {s : Text} (h : A ++ .masked s :: ps = K ++ S)
    (hK : Kept K) : ∃ L, A = K ++ L ∧ S = L ++ .masked s :: ps := by
  rcases List.append_eq_append_iff.1 h with ⟨r, rfl, hr⟩ | ⟨r, hr, hS⟩
  · cases r with
    | nil => exact ⟨[], by simp, by simpa using hr.symm⟩
    | cons q r =>
        obtain ⟨rfl, -⟩ := List.cons.inj hr
        obtain ⟨c, d, hq⟩ := hK _ (List.mem_append_right A (.head _))
        cases hq
  · exact ⟨r, hr, hS⟩

theorem Masks.read_token (h : Masks beside p template label tail) {T : List (Token Char)}
    (hT : Traced p u T) (hx : Spaced (u ++ readAll T)) :
    ∀ token ∈ T, readPieces (tokenPieces label tail token) = token.read := by
  induction hT with
  | nil u =>
      intro token hmem
      cases hmem
  | copied hfind hrest ih =>
      intro token hmem
      rcases List.mem_cons.1 hmem with rfl | hmem
      · rfl
      · exact ih (by rw [List.append_assoc]; exact hx) token hmem
  | found hfind hrest ih =>
      intro token hmem
      rcases List.mem_cons.1 hmem with rfl | hmem
      · obtain ⟨l, s, htext, hlabel, -⟩ := h.of_find _ _ _ hx hfind
        rw [tokenPieces_found htext hlabel, readPieces_append, readPieces_relabel hlabel,
          readPieces_masked]
        show l ++ (s ++ readPieces (relabel tail tail)) = _
        rw [readPieces_relabel (forall₂_alike_refl tail)]
        exact htext.symm
      · exact ih (by rw [List.append_assoc]; exact hx) token hmem

/-- The pieces of a line: a kept part is where nothing is found, in a label, or it starts
in a tail. -/
theorem Masks.exists_pieces (h : Masks beside p template label tail) (hx : Spaced x) :
    ∃ ps, Sound beside [] ps ∧ readPieces ps = x ∧ writePieces ps = sub p template x ∧
      ∀ P K S, ps = P ++ (K ++ S) → Kept K → K ≠ [] →
        find p (readPieces P) (readPieces K ++ readPieces S) = none ∨
          (∃ u l₁ l₂ s f L R, InLabel p label tail P K S u l₁ l₂ s f L R) ∨
          ∃ c ∈ tail, (readPieces K).head? = some c := by
  obtain ⟨hT, hread⟩ := scan_traced h.progress [] x
  have hspaced : Spaced ([] ++ readAll (scan p [] 0 x)) := by rwa [hread]
  obtain ⟨hpieces, hwrite, hsound⟩ := h.sound hT hspaced
  refine ⟨_, hsound, hpieces.trans hread, hwrite, fun P K S hps hK hne => ?_⟩
  have hKS : K ++ S ≠ [] := List.append_ne_nil_of_left_ne_nil hne S
  obtain ⟨T₁, token, T₂, C₁, C₂, hsplit, htoken, hC, rfl, hS⟩ := exists_split hps hKS
  have hreads := h.read_token hT hspaced
  rw [hsplit] at hT hspaced hreads
  -- the tokens before this one, and those after it
  have hbefore : readPieces (T₁.flatMap (tokenPieces label tail)) = readAll T₁ := by
    rw [readPieces, List.flatMap_assoc]
    exact List.flatMap_congr fun t ht => hreads t (List.mem_append_left _ ht)
  have hdrop := hT.drop
  rw [List.nil_append] at hdrop hspaced
  rw [readAll_append] at hspaced
  have hafter : readPieces (T₂.flatMap (tokenPieces label tail)) = readAll T₂ := by
    rw [readPieces, List.flatMap_assoc]
    exact List.flatMap_congr fun t ht => hreads t (List.mem_append_right _ (.tail _ ht))
  cases hdrop with
  | @copied _ c _ hfind hrest =>
      have hpair : C₁ = [] ∧ C₂ = [.kept c c] := by
        rcases List.singleton_eq_append_iff.1 htoken with ⟨h₁, h₂⟩ | ⟨-, h₂⟩
        · exact ⟨h₁, h₂⟩
        · exact absurd h₂ hC
      obtain ⟨rfl, rfl⟩ := hpair
      refine .inl ?_
      rw [List.append_nil, hbefore, ← readPieces_append, hS, List.singleton_append,
        readPieces_kept, hafter]
      exact hfind
  | @found _ f _ hfind hrest =>
      obtain ⟨l, s, htext, hlabel, -⟩ := h.of_find _ _ _ hspaced hfind
      rw [tokenPieces_found htext hlabel] at htoken
      rcases List.append_eq_append_iff.1 htoken with ⟨r, hr, hrest'⟩ | ⟨A, hA, hC'⟩
      · -- the part starts at the secret or after it
        cases r with
        | nil =>
            rw [List.nil_append] at hrest'
            rw [← hrest'] at hS
            obtain ⟨q, K, rfl⟩ := List.exists_cons_of_ne_nil hne
            obtain ⟨rfl, -⟩ := List.cons.inj hS
            exact absurd hK not_kept_masked
        | cons q r =>
            obtain ⟨-, hrest'⟩ := List.cons.inj hrest'
            obtain ⟨q, C₂, rfl⟩ := List.exists_cons_of_ne_nil hC
            obtain ⟨q', K, rfl⟩ := List.exists_cons_of_ne_nil hne
            obtain ⟨rfl, -⟩ := List.cons.inj hS
            obtain ⟨c, d, rfl⟩ := hK _ (.head _)
            have hmem : c ∈ tail := by
              rw [← readPieces_relabel (forall₂_alike_refl tail), hrest']
              simp
            exact .inr (.inr ⟨c, hmem, rfl⟩)
      · -- it starts in the label
        rw [hC', List.append_assoc] at hS
        obtain ⟨L, rfl, rfl⟩ := kept_of_append hS.symm hK
        have hl : l = readPieces C₁ ++ (readPieces K ++ readPieces L) := by
          rw [← readPieces_relabel hlabel, hA, readPieces_append, readPieces_append]
        refine .inr (.inl ⟨readAll T₁, readPieces C₁, _, s, f, L, _, ?_, ?_, ?_, ?_, rfl, ?_, rfl⟩)
        · rwa [hafter]
        · rw [htext, hl]
        · rwa [← hl]
        · rw [readPieces_append, hbefore]
        · intro q hq
          refine kept_relabel l (label f) q ?_
          rw [hA]
          simp [hq]

end Cortex.Redaction
