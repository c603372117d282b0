import Cortex.Redaction.Line

/-!
# Pieces of a line

A substitution keeps some characters of a line and masks secrets.  A piece says what was
read and what is written for it: `Bearer` is the one word that is written in another case.

What is written without brackets, and is no part of the mask, was kept (`aligned`).
-/

namespace Cortex.Redaction

open PyText Regex

inductive Piece
  | kept (c d : Char)
  | masked (secret : Text)

def Piece.read : Piece → Text
  | .kept c _ => [c]
  | .masked secret => secret

def Piece.write : Piece → Text
  | .kept _ d => [d]
  | .masked _ => redacted

def readPieces (ps : List Piece) : Text := ps.flatMap Piece.read

def writePieces (ps : List Piece) : Text := ps.flatMap Piece.write

/-- The letters that change their case in `Bearer`. -/
def recased : List (Char × Char) := [('b', 'B'), ('E', 'e'), ('A', 'a'), ('R', 'r')]

/-- A character and what is written for it. -/
def Alike (c d : Char) : Prop := c = d ∨ (c, d) ∈ recased

/-- No piece is a secret. -/
def Kept (K : List Piece) : Prop := ∀ p ∈ K, ∃ c d, p = .kept c d

/-- Every character is kept as it is, or in the case of `Bearer`. -/
def AllAlike (ps : List Piece) : Prop := ∀ c d, .kept c d ∈ ps → Alike c d

/-- Every secret is a word, and stands where it may. -/
structure Sound (beside : Text → Text → Text → Prop) (u : Text) (ps : List Piece) : Prop where
  alike : AllAlike ps
  ne : ∀ s, .masked s ∈ ps → s ≠ []
  word : ∀ s, .masked s ∈ ps → ∀ c ∈ s, isSpace c = false
  beside : ∀ P s S, ps = P ++ .masked s :: S → beside (u ++ readPieces P) s (readPieces S)

variable {P K S ps qs : List Piece} {a b t u v x : Text} {c d : Char}
  {beside : Text → Text → Text → Prop}

@[simp] theorem readPieces_nil : readPieces [] = [] := rfl

@[simp] theorem writePieces_nil : writePieces [] = [] := rfl

@[simp] theorem readPieces_kept : readPieces (.kept c d :: ps) = c :: readPieces ps := rfl

@[simp] theorem writePieces_kept : writePieces (.kept c d :: ps) = d :: writePieces ps := rfl

@[simp] theorem readPieces_masked {s : Text} :
    readPieces (.masked s :: ps) = s ++ readPieces ps := rfl

@[simp] theorem writePieces_masked {s : Text} :
    writePieces (.masked s :: ps) = redacted ++ writePieces ps := rfl

@[simp] theorem readPieces_append : readPieces (ps ++ qs) = readPieces ps ++ readPieces qs :=
  List.flatMap_append

@[simp] theorem writePieces_append : writePieces (ps ++ qs) = writePieces ps ++ writePieces qs :=
  List.flatMap_append

theorem Kept.tail {p : Piece} (h : Kept (p :: ps)) : Kept ps := fun q hq => h q (.tail _ hq)

theorem not_kept_masked {s : Text} : ¬Kept (.masked s :: ps) := by
  intro h
  obtain ⟨c, d, hp⟩ := h _ (.head _)
  cases hp

theorem AllAlike.of_subset (h : AllAlike ps) (hsub : qs ⊆ ps) : AllAlike qs :=
  fun c d hmem => h c d (hsub hmem)

/-- Kept pieces are read and written character by character. -/
theorem forall₂_alike (hK : Kept K) (h : AllAlike K) :
    List.Forall₂ Alike (readPieces K) (writePieces K) := by
  induction K with
  | nil => exact .nil
  | cons p K ih =>
      obtain ⟨c, d, rfl⟩ := hK p (.head _)
      exact .cons (h c d (.head _))
        (ih hK.tail (h.of_subset (List.subset_cons_self _ _)))

theorem writePieces_ne_nil {p : Piece} : writePieces (p :: ps) ≠ [] := by
  cases p with
  | kept c d => exact List.cons_ne_nil _ _
  | masked s => exact List.append_ne_nil_of_left_ne_nil (List.cons_ne_nil '[' _) _

/-! ## Classes that do not see the case -/

/-- A class with both cases of the letters of `Bearer`. -/
def Caseless (cls : Char → Bool) : Prop := ∀ p ∈ recased, cls p.1 = cls p.2

instance (cls : Char → Bool) : Decidable (Caseless cls) :=
  List.decidableBAll (fun p : Char × Char => cls p.1 = cls p.2) recased

theorem Caseless.eq {cls : Char → Bool} (h : Caseless cls) (hcd : Alike c d) : cls c = cls d := by
  rcases hcd with rfl | hcd
  · rfl
  · exact h _ hcd

theorem isSpace_alike (h : Alike c d) : isSpace c = isSpace d :=
  Caseless.eq (by decide) h

theorem fold_alike (h : Alike c d) : fold c = fold d := by
  rcases h with rfl | h
  · rfl
  · revert h
    have hall : ∀ p ∈ recased, fold p.1 = fold p.2 := by decide
    exact hall (c, d)

/-- A written character that is not of `Bearer` was read. -/
theorem eq_of_alike_right (h : Alike c d) (hd : d ∉ "Bear".toList) : c = d := by
  rcases h with rfl | h
  · rfl
  · have hall : ∀ p ∈ recased, p.2 ∈ "Bear".toList := by decide
    exact absurd (hall _ h) hd

/-- A character that is not of the other case is written as it was read. -/
theorem eq_of_alike_left (h : Alike c d) (hc : c ∉ "bEAR".toList) : c = d := by
  rcases h with rfl | h
  · rfl
  · have hall : ∀ p ∈ recased, p.1 ∈ "bEAR".toList := by decide
    exact absurd (hall _ h) hc

theorem eq_of_forall₂_right {t t' : Text} (h : List.Forall₂ Alike t t')
    (ht : ∀ d ∈ t', d ∉ "Bear".toList) : t = t' := by
  induction h with
  | nil => rfl
  | cons hcd _ ih =>
      rw [eq_of_alike_right hcd (ht _ (.head _)), ih fun d hd => ht d (.tail _ hd)]

theorem eq_of_forall₂_left {t t' : Text} (h : List.Forall₂ Alike t t')
    (ht : ∀ c ∈ t, c ∉ "bEAR".toList) : t = t' := by
  induction h with
  | nil => rfl
  | cons hcd _ ih =>
      rw [eq_of_alike_left hcd (ht _ (.head _)), ih fun d hd => ht d (.tail _ hd)]

theorem map_fold_alike {t t' : Text} (h : List.Forall₂ Alike t t') :
    t.map fold = t'.map fold := by
  induction h with
  | nil => rfl
  | cons hcd _ ih => rw [List.map_cons, List.map_cons, fold_alike hcd, ih]

/-! ## What is written was kept -/

/-- A text without a bracket that stands at the start was kept. -/
theorem aligned_start (ht : ∀ c ∈ t, c ≠ '[') (h : writePieces ps = t ++ b) :
    ∃ K S, ps = K ++ S ∧ Kept K ∧ writePieces K = t ∧ writePieces S = b := by
  induction t generalizing ps with
  | nil => exact ⟨[], ps, rfl, fun p hp => (by cases hp), rfl, h⟩
  | cons c t ih =>
      cases ps with
      | nil => cases h
      | cons p ps =>
          cases p with
          | kept d e =>
              obtain ⟨rfl, htail⟩ := List.cons.inj h
              obtain ⟨K, S, rfl, hK, rfl, hS⟩ := ih (fun c hc => ht c (.tail _ hc)) htail
              refine ⟨.kept d e :: K, S, rfl, fun p hp => ?_, rfl, hS⟩
              rcases List.mem_cons.1 hp with rfl | hp
              · exact ⟨d, e, rfl⟩
              · exact hK p hp
          | masked s =>
              obtain ⟨rfl, -⟩ := List.cons.inj h
              exact absurd rfl (ht '[' (.head _))

/-- A part of the mask that leaves out its two ends. -/
private theorem infix_of_redacted (h : redacted = a ++ (t ++ b)) (ha : a ≠ []) (hb : b ≠ []) :
    t <:+: maskWord := by
  obtain ⟨c, a, rfl⟩ := List.exists_cons_of_ne_nil ha
  obtain ⟨b, d, rfl⟩ := (List.eq_nil_or_concat' b).resolve_left hb
  have hinner : maskWord ++ [']'] = (a ++ (t ++ b)) ++ [d] := by
    rw [List.append_assoc, List.append_assoc]
    exact (List.cons.inj h).2
  exact ⟨a, b, by rw [List.append_assoc, ← (List.append_inj' hinner rfl).1]⟩

/-- The mask ends with its bracket. -/
private theorem bracket_mem (h : redacted = a ++ b) (hb : b ≠ []) : ']' ∈ b := by
  obtain ⟨b, d, rfl⟩ := (List.eq_nil_or_concat' b).resolve_left hb
  have hend : '[' :: maskWord ++ [']'] = (a ++ b) ++ [d] := by
    rw [List.append_assoc]
    exact h
  obtain rfl := (List.cons.inj (List.append_inj' hend rfl).2).1
  simp

/-- A text that is not in the mask was kept. -/
theorem aligned (ht : ∀ c ∈ t, c ≠ '[' ∧ c ≠ ']') (hmid : ¬t <:+: maskWord)
    (h : writePieces ps = a ++ (t ++ b)) :
    ∃ P K S, ps = P ++ (K ++ S) ∧ Kept K ∧ writePieces P = a ∧ writePieces K = t ∧
      writePieces S = b := by
  induction ps generalizing a with
  | nil =>
      have hnil : t = [] := by
        have h := List.append_eq_nil_iff.1 h.symm
        exact (List.append_eq_nil_iff.1 h.2).1
      exact absurd (hnil ▸ List.nil_infix) hmid
  | cons p ps ih =>
      by_cases ha : a = []
      · subst ha
        obtain ⟨K, S, hps, hK, hwK, hwS⟩ := aligned_start (fun c hc => (ht c hc).1) h
        exact ⟨[], K, S, hps, hK, rfl, hwK, hwS⟩
      have hrest : ∀ r, a = p.write ++ r → writePieces ps = r ++ (t ++ b) →
          ∃ P K S, p :: ps = P ++ (K ++ S) ∧ Kept K ∧ writePieces P = a ∧ writePieces K = t ∧
            writePieces S = b := by
        rintro r rfl hr
        obtain ⟨P, K, S, rfl, hK, rfl, hwK, hwS⟩ := ih hr
        exact ⟨p :: P, K, S, rfl, hK, rfl, hwK, hwS⟩
      cases p with
      | kept c d =>
          obtain ⟨e, r, rfl⟩ := List.exists_cons_of_ne_nil ha
          obtain ⟨rfl, htail⟩ := List.cons.inj h
          exact hrest r rfl htail
      | masked s =>
          rcases List.append_eq_append_iff.1 h with ⟨r, hr, htail⟩ | ⟨r, hr, htail⟩
          · exact hrest r hr htail
          · by_cases hr' : r = []
            · subst hr'
              rw [List.append_nil] at hr
              exact hrest [] (by rw [← hr, List.append_nil]) htail.symm
            -- the text would start in the mask, and end there or go on after it
            exfalso
            rcases List.append_eq_append_iff.1 htail with ⟨m, hm, -⟩ | ⟨m, hm, -⟩
            · by_cases hm' : m = []
              · rw [hm', List.append_nil] at hm
                exact (ht _ (hm ▸ bracket_mem hr hr')).2 rfl
              · rw [hm] at hr
                exact hmid (infix_of_redacted hr ha hm')
            · exact (ht _ (hm ▸ List.mem_append_left m (bracket_mem hr hr'))).2 rfl

/-! ## Lines of pieces -/

/-- The characters of the mask are no white space. -/
theorem not_isSpace_of_mem_redacted : ∀ c ∈ redacted, isSpace c = false := by decide

private theorem blank_of_alike (h : Alike c ' ') : c = ' ' := eq_of_alike_right h (by decide)

private theorem blank_of_alike' (h : Alike ' ' d) : d = ' ' :=
  (eq_of_alike_left h (by decide)).symm

/-- White space is neither masked nor written. -/
theorem Sound.spaced (h : Sound beside u ps) (hx : Spaced (readPieces ps)) :
    Spaced (writePieces ps) where
  blank d hd hspace := by
    obtain ⟨p, hp, hd⟩ := List.mem_flatMap.1 hd
    cases p with
    | kept c e =>
        obtain rfl := List.mem_singleton.1 hd
        have hcd := h.alike c d hp
        have hc := hx.blank c (List.mem_flatMap.2 ⟨_, hp, .head _⟩) (by rwa [isSpace_alike hcd])
        exact blank_of_alike' (hc ▸ hcd)
    | masked s =>
        rw [not_isSpace_of_mem_redacted d hd] at hspace
        cases hspace
  single := by
    rintro ⟨a, b, hab⟩
    rw [List.append_assoc] at hab
    obtain ⟨P, K, S, rfl, hK, -, hwrite, -⟩ := aligned (by decide) (by decide) hab.symm
    have halike := forall₂_alike hK (h.alike.of_subset (by simp))
    have hread : readPieces K = [' ', ' '] := by
      rw [← hwrite]
      exact eq_of_forall₂_right halike (by rw [hwrite]; decide)
    exact hx.single ⟨readPieces P, readPieces S, by simp [← hread]⟩

/-- A line with its secrets masked is a line. -/
theorem Sound.isLine (h : Sound beside u ps) (hx : IsLine (readPieces ps)) :
    IsLine (writePieces ps) where
  toSpaced := h.spaced hx.toSpaced
  head hhead := by
    cases ps with
    | nil => cases hhead
    | cons p ps =>
        cases p with
        | kept c d =>
            obtain rfl := Option.some.inj hhead
            obtain rfl := blank_of_alike (h.alike c ' ' (.head _))
            exact hx.head rfl
        | masked s => exact absurd (Option.some.inj hhead) (by decide)
  last hlast := by
    rcases List.eq_nil_or_concat' ps with rfl | ⟨ps, p, rfl⟩
    · cases hlast
    · rw [writePieces_append] at hlast
      cases p with
      | kept c d =>
          have hd : d = ' ' := by simpa using hlast
          subst hd
          obtain rfl := blank_of_alike (h.alike c ' ' (by simp))
          exact hx.last (by simp)
      | masked s =>
          rw [List.getLast?_append_of_ne_nil _ writePieces_ne_nil] at hlast
          exact absurd (Option.some.inj hlast) (by decide)

/-- No blank is masked, and none is written. -/
theorem Sound.count_blank (h : Sound beside u ps) :
    (writePieces ps).count ' ' = (readPieces ps).count ' ' := by
  have hcount : ∀ qs ⊆ ps, (writePieces qs).count ' ' = (readPieces qs).count ' ' := by
    intro qs hqs
    induction qs with
    | nil => rfl
    | cons p qs ih =>
        have hrest := ih fun q hq => hqs (.tail _ hq)
        cases p with
        | kept c d =>
            have hcd := h.alike c d (hqs (.head _))
            rw [readPieces_kept, writePieces_kept, List.count_cons, List.count_cons, hrest]
            have hiff : d = ' ' ↔ c = ' ' :=
              ⟨fun hd => blank_of_alike (hd ▸ hcd), fun hc => blank_of_alike' (hc ▸ hcd)⟩
            simp only [beq_iff_eq, hiff]
        | masked s =>
            have hs : s.count ' ' = 0 := by
              refine List.count_eq_zero.2 fun hmem => ?_
              have hblank := h.word s (hqs (.head _)) ' ' hmem
              rw [isSpace_blank] at hblank
              cases hblank
            have hmask : redacted.count ' ' = 0 := by decide
            rw [readPieces_masked, writePieces_masked, List.count_append, List.count_append, hrest,
              hs, hmask]
  exact hcount ps (List.Subset.refl _)

end Cortex.Redaction
