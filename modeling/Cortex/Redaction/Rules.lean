import Cortex.Redaction.Masks

/-!
# What a pattern leaves behind

A rule says what may stand behind a text: behind `/bot` the mask, or a character that ends
the path.  A substitution brings its own rule about, and the later ones keep it
(`Rule.Holds.write`): what they write was there before, up to their masks, and these are
written where the rule does not look.
-/

namespace Cortex.Redaction

open PyText Regex

structure Rule where
  left : Text → Prop
  body : Text → Prop
  rest : Text → Prop

/-- Behind every text of the rule stands what may. -/
def Rule.Holds (r : Rule) (x : Text) : Prop :=
  ∀ a t b, x = a ++ (t ++ b) → r.left a → r.body t → r.rest b

/-- No character of the class stands at the end. -/
def Open (cls : Char → Bool) (u : Text) : Prop := ∀ c ∈ u.getLast?, cls c = false

/-- The text is at its end, or at a character of the class. -/
def Ends (stop : Char → Bool) (v : Text) : Prop := ∀ c ∈ v.head?, stop c = true

/-- At a stop, or at a mask before one. -/
def Marked (stop : Char → Bool) (b : Text) : Prop :=
  Ends stop b ∨ ∃ v, b = redacted ++ v ∧ Ends stop v

/-- A mask, in any case. -/
def IsMark (m : Text) : Prop := m.map fold = redacted

/-- At white space, or at a mask in any case. -/
def Guarded (b : Text) : Prop := Ends isSpace b ∨ ∃ m v, b = m ++ v ∧ IsMark m

/-- `api[_-]?key|token|secret|password|authorization` -/
def keyWords : List Text :=
  [['a', 'p', 'i', 'k', 'e', 'y'], ['a', 'p', 'i', '_', 'k', 'e', 'y'],
    ['a', 'p', 'i', '-', 'k', 'e', 'y'], ['t', 'o', 'k', 'e', 'n'],
    ['s', 'e', 'c', 'r', 'e', 't'], ['p', 'a', 's', 's', 'w', 'o', 'r', 'd'],
    ['a', 'u', 't', 'h', 'o', 'r', 'i', 'z', 'a', 't', 'i', 'o', 'n']]

/-- `\s*[=:]\s*` -/
def IsSeparator (t : Text) : Prop :=
  ∃ a c b, t = a ++ c :: b ∧ (c = '=' ∨ c = ':') ∧ (∀ d ∈ a, isSpace d = true) ∧
    ∀ d ∈ b, isSpace d = true

/-- `\d{5,}:[A-Za-z0-9_-]{20}` -/
def IsToken (classes : CharClasses) (t : Text) : Prop :=
  ∃ d k, t = d ++ ':' :: k ∧ 5 ≤ d.length ∧ (∀ c ∈ d, classes.isDigit c = true) ∧
    k.length = 20 ∧ ∀ c ∈ k, isKeyChar c = true

/-- `[a-z][a-z0-9+.-]*://`, with IGNORECASE -/
def IsScheme (t : Text) : Prop :=
  ∃ c a, t = c :: (a ++ [':', '/', '/']) ∧ isSmall (fold c) = true ∧
    ∀ d ∈ a, isSchemeChar d = true

/-- `[^\s/@]+` -/
def IsUserinfo (t : Text) : Prop := t ≠ [] ∧ ∀ c ∈ t, endsUserinfo c = false

/-- Userinfo is masked, or a masked query is in it. -/
def Masked (info : Text) : Prop := info = redacted ∨ '?' :: redacted <:+: info

/-! ## The rules -/

/-- Behind a word comes a mask or a stop. -/
def markedRule (word : Text) (stop : Char → Bool) : Rule where
  left _ := True
  body t := t = word
  rest := Marked stop

/-- No run of a length stands alone. -/
def runRule (cls edge : Char → Bool) (n : ℕ) : Rule where
  left := Open edge
  body t := t.length = n ∧ ∀ c ∈ t, cls c = true
  rest b := ∃ c ∈ b.head?, edge c = true

def botPathRule : Rule := markedRule ['/', 'b', 'o', 't'] endsPath

def queryRule : Rule := markedRule ['?'] endsQuery

def hexSecretRule : Rule := runRule isHex isAlnum 64

def controlTokenRule : Rule := runRule isKeyChar isKeyChar 43

section Rules

variable (classes : CharClasses)

/-- A token stands behind a mask only. -/
def botTokenRule : Rule where
  left a := Open classes.isWord a ∧ ¬redacted <:+ a
  body := IsToken classes
  rest _ := False

def providerKeyRule : Rule where
  left := Open classes.isWord
  body t := ∃ k, t = 's' :: 'k' :: '-' :: k ∧ k.length = 16 ∧ ∀ c ∈ k, isKeyChar c = true
  rest _ := False

/-- Userinfo stands unmasked behind a mask, or with a masked query in it. -/
def userinfoRule : Rule where
  left a := Open classes.isWord a ∧ ¬redacted <:+ a
  body := IsScheme
  rest b := ∀ info v, b = info ++ '@' :: v → IsUserinfo info → Masked info

def bearerRule : Rule where
  left := Open classes.isWord
  body t := ∃ b, t = b ++ [' '] ∧ b.map fold = ['b', 'e', 'a', 'r', 'e', 'r']
  rest := Guarded

def keyValueRule : Rule where
  left := Open classes.isWord
  body t := ∃ key sep, t = key ++ sep ∧ key.map fold ∈ keyWords ∧ IsSeparator sep
  rest := Guarded

end Rules

/-! ## Where a secret may stand -/

/-- A character at which a pattern stops, or with which the mask starts. -/
def isStop (c : Char) : Bool :=
  isSpace c || c = '/' || c = '"' || c = '\'' || c = '<' || c = '>' || c = '['

/-- A secret starts behind a label, or with a character that is no stop.  It does not
start or end in a mask, and nothing of the class stands beside it. -/
structure Beside (labels : List Char) (edge : Char → Bool) (u s v : Text) : Prop where
  start : (∃ c ∈ u.getLast?, c ∈ labels) ∨ ∀ c ∈ s.head?, isStop c = false
  opened : ∀ m₁ m₂ w, IsMark (m₁ ++ m₂) → m₁ ≠ [] → m₂ ≠ [] → m₁ <:+ u → s ++ v ≠ m₂ ++ w
  closed : ∀ m₁ m₂ w, m₁ ++ m₂ = redacted → m₁ ≠ [] → m₂ ≠ [] → m₁ <:+ u ++ s → v ≠ m₂ ++ w
  before : Open edge u
  after : ∀ c ∈ v.head?, edge c = false

variable {P K S ps : List Piece} {a b t u v x : Text} {c d : Char} {r : Rule}
  {classes : CharClasses} {labels : List Char} {edge stop cls : Char → Bool}
  {beside : Text → Text → Text → Prop}

/-- A text that cannot be a part of a mask. -/
def Plain (t : Text) : Prop := (∀ c ∈ t, c ≠ '[' ∧ c ≠ ']') ∧ ¬t <:+: maskWord

theorem Plain.ne_nil (h : Plain t) : t ≠ [] := by
  rintro rfl
  exact h.2 List.nil_infix

/-- The texts of the rule cannot be parts of a mask, and their case does not matter. -/
structure Rule.IsPlain (r : Rule) : Prop where
  plain : ∀ t, r.body t → Plain t
  alike : ∀ t t', List.Forall₂ Alike t t' → r.body t' → r.body t

/-- A rule holds of what is written, if it does at every kept part. -/
theorem Rule.IsPlain.holds_write (hr : r.IsPlain) (h : Sound beside [] ps)
    (hleft : ∀ P K S, ps = P ++ (K ++ S) → Kept K → r.body (readPieces K) →
      r.left (writePieces P) → r.left (readPieces P))
    (hrest : ∀ P K S, ps = P ++ (K ++ S) → Kept K → K ≠ [] → r.left (readPieces P) →
      r.body (readPieces K) → r.rest (writePieces S)) : r.Holds (writePieces ps) := by
  intro a t b hab ha ht
  have hplain := hr.plain t ht
  obtain ⟨P, K, S, hps, hK, rfl, rfl, rfl⟩ := aligned hplain.1 hplain.2 hab
  have halike : AllAlike K := h.alike.of_subset (by rw [hps]; simp)
  have hbody := hr.alike _ _ (forall₂_alike hK halike) ht
  refine hrest P K S hps hK ?_ (hleft P K S hps hK hbody ha) hbody
  rintro rfl
  exact hplain.ne_nil rfl

/-! ## What stands before -/

/-- Before a kept part that no secret ends at, the last character was read. -/
theorem open_read (h : AllAlike P) (hcls : Caseless cls)
    (hmask : ∀ P' s, P ≠ P' ++ [.masked s]) (hP : Open cls (writePieces P)) :
    Open cls (readPieces P) := by
  rcases List.eq_nil_or_concat' P with rfl | ⟨P', p, rfl⟩
  · exact hP
  · cases p with
    | masked s => exact absurd rfl (hmask P' s)
    | kept c d =>
        intro e he
        rw [readPieces_append, readPieces_kept, readPieces_nil, List.getLast?_concat] at he
        obtain rfl := Option.some.inj he
        have hd : cls d = false := by
          refine hP d ?_
          rw [writePieces_append, writePieces_kept, writePieces_nil, List.getLast?_concat]
          rfl
        rw [hcls.eq (h c d (by simp)), hd]

/-- A secret does not end where a kept part starts, unless its character may stand there. -/
theorem Sound.not_masked (h : Sound beside [] ps) (hps : ps = P ++ (K ++ S))
    (hK : ∃ c ∈ (readPieces K).head?, ∀ u s v, beside u s v → c ∉ v.head?) :
    ∀ P' s, P ≠ P' ++ [.masked s] := by
  rintro P' s rfl
  obtain ⟨c, hc, hbeside⟩ := hK
  rw [List.append_assoc, List.singleton_append] at hps
  refine hbeside _ _ _ (h.beside P' s (K ++ S) hps) ?_
  rw [readPieces_append, List.head?_append, Option.mem_def.1 hc]
  rfl

/-- Nothing is masked behind a mask that a secret ends with. -/
theorem not_suffix_of_masked (hP : ¬redacted <:+ writePieces P) :
    ∀ P' s, P ≠ P' ++ [.masked s] := by
  rintro P' s rfl
  exact hP ⟨writePieces P', by simp⟩

/-! ## Masks that are there already -/

/-- A mask that started before is kept. -/
theorem Sound.kept_mark (h : Sound (Beside labels edge) [] ps) {l m : Text}
    (hps : ps = P ++ S) (hm : IsMark (l ++ m)) (hne : l ≠ []) (hP : l <:+ readPieces P)
    (hS : readPieces S = m ++ v) :
    ∃ M S', S = M ++ S' ∧ Kept M ∧ readPieces M = m ∧ readPieces S' = v := by
  induction m generalizing P S l with
  | nil => exact ⟨[], S, rfl, fun p hp => (by cases hp), rfl, hS⟩
  | cons c m ih =>
      cases S with
      | nil => cases hS
      | cons p S =>
          cases p with
          | masked s =>
              have hbeside := h.beside P s S hps
              exact absurd hS (hbeside.opened l (c :: m) v hm hne (List.cons_ne_nil _ _) hP)
          | kept e d =>
              obtain ⟨rfl, htail⟩ := List.cons.inj hS
              obtain ⟨M, S', rfl, hM, rfl, hv⟩ := ih (P := P ++ [.kept e d]) (l := l ++ [e])
                (by rw [hps, List.append_assoc]; rfl) (by rwa [List.append_assoc])
                (List.append_ne_nil_of_left_ne_nil hne _)
                (by
                  obtain ⟨w, hw⟩ := hP
                  exact ⟨w, by simp [← hw]⟩) htail
              refine ⟨.kept e d :: M, S', rfl, fun q hq => ?_, rfl, hv⟩
              rcases List.mem_cons.1 hq with rfl | hq
              · exact ⟨e, d, rfl⟩
              · exact hM q hq

/-- A mask that starts with a kept character is kept. -/
theorem Sound.kept_mark_cons (h : Sound (Beside labels edge) [] ps) {m : Text}
    (hps : ps = P ++ .kept c d :: S) (hm : IsMark m) (hS : c :: readPieces S = m ++ v) :
    ∃ M S', .kept c d :: S = M ++ S' ∧ Kept M ∧ readPieces M = m ∧ readPieces S' = v := by
  cases m with
  | nil => cases hm
  | cons e m =>
      obtain ⟨rfl, htail⟩ := List.cons.inj hS
      obtain ⟨M, S', rfl, hM, rfl, hv⟩ := h.kept_mark (P := P ++ [.kept c d]) (l := [c])
        (by rw [hps, List.append_assoc]; rfl) hm (List.cons_ne_nil _ _) ⟨readPieces P, by simp⟩
        htail
      refine ⟨.kept c d :: M, S', rfl, fun q hq => ?_, rfl, hv⟩
      rcases List.mem_cons.1 hq with rfl | hq
      · exact ⟨c, d, rfl⟩
      · exact hM q hq

theorem isMark_redacted : IsMark redacted := by
  show redacted.map fold = redacted
  decide

/-- A mask is written as it was read. -/
theorem writePieces_mark (hM : Kept K) (h : AllAlike K) (hread : readPieces K = redacted) :
    writePieces K = redacted := by
  have halike := forall₂_alike hM h
  rw [hread] at halike
  exact (eq_of_forall₂_left halike (by decide)).symm

/-! ## What stands behind -/

/-- No label is the last character. -/
def NoLabel (labels : List Char) (u : Text) : Prop := ∀ c ∈ u.getLast?, c ∉ labels

theorem Sound.ends_write (h : Sound (Beside labels edge) [] ps) (hps : ps = P ++ S)
    (hP : NoLabel labels (readPieces P)) (hstop : ∀ c, stop c = true → isStop c = true)
    (hcase : Caseless stop) (hS : Ends stop (readPieces S)) : Ends stop (writePieces S) := by
  cases S with
  | nil => exact hS
  | cons p S =>
      cases p with
      | kept c d =>
          intro e he
          obtain rfl := Option.some.inj he
          rw [← hcase.eq (h.alike c d (by rw [hps]; simp))]
          exact hS c rfl
      | masked s =>
          exfalso
          obtain ⟨c, s, rfl⟩ := List.exists_cons_of_ne_nil (h.ne s (by rw [hps]; simp))
          rcases (h.beside P _ S hps).start with ⟨e, he, hlabel⟩ | hfirst
          · exact hP e he hlabel
          · have hfirst := hfirst c rfl
            rw [hstop c (hS c rfl)] at hfirst
            cases hfirst

theorem Sound.marked_write (h : Sound (Beside labels edge) [] ps) (hps : ps = P ++ S)
    (hP : NoLabel labels (readPieces P)) (hlabels : ']' ∉ labels)
    (hstop : ∀ c, stop c = true → isStop c = true) (hcase : Caseless stop)
    (hS : Marked stop (readPieces S)) : Marked stop (writePieces S) := by
  rcases hS with hS | ⟨v, hv, hend⟩
  · exact .inl (h.ends_write hps hP hstop hcase hS)
  · cases S with
    | nil => cases hv
    | cons p S =>
        cases p with
        | masked s =>
            exfalso
            obtain ⟨c, s, rfl⟩ := List.exists_cons_of_ne_nil (h.ne s (by rw [hps]; simp))
            obtain ⟨rfl, -⟩ := List.cons.inj hv
            rcases (h.beside P _ S hps).start with ⟨e, he, hlabel⟩ | hfirst
            · exact hP e he hlabel
            · exact absurd (hfirst '[' rfl) (by decide)
        | kept c d =>
            obtain ⟨M, S', hM, hkept, hread, rfl⟩ := h.kept_mark_cons hps isMark_redacted hv
            rw [hM] at hps ⊢
            refine .inr ⟨writePieces S', ?_, ?_⟩
            · rw [writePieces_append, writePieces_mark hkept
                (h.alike.of_subset (by rw [hps]; simp)) hread]
            · refine h.ends_write (P := P ++ M) (by rw [hps, List.append_assoc]) ?_ hstop hcase hend
              intro e he
              rw [readPieces_append, hread, List.getLast?_append_of_ne_nil _ (by decide)] at he
              obtain rfl := Option.some.inj he
              exact hlabels

theorem Sound.guarded_write (h : Sound (Beside labels edge) [] ps) (hps : ps = P ++ S)
    (hS : Guarded (readPieces S)) : Guarded (writePieces S) := by
  cases S with
  | nil => exact hS
  | cons p S =>
      cases p with
      | masked s => exact .inr ⟨redacted, writePieces S, rfl, isMark_redacted⟩
      | kept c d =>
          rcases hS with hS | ⟨m, v, hv, hm⟩
          · refine .inl fun e he => ?_
            obtain rfl := Option.some.inj he
            rw [← isSpace_alike (h.alike c d (by rw [hps]; simp))]
            exact hS c rfl
          · obtain ⟨M, S', hM, hkept, rfl, rfl⟩ := h.kept_mark_cons hps hm hv
            rw [hM] at hps ⊢
            refine .inr ⟨writePieces M, writePieces S', writePieces_append, ?_⟩
            have halike := forall₂_alike hkept (h.alike.of_subset (by rw [hps]; simp))
            rw [IsMark, ← map_fold_alike halike]
            exact hm

/-- A character of the class that comes next comes next still. -/
theorem Sound.head_write (h : Sound (Beside labels edge) [] ps) (hps : ps = P ++ S)
    (hcase : Caseless cls) (hP : ∃ c ∈ (readPieces P).getLast?, edge c = true)
    (hS : ∃ c ∈ (readPieces S).head?, cls c = true) :
    ∃ c ∈ (writePieces S).head?, cls c = true := by
  obtain ⟨c, hc, hcls⟩ := hS
  cases S with
  | nil => cases hc
  | cons p S =>
      cases p with
      | kept e d =>
          obtain rfl := Option.some.inj hc
          exact ⟨d, rfl, by rw [← hcase.eq (h.alike e d (by rw [hps]; simp)), hcls]⟩
      | masked s =>
          obtain ⟨e, he, hedge⟩ := hP
          rw [(h.beside P s S hps).before e he] at hedge
          cases hedge

end Cortex.Redaction
