import Cortex.Transports.Markdown

/-!
# What chunking keeps whole

The chunks of a text should be the escaped parts of it, with only white space removed
between them, and none of them blank.  Two things go wrong.

* With a maximum of two or three the boundary is `1` when no break is near, which is not
  below the half of the maximum.  It is never taken back then, and a pair is cut.
* The break that is found may lie in the white space that the text begins with.  The first
  chunk is then blank, and it is sent as it is.

`chunks_faithful_iff` says when neither happens.
-/

namespace Cortex.Transports

open PyText

variable {c : Char} {s v p q w : Text} {maximum : ℕ}

/-! ## What is promised -/

def IsBreak (c : Char) : Prop := c = ' ' ∨ c = '\n'

/-- A space or a line break stands at this index. -/
def BreakAt (s : Text) (i : ℕ) : Prop := ∃ c, s[i]? = some c ∧ IsBreak c

def Blank (s : Text) : Prop := ∀ c ∈ s, isSpace c = true

/-- The parts of a text with white space removed between them and after the last. -/
inductive CutInto : Text → List Text → Prop
  | last (part gap : Text) : Blank gap → CutInto (part ++ gap) [part]
  | cons (part gap : Text) {rest : Text} {parts : List Text} :
      Blank gap → CutInto rest parts → CutInto (part ++ gap ++ rest) (part :: parts)

/-- What the chunks of a text are to be: escaped parts of it, so that no escape pair is cut. -/
structure Faithful (value : Text) (maximum : ℕ) (chunks : List Text) : Prop where
  length : ∀ chunk ∈ chunks, chunk.length ≤ maximum
  parts : ∃ parts, CutInto value parts ∧ chunks = parts.map escapeMarkdownV2
  visible : ¬Blank value → ∀ chunk ∈ chunks, ¬Blank chunk

/-- A text that begins with white space `margin` in which its first chunk ends. -/
def BlankMargin (maximum : ℕ) (margin : Text) (c : Char) (rest : Text) : Prop :=
  let escaped := escapeMarkdownV2 (margin ++ c :: rest)
  maximum < escaped.length ∧
    (maximum ≤ margin.length ∨ (maximum = margin.length + 1 ∧ isReserved c = true) ∨
      margin ≠ [] ∧ (∀ j, margin.length < j → j ≤ maximum → ¬BreakAt escaped j) ∧
        (maximum < 4 ∨ ∃ j, maximum / 2 ≤ j ∧ j < margin.length ∧ BreakAt escaped j))

/-- A pair that fits with all that follows it, or has a break near enough. -/
def PairFits (maximum : ℕ) (c : Char) (after : Text) : Prop :=
  (escapeMarkdownV2 (c :: after)).length ≤ maximum ∨
    ∃ j, 2 ≤ j ∧ j ≤ maximum ∧ BreakAt (escapeMarkdownV2 (c :: after)) j

/-- The texts that are chunked well. -/
structure Safe (maximum : ℕ) (value : Text) : Prop where
  margin : ∀ margin c rest, value = margin ++ c :: rest → Blank margin → isSpace c = false →
    ¬BlankMargin maximum margin c rest
  pairs : maximum < 4 → ∀ before c after, value = before ++ c :: after → isReserved c = true →
    PairFits maximum c after

/-! ## Breaks -/

theorem IsBreak.space (h : IsBreak c) : isSpace c = true := by
  rcases h with rfl | rfl <;> decide

theorem breakAt_append (s t : Text) (j : ℕ) : BreakAt (s ++ t) (s.length + j) ↔ BreakAt t j := by
  unfold BreakAt
  rw [List.getElem?_append_right (Nat.le_add_right _ _), Nat.add_sub_cancel_left]

/-- A break of an escaped text is one of the text. -/
theorem breakAt_escape {j : ℕ} (h : BreakAt (escapeMarkdownV2 v) j) :
    ∃ p d q, v = p ++ d :: q ∧ (escapeMarkdownV2 p).length = j ∧ IsBreak d := by
  obtain ⟨d, hd, hbreak⟩ := h
  have hlt : j < (escapeMarkdownV2 v).length := (List.getElem?_eq_some_iff.1 hd).1
  rcases cut_escape hlt.le with ⟨p, q, rfl, rfl⟩ | ⟨p, e, q, rfl, he, rfl⟩
  · cases q with
    | nil => simp at hlt
    | cons e q =>
        refine ⟨p, e, q, rfl, rfl, ?_⟩
        rw [escape_append, List.getElem?_append_right le_rfl, Nat.sub_self, escape_cons] at hd
        cases he : isReserved e with
        | true =>
            rw [escapeChar_of_reserved he] at hd
            obtain rfl : '\\' = d := by simpa using hd
            exact absurd hbreak.space (by decide)
        | false =>
            rw [escapeChar_of_not he] at hd
            obtain rfl : e = d := by simpa using hd
            exact hbreak
  · rw [escape_append, List.getElem?_append_right (Nat.le_succ _), escape_cons,
      escapeChar_of_reserved he] at hd
    obtain rfl : e = d := by simpa using hd
    rw [not_reserved_of_space hbreak.space] at he
    exact absurd he Bool.false_ne_true

theorem lastBreak_le (h : 0 < maximum) : lastBreak maximum s ≤ maximum := by
  unfold lastBreak
  rcases rfind_spec '\n' s (maximum + 1) with ⟨hn, -⟩ | ⟨i, hn, hi, -⟩ <;>
    rcases rfind_spec ' ' s (maximum + 1) with ⟨hs, -⟩ | ⟨j, hs, hj, -⟩ <;> rw [hn, hs] <;> omega

/-- No break follows the last one. -/
theorem not_breakAt_of_lastBreak_lt {j : ℕ} (h : lastBreak maximum s < j) (hj : j ≤ maximum) :
    ¬BreakAt s j := by
  rintro ⟨c, hc, rfl | rfl⟩
  · rcases rfind_spec ' ' s (maximum + 1) with ⟨-, hnone⟩ | ⟨i, hs, -, -, hafter⟩
    · exact hnone j (by omega) hc
    · unfold lastBreak at h
      exact hafter j (by omega) (by omega) hc
  · rcases rfind_spec '\n' s (maximum + 1) with ⟨-, hnone⟩ | ⟨i, hn, -, -, hafter⟩
    · exact hnone j (by omega) hc
    · unfold lastBreak at h
      exact hafter j (by omega) (by omega) hc

theorem breakAt_lastBreak (h : lastBreak maximum s ≠ 1) : BreakAt s (lastBreak maximum s) := by
  unfold lastBreak at h ⊢
  rcases Int.le_total (rfind '\n' s (maximum + 1)) (rfind ' ' s (maximum + 1)) with hle | hle
  · rw [Int.max_eq_right hle] at h ⊢
    rcases rfind_spec ' ' s (maximum + 1) with ⟨hs, -⟩ | ⟨i, hs, -, hat, -⟩ <;> rw [hs] at h ⊢
    · omega
    · rw [show (max 1 (i : ℤ)).toNat = i by omega]
      exact ⟨' ', hat, .inl rfl⟩
  · rw [Int.max_eq_left hle] at h ⊢
    rcases rfind_spec '\n' s (maximum + 1) with ⟨hs, -⟩ | ⟨i, hs, -, hat, -⟩ <;> rw [hs] at h ⊢
    · omega
    · rw [show (max 1 (i : ℤ)).toNat = i by omega]
      exact ⟨'\n', hat, .inr rfl⟩

/-! ## The boundary -/

theorem walkBack_le (s : Text) (b : ℕ) : walkBack s b ≤ b := by
  induction b with
  | zero => exact le_rfl
  | succ b ih =>
      cases b with
      | zero => exact le_rfl
      | succ b =>
          unfold walkBack
          split
          · exact ih.trans (Nat.le_succ _)
          · exact le_rfl

/-- A boundary between two characters stays. -/
theorem walkBack_between (p q : Text) :
    walkBack (escapeMarkdownV2 (p ++ q)) (escapeMarkdownV2 p).length = (escapeMarkdownV2 p).length := by
  have hnot : endsWithOddBackslashes
      ((escapeMarkdownV2 (p ++ q)).take (escapeMarkdownV2 p).length) = false := by
    rw [escape_append, List.take_left, endsWithOdd_escape]
  generalize (escapeMarkdownV2 p).length = b at hnot ⊢
  rcases b with - | - | b
  · rfl
  · rfl
  · unfold walkBack
    rw [hnot]
    rfl

/-- A boundary inside a pair goes back before it, unless the text begins with the pair. -/
theorem walkBack_inside (p q : Text) (h : isReserved c = true) (hp : p ≠ []) :
    walkBack (escapeMarkdownV2 (p ++ c :: q)) ((escapeMarkdownV2 p).length + 1) =
      (escapeMarkdownV2 p).length := by
  obtain ⟨b, hb⟩ : ∃ b, (escapeMarkdownV2 p).length = b + 1 :=
    ⟨(escapeMarkdownV2 p).length - 1, by
      have := List.length_pos_of_ne_nil (escape_ne_nil hp)
      omega⟩
  have hodd : endsWithOddBackslashes
      ((escapeMarkdownV2 (p ++ c :: q)).take ((escapeMarkdownV2 p).length + 1)) = true := by
    have hsplit : escapeMarkdownV2 (p ++ c :: q) =
        escapeMarkdownV2 p ++ ['\\'] ++ c :: escapeMarkdownV2 q := by
      simp [escapeChar_of_reserved h]
    rw [hsplit, List.take_left' (by simp), endsWithOdd_concat_backslash, endsWithOdd_escape]
    rfl
  have hbetween := walkBack_between p (c :: q)
  rw [hb] at hodd hbetween ⊢
  unfold walkBack
  rw [hodd]
  exact hbetween

/-- Where the boundary of an escaped text is. -/
inductive CutsAt (maximum : ℕ) (v : Text) : ℕ → Prop
  | atBreak : BreakAt (escapeMarkdownV2 v) (lastBreak maximum (escapeMarkdownV2 v)) →
      maximum / 2 ≤ lastBreak maximum (escapeMarkdownV2 v) →
      CutsAt maximum v (lastBreak maximum (escapeMarkdownV2 v))
  | first : lastBreak maximum (escapeMarkdownV2 v) = 1 → maximum < 4 → CutsAt maximum v 1
  | atLimit (p q : Text) : v = p ++ q → (escapeMarkdownV2 p).length = maximum →
      lastBreak maximum (escapeMarkdownV2 v) < maximum / 2 → CutsAt maximum v maximum
  | beforePair (p : Text) (c : Char) (q : Text) : v = p ++ c :: q → isReserved c = true →
      (escapeMarkdownV2 p).length + 1 = maximum →
      lastBreak maximum (escapeMarkdownV2 v) < maximum / 2 →
      CutsAt maximum v (escapeMarkdownV2 p).length

theorem boundary_escape (hmaximum : 2 ≤ maximum) (hlength : maximum < (escapeMarkdownV2 v).length) :
    CutsAt maximum v (boundary maximum (escapeMarkdownV2 v)) := by
  unfold boundary
  split
  · rename_i hhalf
    rcases cut_escape hlength.le with ⟨p, q, rfl, hp⟩ | ⟨p, c, q, rfl, hc, hp⟩
    · have hstays := walkBack_between p q
      rw [hp] at hstays
      rw [hstays]
      exact .atLimit p q rfl hp hhalf
    · have hne : p ≠ [] := by
        rintro rfl
        simp only [escape_nil, List.length_nil] at hp
        omega
      have hback := walkBack_inside p q hc hne
      rw [hp] at hback
      rw [hback]
      exact .beforePair p c q rfl hc hp hhalf
  · rename_i hhalf
    by_cases hone : lastBreak maximum (escapeMarkdownV2 v) = 1
    · rw [hone]
      exact .first hone (by omega)
    · have hbreak := breakAt_lastBreak hone
      obtain ⟨p, d, q, rfl, hp, -⟩ := breakAt_escape hbreak
      have hstays := walkBack_between p (d :: q)
      rw [hp] at hstays
      rw [hstays]
      exact .atBreak hbreak (by omega)

/-- A boundary is between two characters, or it is inside the pair that a text begins with. -/
theorem CutsAt.between {b : ℕ} (h : CutsAt maximum v b) (hv : v ≠ []) :
    (∃ p q, v = p ++ q ∧ (escapeMarkdownV2 p).length = b) ∨
      b = 1 ∧ maximum < 4 ∧ ∃ c q, v = c :: q ∧ isReserved c = true ∧
        ∀ j, 2 ≤ j → j ≤ maximum → ¬BreakAt (escapeMarkdownV2 v) j := by
  cases h with
  | atBreak hbreak _ =>
      obtain ⟨p, d, q, hv, hp, -⟩ := breakAt_escape hbreak
      exact .inl ⟨p, d :: q, hv, hp⟩
  | first hone hfour =>
      cases v with
      | nil => exact absurd rfl hv
      | cons c q =>
          cases hc : isReserved c with
          | true =>
              exact .inr ⟨rfl, hfour, c, q, rfl, hc, fun j hj hjm =>
                not_breakAt_of_lastBreak_lt (by omega) hjm⟩
          | false => exact .inl ⟨[c], q, rfl, by simp [escapeChar_of_not hc]⟩
  | atLimit p q hv hp _ => exact .inl ⟨p, q, hv, hp⟩
  | beforePair p c q hv _ _ _ => exact .inl ⟨p, c :: q, hv, rfl⟩

theorem CutsAt.le {b : ℕ} (h : CutsAt maximum v b) (hmaximum : 2 ≤ maximum) : b ≤ maximum := by
  cases h with
  | atBreak => exact lastBreak_le (by omega)
  | first => omega
  | atLimit => exact le_rfl
  | beforePair p c q _ _ hp _ => omega

/-! ## White space at the start -/

/-- The first character after the margin, and the rest of its pair. -/
theorem not_breakAt_margin {margin : Text} (rest : Text) (hmargin : Blank margin)
    (hc : isSpace c = false) :
    ¬BreakAt (escapeMarkdownV2 (margin ++ c :: rest)) margin.length ∧
      (isReserved c = true →
        ¬BreakAt (escapeMarkdownV2 (margin ++ c :: rest)) (margin.length + 1)) := by
  have hspace : ∀ d, IsBreak d → d ≠ c := by
    rintro d hd rfl
    rw [hd.space] at hc
    exact Bool.noConfusion hc
  have hslash : ∀ d, IsBreak d → d ≠ '\\' := by
    rintro d hd rfl
    exact absurd hd.space (by decide)
  rw [escape_append, escape_of_blank hmargin, escape_cons]
  refine ⟨?_, fun hreserved => ?_⟩
  · rintro ⟨d, hd, hbreak⟩
    rw [List.getElem?_append_right le_rfl, Nat.sub_self] at hd
    unfold escapeChar at hd
    split at hd
    · exact hslash d hbreak (by simpa using hd.symm)
    · exact hspace d hbreak (by simpa using hd.symm)
  · rintro ⟨d, hd, hbreak⟩
    rw [List.getElem?_append_right (Nat.le_succ _), escapeChar_of_reserved hreserved] at hd
    exact hspace d hbreak (by simpa using hd.symm)

/-- A prefix whose escaped text is no longer than the margin is a part of the margin. -/
theorem prefix_of_margin {margin rest : Text} (hsplit : margin ++ c :: rest = p ++ q)
    (hle : p.length ≤ margin.length) : p <+: margin := by
  have hp : p <+: margin ++ c :: rest := ⟨q, hsplit.symm⟩
  exact List.prefix_of_prefix_length_le hp (List.prefix_append _ _) hle

/-- The first chunk ends inside the margin. -/
theorem boundary_le_margin_iff {margin rest : Text} (hmaximum : 2 ≤ maximum)
    (hlength : maximum < (escapeMarkdownV2 (margin ++ c :: rest)).length) (hmargin : Blank margin)
    (hc : isSpace c = false) :
    boundary maximum (escapeMarkdownV2 (margin ++ c :: rest)) ≤ margin.length ↔
      BlankMargin maximum margin c rest := by
  have hcut := boundary_escape hmaximum hlength
  obtain ⟨hfirst, hsecond⟩ := not_breakAt_margin rest hmargin hc
  have hafter : ∀ j, lastBreak maximum (escapeMarkdownV2 (margin ++ c :: rest)) < j → j ≤ maximum →
      ¬BreakAt (escapeMarkdownV2 (margin ++ c :: rest)) j :=
    fun j => not_breakAt_of_lastBreak_lt
  have hlast : lastBreak maximum (escapeMarkdownV2 (margin ++ c :: rest)) ≠ 1 →
      BreakAt (escapeMarkdownV2 (margin ++ c :: rest))
        (lastBreak maximum (escapeMarkdownV2 (margin ++ c :: rest))) := breakAt_lastBreak
  have hlastLe : lastBreak maximum (escapeMarkdownV2 (margin ++ c :: rest)) ≤ maximum :=
    lastBreak_le (by omega)
  have hboundary := hcut.le hmaximum
  constructor
  · intro hle
    refine ⟨hlength, ?_⟩
    by_cases hlong : maximum ≤ margin.length
    · exact .inl hlong
    generalize boundary maximum (escapeMarkdownV2 (margin ++ c :: rest)) = b at hcut hle
    cases hcut with
    | atBreak hbreak hhalf =>
        refine .inr (.inr ⟨?_, fun j hj => hafter j (by omega), ?_⟩)
        · rintro rfl
          have := lastBreak_pos maximum (escapeMarkdownV2 ([] ++ c :: rest))
          simp only [List.length_nil] at hle
          omega
        · refine .inr ⟨_, hhalf, lt_of_le_of_ne hle fun heq => hfirst ?_, hbreak⟩
          rwa [← heq]
    | first hone hfour =>
        refine .inr (.inr ⟨?_, fun j hj => hafter j (by omega), .inl hfour⟩)
        rintro rfl
        simp at hle
    | atLimit => exact absurd hle hlong
    | beforePair p d q hsplit hd hp =>
        -- The pair at the limit begins right after the margin.
        have hpm : p <+: margin :=
          prefix_of_margin hsplit ((length_le_escape p).trans hle)
        have hpp : escapeMarkdownV2 p = p := escape_of_blank fun e he => hmargin e (hpm.subset he)
        rw [hpp] at hp hle
        obtain rfl : p = margin := hpm.eq_of_length (by omega)
        obtain ⟨rfl, -⟩ : c = d ∧ rest = q := by simpa using hsplit
        exact .inr (.inl ⟨hp.symm, hd⟩)
  · rintro ⟨-, hlong | ⟨hnext, hreserved⟩ | ⟨hne, hnone, hhalf⟩⟩
    · exact hboundary.trans hlong
    · have hwithin : lastBreak maximum (escapeMarkdownV2 (margin ++ c :: rest)) ≤ margin.length := by
        by_contra hgt
        have heq : lastBreak maximum (escapeMarkdownV2 (margin ++ c :: rest)) = margin.length + 1 := by
          omega
        exact hsecond hreserved (heq ▸ hlast (by omega))
      generalize boundary maximum (escapeMarkdownV2 (margin ++ c :: rest)) = b at hcut
      cases hcut with
      | atBreak => exact hwithin
      | first => omega
      | atLimit p q hsplit hp =>
          -- The limit is inside the pair after the margin.
          have htake : escapeMarkdownV2 p = margin ++ ['\\'] := by
            have hprefix : escapeMarkdownV2 p <+: margin ++ ['\\'] ++ c :: escapeMarkdownV2 rest := by
              refine ⟨escapeMarkdownV2 q, ?_⟩
              rw [← escape_append, ← hsplit, escape_append, escape_of_blank hmargin, escape_cons,
                escapeChar_of_reserved hreserved]
              simp
            refine (List.prefix_of_prefix_length_le hprefix (List.prefix_append _ _) ?_).eq_of_length ?_
            all_goals simp only [List.length_append, List.length_singleton]; omega
          have hodd := endsWithOdd_escape p
          rw [htake, endsWithOdd_concat_backslash, ← escape_of_blank hmargin, endsWithOdd_escape] at hodd
          exact Bool.noConfusion hodd
      | beforePair p d q _ _ hp => omega
    · have hpos := List.length_pos_of_ne_nil hne
      have hwithin : lastBreak maximum (escapeMarkdownV2 (margin ++ c :: rest)) ≤ margin.length := by
        by_contra hgt
        exact hnone _ (by omega) hlastLe (hlast (by omega))
      have hlong : lastBreak maximum (escapeMarkdownV2 (margin ++ c :: rest)) < maximum / 2 →
          maximum < margin.length := by
        intro hbelow
        have hlastPos := lastBreak_pos maximum (escapeMarkdownV2 (margin ++ c :: rest))
        rcases hhalf with hfour | ⟨j, hj, hjm, hbreak⟩
        · omega
        · by_contra hshort
          exact hafter j (by omega) (by omega) hbreak
      generalize boundary maximum (escapeMarkdownV2 (margin ++ c :: rest)) = b at hcut
      cases hcut with
      | atBreak => exact hwithin
      | first => exact hpos
      | atLimit p q _ _ hbelow => exact (hlong hbelow).le
      | beforePair p d q _ _ hp hbelow =>
          have := hlong hbelow
          omega

/-! ## The loop -/

theorem cutChunk_escape (p : Text) :
    cutChunk (escapeMarkdownV2 p) =
      escapeMarkdownV2 (if rstrip p = [] then p else rstrip p) := by
  have hiff : rstrip (escapeMarkdownV2 p) = [] ↔ rstrip p = [] := by
    rw [rstrip_escape]
    constructor
    · intro h
      by_contra hne
      exact escape_ne_nil hne h
    · intro h
      rw [h, escape_nil]
  unfold cutChunk
  by_cases h : rstrip p = []
  · rw [if_pos (hiff.2 h), if_pos h]
  · rw [if_neg fun h' => h (hiff.1 h'), if_neg h, rstrip_escape]

theorem rstrip_eq_nil_iff : rstrip p = [] ↔ Blank p := List.rdropWhile_eq_nil_iff

/-- What is cut off a part is white space. -/
theorem part_gap (p : Text) :
    ∃ gap, Blank gap ∧ p = (if rstrip p = [] then p else rstrip p) ++ gap := by
  split
  · exact ⟨[], nofun, (List.append_nil p).symm⟩
  · refine ⟨p.rtakeWhile isSpace, fun c hc => List.mem_rtakeWhile_imp hc, ?_⟩
    exact (List.rdropWhile_append_rtakeWhile).symm

theorem lstrip_gap (q : Text) : ∃ gap, Blank gap ∧ q = gap ++ lstrip q :=
  ⟨q.takeWhile isSpace, fun _ hc => List.mem_takeWhile_imp hc,
    (List.takeWhile_append_dropWhile).symm⟩

/-- A text does not begin with white space. -/
def Starts (v : Text) : Prop := ∀ c ∈ v.head?, isSpace c = false

theorem starts_lstrip (q : Text) : Starts (lstrip q) := by
  intro c hc
  have hnot := List.head?_dropWhile_not isSpace q
  rw [show q.dropWhile isSpace = lstrip q from rfl, Option.mem_def.1 hc] at hnot
  simpa using hnot

theorem Starts.not_blank (h : Starts v) (hne : v ≠ []) : ¬Blank v := by
  cases v with
  | nil => exact absurd rfl hne
  | cons c v =>
      intro hblank
      have hspace := hblank c (.head _)
      rw [h c rfl] at hspace
      exact Bool.noConfusion hspace

/-- One turn of the loop whose cut is between two characters. -/
theorem chunkLoop_between (hpos : 0 < maximum)
    (hlength : maximum < (escapeMarkdownV2 (p ++ q)).length)
    (hp : (escapeMarkdownV2 p).length = boundary maximum (escapeMarkdownV2 (p ++ q))) :
    chunkLoop maximum hpos (escapeMarkdownV2 (p ++ q)) =
      escapeMarkdownV2 (if rstrip p = [] then p else rstrip p) ::
        chunkLoop maximum hpos (escapeMarkdownV2 (lstrip q)) := by
  have hne : escapeMarkdownV2 (p ++ q) ≠ [] := by
    intro h
    rw [h] at hlength
    exact absurd hlength (Nat.not_lt_zero _)
  rw [chunkLoop, if_neg hne, if_neg (by omega), ← hp, escape_append, List.take_left, List.drop_left,
    cutChunk_escape, lstrip_escape]

theorem ne_nil_of_boundary (hmaximum : 2 ≤ maximum)
    (hp : (escapeMarkdownV2 p).length = boundary maximum s) : p ≠ [] := by
  rintro rfl
  have hpos := boundary_pos s (Nat.lt_of_lt_of_le Nat.zero_lt_two hmaximum)
  rw [← hp] at hpos
  exact absurd hpos (lt_irrefl 0)

theorem length_lstrip_lt (hne : p ≠ []) (q : Text) : (lstrip q).length < (p ++ q).length := by
  have hle := (List.dropWhile_suffix (l := q) isSpace).length_le
  have hpos := List.length_pos_of_ne_nil hne
  rw [List.length_append, lstrip]
  omega

/-- Every pair of a text fits. -/
def PairsFit (maximum : ℕ) (v : Text) : Prop :=
  maximum < 4 → ∀ before c after, v = before ++ c :: after → isReserved c = true →
    PairFits maximum c after

theorem PairsFit.lstrip (h : PairsFit maximum (p ++ q)) : PairsFit maximum (lstrip q) := by
  intro hfour before c after hsplit
  obtain ⟨gap, -, hq⟩ := lstrip_gap q
  exact h hfour (p ++ gap ++ before) c after (by rw [hq, hsplit]; simp)

/-- When all pairs fit, a cut is between two characters. -/
theorem PairsFit.between (h : PairsFit maximum v) (hmaximum : 2 ≤ maximum) (hv : v ≠ [])
    (hlength : maximum < (escapeMarkdownV2 v).length) :
    ∃ p q, v = p ++ q ∧ (escapeMarkdownV2 p).length = boundary maximum (escapeMarkdownV2 v) := by
  rcases (boundary_escape hmaximum hlength).between hv with hbetween | ⟨-, hfour, c, q, rfl, hc, hnone⟩
  · exact hbetween
  · rcases h hfour [] c q rfl hc with hfits | ⟨j, hj, hjm, hbreak⟩
    · omega
    · exact absurd hbreak (hnone j hj hjm)

/-- The first chunk of the text is not blank. -/
def FirstVisible (maximum : ℕ) (v : Text) : Prop :=
  ¬Blank v → maximum < (escapeMarkdownV2 v).length → ∀ p q, v = p ++ q →
    (escapeMarkdownV2 p).length = boundary maximum (escapeMarkdownV2 v) → ¬Blank p

theorem Starts.firstVisible (h : Starts v) (hmaximum : 2 ≤ maximum) : FirstVisible maximum v := by
  rintro - - p q rfl hp
  have hne := ne_nil_of_boundary hmaximum hp
  refine Starts.not_blank (fun c hc => h c ?_) hne
  rw [List.head?_append_of_ne_nil _ hne]
  exact hc

/-- The chunks of a text whose pairs fit. -/
theorem chunkLoop_parts {hpos : 0 < maximum} (hmaximum : 2 ≤ maximum) (hv : v ≠ [])
    (hpairs : PairsFit maximum v) (hfirst : FirstVisible maximum v) :
    ∃ parts, CutInto v parts ∧
      chunkLoop maximum hpos (escapeMarkdownV2 v) = parts.map escapeMarkdownV2 ∧
      (∀ part ∈ parts, (escapeMarkdownV2 part).length ≤ maximum) ∧
      (¬Blank v → ∀ part ∈ parts, ¬Blank part) := by
  induction hn : v.length using Nat.strong_induction_on generalizing v with
  | h n ih =>
  by_cases hlength : (escapeMarkdownV2 v).length ≤ maximum
  · refine ⟨[v], ?_, ?_, by simpa using hlength, fun h => by simpa using h⟩
    · simpa using CutInto.last v [] nofun
    · rw [chunkLoop, if_neg (escape_ne_nil hv), if_pos hlength]
      rfl
  rw [Nat.not_le] at hlength
  obtain ⟨p, q, rfl, hp⟩ := hpairs.between hmaximum hv hlength
  have hne := ne_nil_of_boundary hmaximum hp
  have hloop := chunkLoop_between hpos hlength hp
  have hlimit : (escapeMarkdownV2 (if rstrip p = [] then p else rstrip p)).length ≤ maximum := by
    have hle : (escapeMarkdownV2 p).length ≤ maximum :=
      hp ▸ (boundary_escape hmaximum hlength).le hmaximum
    split
    · exact hle
    · rw [← rstrip_escape]
      exact (List.rdropWhile_prefix _ _).length_le.trans hle
  have hvisible : ¬Blank (p ++ q) → ¬Blank (if rstrip p = [] then p else rstrip p) := by
    intro hblank
    have hpart := hfirst hblank hlength p q rfl hp
    rw [if_neg fun h => hpart (rstrip_eq_nil_iff.1 h)]
    obtain ⟨gap, hgap, hsplit⟩ := part_gap p
    rw [if_neg fun h => hpart (rstrip_eq_nil_iff.1 h)] at hsplit
    intro hstripped
    refine hpart fun c hc => ?_
    rw [hsplit] at hc
    exact (List.mem_append.1 hc).elim (hstripped c) (hgap c)
  obtain ⟨gap, hgap, hsplit⟩ := part_gap p
  obtain ⟨gap', hgap', hrest⟩ := lstrip_gap q
  have hgaps : Blank (gap ++ gap') := fun c hc => (List.mem_append.1 hc).elim (hgap c) (hgap' c)
  generalize (if rstrip p = [] then p else rstrip p) = part at hloop hlimit hvisible hsplit
  have hwhole : p ++ q = part ++ (gap ++ gap') ++ lstrip q := by
    conv_lhs => rw [hsplit, hrest]
    simp
  by_cases hend : lstrip q = []
  · refine ⟨[part], ?_, ?_, by simpa using hlimit, fun h => by simpa using hvisible h⟩
    · rw [hwhole, hend, List.append_nil]
      exact .last part _ hgaps
    · rw [hloop, hend, escape_nil, chunkLoop, if_pos rfl]
      rfl
  · obtain ⟨parts, hcut, hparts, hlimits, hvisibles⟩ := ih (lstrip q).length
      (hn ▸ length_lstrip_lt hne q) hend hpairs.lstrip ((starts_lstrip q).firstVisible hmaximum) rfl
    refine ⟨part :: parts, ?_, ?_, ?_, fun h => ?_⟩
    · rw [hwhole]
      exact .cons part _ hgaps hcut
    · rw [hloop, hparts]
      rfl
    · exact List.forall_mem_cons.2 ⟨hlimit, hlimits⟩
    · exact List.forall_mem_cons.2 ⟨hvisible h, hvisibles ((starts_lstrip q).not_blank hend)⟩

/-- A pair that does not fit is cut. -/
theorem chunkLoop_splits {hpos : 0 < maximum} {before after : Text} (hmaximum : 2 ≤ maximum)
    (hfour : maximum < 4) (hv : v = before ++ c :: after) (hc : isReserved c = true)
    (hfits : ¬PairFits maximum c after) :
    ∃ chunk ∈ chunkLoop maximum hpos (escapeMarkdownV2 v), endsWithOddBackslashes chunk = true := by
  induction hn : v.length using Nat.strong_induction_on generalizing v before with
  | h n ih =>
  have hlong : maximum < (escapeMarkdownV2 (c :: after)).length :=
    Nat.not_le.1 fun hle => hfits (.inl hle)
  have hnone : ∀ j, 2 ≤ j → j ≤ maximum → ¬BreakAt (escapeMarkdownV2 (c :: after)) j :=
    fun j hj hjm hbreak => hfits (.inr ⟨j, hj, hjm, hbreak⟩)
  have hlength : maximum < (escapeMarkdownV2 v).length := by
    rw [hv, escape_append, List.length_append]
    omega
  have hne : v ≠ [] := by
    rw [hv]
    exact List.append_ne_nil_of_right_ne_nil _ (List.cons_ne_nil _ _)
  have hcut := boundary_escape hmaximum hlength
  rcases hcut.between hne with ⟨p, q, rfl, hp⟩ | ⟨hone, -, d, q, rfl, hd, -⟩
  · have hpne := ne_nil_of_boundary hmaximum hp
    -- The cut is not after the pair: a break would be in reach of it.
    have hle : p.length ≤ before.length := by
      by_contra hgt
      obtain ⟨mid, rfl⟩ : before ++ [c] <+: p := by
        refine List.prefix_of_prefix_length_le (show _ <+: p ++ q from ⟨after, ?_⟩) (List.prefix_append _ _) ?_
        · rw [hv]
          simp
        · rw [List.length_append, List.length_singleton]
          omega
      have hpair : (escapeMarkdownV2 (before ++ [c] ++ mid)).length =
          (escapeMarkdownV2 before).length + (2 + (escapeMarkdownV2 mid).length) := by
        simp only [escape_append, escape_cons, escape_nil, escapeChar_of_reserved hc,
          List.length_append, List.length_cons, List.length_nil]
        omega
      rw [← hp] at hcut
      have hbound := hcut.le hmaximum
      rw [hpair] at hcut hbound
      generalize hb : (escapeMarkdownV2 before).length + (2 + (escapeMarkdownV2 mid).length) = b at hcut
      cases hcut with
      | atBreak hbreak _ =>
          rw [← hb, hv, escape_append, breakAt_append] at hbreak
          exact hnone _ (by omega) (by omega) hbreak
      | first => omega
      | atLimit _ _ _ _ hbelow =>
          have := lastBreak_pos maximum (escapeMarkdownV2 (before ++ [c] ++ mid ++ q))
          omega
      | beforePair _ _ _ _ _ _ hbelow =>
          have := lastBreak_pos maximum (escapeMarkdownV2 (before ++ [c] ++ mid ++ q))
          omega
    obtain ⟨before', rfl⟩ : p <+: before := prefix_of_margin hv.symm hle
    obtain rfl : q = before' ++ c :: after := by simpa using hv
    have hspace : ¬isSpace c = true := fun h => by
      rw [not_reserved_of_space h] at hc
      exact Bool.noConfusion hc
    have hstrip : ∃ before'', lstrip (before' ++ c :: after) = before'' ++ c :: after := by
      unfold lstrip
      rw [List.dropWhile_append]
      split
      · exact ⟨[], List.dropWhile_cons_of_neg hspace⟩
      · exact ⟨_, rfl⟩
    obtain ⟨before'', hstrip⟩ := hstrip
    obtain ⟨chunk, hchunk, hodd⟩ := ih _ (hn ▸ length_lstrip_lt hpne _) hstrip rfl
    refine ⟨chunk, ?_, hodd⟩
    rw [chunkLoop_between _ hlength hp]
    exact .tail _ hchunk
  · refine ⟨['\\'], ?_, rfl⟩
    rw [chunkLoop, if_neg (escape_ne_nil hne), if_neg (by omega), hone, escape_cons,
      escapeChar_of_reserved hd]
    exact .head _

/-! ## Faithful chunks -/

theorem exists_margin (h : ¬Blank v) :
    ∃ margin c rest, v = margin ++ c :: rest ∧ Blank margin ∧ isSpace c = false := by
  obtain ⟨gap, hgap, hv⟩ := lstrip_gap v
  cases hrest : lstrip v with
  | nil =>
      rw [hrest, List.append_nil] at hv
      exact absurd (hv ▸ hgap) h
  | cons c rest =>
      exact ⟨gap, c, rest, hrest ▸ hv, hgap, starts_lstrip v c (by rw [hrest]; rfl)⟩

theorem Safe.firstVisible (h : Safe maximum v) (hmaximum : 2 ≤ maximum) : FirstVisible maximum v := by
  intro hblank hlength p q hsplit hp hpart
  obtain ⟨margin, c, rest, rfl, hmargin, hc⟩ := exists_margin hblank
  have hle : p.length ≤ margin.length := by
    by_contra hgt
    obtain ⟨mid, rfl⟩ : margin ++ [c] <+: p := by
      refine List.prefix_of_prefix_length_le (show _ <+: p ++ q from ⟨rest, ?_⟩) (List.prefix_append _ _) ?_
      · rw [← hsplit]
        simp
      · rw [List.length_append, List.length_singleton]
        omega
    rw [hpart c (by simp)] at hc
    exact Bool.noConfusion hc
  refine h.margin margin c rest rfl hmargin hc ?_
  rwa [← boundary_le_margin_iff hmaximum hlength hmargin hc, ← hp, escape_of_blank hpart]

/-- A text that begins with its first chunk blank is not chunked faithfully. -/
theorem blank_chunk {margin rest : Text} {hpos : 0 < maximum} (hmaximum : 2 ≤ maximum)
    (hmargin : Blank margin) (hc : isSpace c = false) (h : BlankMargin maximum margin c rest) :
    ∃ chunk ∈ chunkLoop maximum hpos (escapeMarkdownV2 (margin ++ c :: rest)), Blank chunk := by
  have hlength := h.1
  have hle := (boundary_le_margin_iff hmaximum hlength hmargin hc).2 h
  have hne : margin ++ c :: rest ≠ [] := List.append_ne_nil_of_right_ne_nil _ (List.cons_ne_nil _ _)
  rcases (boundary_escape hmaximum hlength).between hne with
    ⟨p, q, hsplit, hp⟩ | ⟨hone, -, d, q, hsplit, hd, -⟩
  · have hpm : p <+: margin :=
      prefix_of_margin hsplit ((length_le_escape p).trans (hp ▸ hle))
    have hpart : Blank p := fun e he => hmargin e (hpm.subset he)
    rw [hsplit] at hlength hp ⊢
    rw [chunkLoop_between _ hlength hp, if_pos (rstrip_eq_nil_iff.2 hpart)]
    exact ⟨_, .head _, blank_escape_iff.2 hpart⟩
  · cases margin with
    | nil =>
        rw [hone] at hle
        exact absurd hle (by simp)
    | cons e margin =>
        obtain ⟨rfl, -⟩ : e = d ∧ _ := by simpa using hsplit
        rw [not_reserved_of_space (hmargin e (.head _))] at hd
        exact Bool.noConfusion hd

/-- Chunking is faithful exactly when no pair is out of reach of a break under a small maximum, and
the first chunk does not end in white space that the text begins with. -/
theorem chunks_faithful_iff (value : Text) (maximum : ℕ) (hmaximum : 2 ≤ maximum) :
    ∃ chunks, chunkMarkdownV2 value maximum = .ok chunks ∧
      (Faithful value maximum chunks ↔ Safe maximum value) := by
  by_cases hvalue : value = []
  · subst hvalue
    refine ⟨[[]], by rw [chunkMarkdownV2, dif_neg (by omega), if_pos escape_nil], iff_of_true ?_ ?_⟩
    · exact ⟨by simp, ⟨[[]], CutInto.last [] [] nofun, rfl⟩, fun h => absurd nofun h⟩
    · exact ⟨fun margin c rest h => by simp at h, fun _ before c after h => by simp at h⟩
  refine ⟨_, by rw [chunkMarkdownV2, dif_neg (by omega), if_neg (escape_ne_nil hvalue)], ?_⟩
  constructor
  · intro hfaithful
    refine ⟨?_, ?_⟩
    · rintro margin c rest rfl hmargin hc hblank
      obtain ⟨chunk, hchunk, hspace⟩ := blank_chunk hmaximum hmargin hc hblank
      refine hfaithful.visible (fun hall => ?_) chunk hchunk hspace
      rw [hall c (by simp)] at hc
      exact Bool.noConfusion hc
    · intro hfour before c after hsplit hc
      by_contra hfits
      obtain ⟨chunk, hchunk, hodd⟩ := chunkLoop_splits hmaximum hfour hsplit hc hfits
      obtain ⟨parts, -, hparts⟩ := hfaithful.parts
      rw [hparts] at hchunk
      obtain ⟨part, -, rfl⟩ := List.mem_map.1 hchunk
      rw [endsWithOdd_escape] at hodd
      exact Bool.noConfusion hodd
  · intro hsafe
    obtain ⟨parts, hcut, hparts, hlimits, hvisible⟩ :=
      chunkLoop_parts hmaximum hvalue hsafe.pairs (hsafe.firstVisible hmaximum)
    refine ⟨?_, ⟨parts, hcut, hparts⟩, fun hblank => ?_⟩ <;> rw [hparts]
    · exact List.forall_mem_map.2 hlimits
    · exact List.forall_mem_map.2 fun part hpart h =>
        hvisible hblank part hpart (blank_escape_iff.1 h)

theorem chunks_faithful_iff_twoDots : ∃ chunks, chunkMarkdownV2 ['.', ' ', '.'] 2 = .ok chunks ∧
    (Faithful ['.', ' ', '.'] 2 chunks ↔ Safe 2 ['.', ' ', '.']) :=
  chunks_faithful_iff ['.', ' ', '.'] 2 (by decide)

/-- A pair is cut when two dots are chunked, and the first chunk of an indented text is blank. -/
theorem chunks_unfaithful :
    (∀ chunks, chunkMarkdownV2 ['.', '.'] 2 = .ok chunks → ¬Faithful ['.', '.'] 2 chunks) ∧
      ∀ chunks, chunkMarkdownV2 [' ', ' ', ' ', 'a', 'b'] 4 = .ok chunks →
        ¬Faithful [' ', ' ', ' ', 'a', 'b'] 4 chunks := by
  have hdots : chunkMarkdownV2 ['.', '.'] 2 = .ok [['\\'], ['.'], ['\\', '.']] := by
    rw [chunkMarkdownV2, dif_neg (by decide), if_neg (by decide), chunkLoop, chunkLoop, chunkLoop]
    decide
  have hindented : chunkMarkdownV2 [' ', ' ', ' ', 'a', 'b'] 4 = .ok [[' ', ' '], ['a', 'b']] := by
    rw [chunkMarkdownV2, dif_neg (by decide), if_neg (by decide), chunkLoop, chunkLoop]
    decide
  rw [hdots, hindented]
  constructor
  · rintro chunks ⟨rfl⟩ hfaithful
    obtain ⟨parts, -, hparts⟩ := hfaithful.parts
    have hmem : ['\\'] ∈ parts.map escapeMarkdownV2 := hparts ▸ .head _
    obtain ⟨part, -, hpart⟩ := List.mem_map.1 hmem
    have hodd := endsWithOdd_escape part
    rw [hpart] at hodd
    exact absurd hodd (by decide)
  · rintro chunks ⟨rfl⟩ hfaithful
    refine hfaithful.visible (fun h => ?_) [' ', ' '] (.head _) ?_
    · exact absurd (h 'a' (by decide)) (by decide)
    · exact List.forall_mem_cons.2 ⟨rfl, List.forall_mem_singleton.2 rfl⟩

end Cortex.Transports
