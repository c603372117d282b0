import Mathlib.Data.List.TakeWhile
import Mathlib.Data.List.Forall2

/-!
# Regular expressions with backtracking

`founds` lists what a pattern finds at one position, in the order in which a backtracking
engine tries it, and `find` is the first of it.  `Reads` says the same without the order.
`scan` goes through a text from left to right: it copies a character where the pattern
finds nothing, and goes on after what it finds.  `sub` writes a template there.

A pattern that finds the empty text is no part of this: `Progress` excludes it.
-/

namespace Cortex.Regex

/-- A pattern.  A class of characters is a test. -/
inductive Pattern (α : Type*)
  /-- One character of each class. -/
  | chars (classes : List (α → Bool))
  /-- `[…]{least,most}`: as many characters as possible first. -/
  | run (cls : α → Bool) (least : ℕ) (most : Option ℕ)
  /-- A condition on what stands before and on what comes. -/
  | look (holds : List α → List α → Bool)
  | seq (first second : Pattern α)
  | alt (first second : Pattern α)
  | group (body : Pattern α)

/-- What is found, with its groups. -/
structure Found (α : Type*) where
  text : List α
  groups : List (List α)

/-- A part of a template; the groups are counted from 1. -/
inductive Slot (α : Type*)
  | text (chars : List α)
  | group (number : ℕ)

/-- A text as a substitution reads it. -/
inductive Token (α : Type*)
  | copied (c : α)
  | found (f : Found α)

variable {α : Type*}

/-- The text starts with a character of each class. -/
def starts : List (α → Bool) → List α → Bool
  | [], _ => true
  | _ :: _, [] => false
  | cls :: classes, c :: after => cls c && starts classes after

/-- How many characters of the class come, at most so many. -/
def runLength (cls : α → Bool) (most : Option ℕ) (after : List α) : ℕ :=
  match most with
  | none => (after.takeWhile cls).length
  | some n => min n (after.takeWhile cls).length

/-- What the pattern finds after a text, in the order of the attempts. -/
def founds : Pattern α → List α → List α → List (Found α)
  | .chars classes, _, after =>
      if starts classes after then [⟨after.take classes.length, []⟩] else []
  | .run cls least most, _, after =>
      (List.range (runLength cls most after + 1 - least)).map fun k =>
        ⟨after.take (runLength cls most after - k), []⟩
  | .look holds, before, after => if holds before after then [⟨[], []⟩] else []
  | .seq first second, before, after =>
      (founds first before after).flatMap fun f =>
        (founds second (before ++ f.text) (after.drop f.text.length)).map fun g =>
          ⟨f.text ++ g.text, f.groups ++ g.groups⟩
  | .alt first second, before, after => founds first before after ++ founds second before after
  | .group body, before, after =>
      (founds body before after).map fun f => ⟨f.text, f.text :: f.groups⟩

attribute [grind =] founds

/-- `match` -/
def find (p : Pattern α) (before after : List α) : Option (Found α) :=
  (founds p before after).head?

def Slot.expand (f : Found α) : Slot α → List α
  | .text chars => chars
  | .group number => f.groups.getD (number - 1) []

def expand (template : List (Slot α)) (f : Found α) : List α :=
  template.flatMap (Slot.expand f)

def Token.read : Token α → List α
  | .copied c => [c]
  | .found f => f.text

def Token.write (template : List (Slot α)) : Token α → List α
  | .copied c => [c]
  | .found f => expand template f

/-- The text from a position on; the characters that were found already are skipped. -/
def scan (p : Pattern α) : List α → ℕ → List α → List (Token α)
  | _, _, [] => []
  | before, skip + 1, c :: after => scan p (before ++ [c]) skip after
  | before, 0, c :: after =>
      match find p before (c :: after) with
      | none => .copied c :: scan p (before ++ [c]) 0 after
      | some f => .found f :: scan p (before ++ [c]) (f.text.length - 1) after

/-- `sub` -/
def sub (p : Pattern α) (template : List (Slot α)) (text : List α) : List α :=
  (scan p [] 0 text).flatMap (Token.write template)

/-- `\b` -/
def boundary (isWord : α → Bool) (before after : List α) : Bool :=
  before.getLast?.any isWord != after.head?.any isWord

/-- `(?<!…)` for one character. -/
def notBehind (cls : α → Bool) (before _after : List α) : Bool := !before.getLast?.any cls

/-- `(?!…)` for one character of each class. -/
def notAhead (classes : List (α → Bool)) (_before after : List α) : Bool :=
  !starts classes after

/-! ## What a pattern reads -/

/-- The text starts with characters of these classes. -/
def OfClasses (classes : List (α → Bool)) (text : List α) : Prop :=
  List.Forall₂ (fun cls c => cls c = true) classes text

variable {p q : Pattern α} {u v w t : List α} {gs : List (List α)} {cls : α → Bool}
  {classes : List (α → Bool)}

theorem starts_iff : starts classes w = true ↔ ∃ t v, w = t ++ v ∧ OfClasses classes t := by
  induction classes generalizing w with
  | nil => exact ⟨fun _ => ⟨[], w, rfl, .nil⟩, fun _ => rfl⟩
  | cons cls classes ih =>
      cases w with
      | nil =>
          refine ⟨fun h => absurd h Bool.false_ne_true, fun ⟨t, v, hw, ht⟩ => ?_⟩
          cases ht
          cases hw
      | cons c w =>
          rw [starts, Bool.and_eq_true, ih]
          constructor
          · rintro ⟨hc, t, v, rfl, ht⟩
            exact ⟨c :: t, v, rfl, .cons hc ht⟩
          · rintro ⟨t, v, hw, ht⟩
            cases ht with
            | cons hc ht =>
                obtain ⟨rfl, rfl⟩ := List.cons.inj hw
                exact ⟨hc, _, v, rfl, ht⟩

/-- The pattern reads a text that stands between two others, in one of its ways. -/
def Reads (p : Pattern α) (u t v : List α) (gs : List (List α)) : Prop :=
  ⟨t, gs⟩ ∈ founds p u (t ++ v)

theorem mem_takeWhile_length (h : ∀ c ∈ t, cls c = true) :
    t.length ≤ ((t ++ v).takeWhile cls).length := by
  rw [List.takeWhile_append_of_pos h, List.length_append]
  omega

theorem runLength_le_length (cls : α → Bool) (most : Option ℕ) (w : List α) :
    runLength cls most w ≤ w.length := by
  have h : (w.takeWhile cls).length ≤ w.length := (List.takeWhile_prefix cls).length_le
  cases most with
  | none => exact h
  | some n => exact (min_le_right _ _).trans h

/-- What is found is the start of the text. -/
theorem text_start {f : Found α} (h : f ∈ founds p u w) : f.text <+: w := by
  induction p generalizing u w f with
  | chars classes =>
      rw [founds] at h
      split_ifs at h
      · rw [List.mem_singleton.1 h]
        exact List.take_prefix _ _
      · cases h
  | run cls least most =>
      obtain ⟨k, -, rfl⟩ := List.mem_map.1 h
      exact List.take_prefix _ _
  | look holds =>
      rw [founds] at h
      split_ifs at h
      · rw [List.mem_singleton.1 h]
        exact List.nil_prefix
      · cases h
  | seq first second ihf ihs =>
      obtain ⟨g, hg, h⟩ := List.mem_flatMap.1 h
      obtain ⟨k, hk, rfl⟩ := List.mem_map.1 h
      obtain ⟨w, rfl⟩ := ihf hg
      rw [List.drop_left] at hk
      exact (List.prefix_append_right_inj _).2 (ihs hk)
  | alt first second ihf ihs =>
      rcases List.mem_append.1 h with h | h
      · exact ihf h
      · exact ihs h
  | group body ih =>
      obtain ⟨g, hg, rfl⟩ := List.mem_map.1 h
      exact ih (f := g) hg

theorem reads_chars : Reads (.chars classes) u t v gs ↔ gs = [] ∧ OfClasses classes t := by
  rw [Reads, founds]
  constructor
  · intro h
    split_ifs at h with hstarts
    · obtain ⟨s, r, heq, hs⟩ := starts_iff.1 hstarts
      obtain ⟨ht, hgs⟩ := Found.mk.inj (List.mem_singleton.1 h)
      rw [heq, hs.length_eq, List.take_left] at ht
      exact ⟨hgs, ht ▸ hs⟩
    · cases h
  · rintro ⟨rfl, ht⟩
    rw [if_pos (starts_iff.2 ⟨t, v, rfl, ht⟩), ht.length_eq, List.take_left]
    exact .head _

theorem reads_run {least : ℕ} {most : Option ℕ} :
    Reads (.run cls least most) u t v gs ↔
      gs = [] ∧ least ≤ t.length ∧ (∀ n ∈ most, t.length ≤ n) ∧ ∀ c ∈ t, cls c = true := by
  rw [Reads, founds, List.mem_map]
  constructor
  · rintro ⟨k, hk, hfound⟩
    obtain ⟨ht, hgs⟩ := Found.mk.inj hfound
    rw [List.mem_range] at hk
    have hle := runLength_le_length cls most (t ++ v)
    have hlength : t.length = runLength cls most (t ++ v) - k := by
      have h := congrArg List.length ht
      rw [List.length_take, min_eq_left (by omega)] at h
      exact h.symm
    have hrun : runLength cls most (t ++ v) ≤ ((t ++ v).takeWhile cls).length := by
      cases most with
      | none => exact le_rfl
      | some n => exact min_le_right _ _
    refine ⟨hgs.symm, by omega, fun n hn => ?_, fun c hc => ?_⟩
    · have hn : runLength cls most (t ++ v) ≤ n := by
        rw [Option.mem_def.1 hn]
        exact min_le_left _ _
      omega
    · -- the text that was found is the start of the longest run
      have hstart : t <+: (t ++ v).takeWhile cls :=
        List.prefix_of_prefix_length_le (List.prefix_append _ _) (List.takeWhile_prefix cls)
          (by omega)
      exact List.mem_takeWhile_imp (hstart.subset hc)
  · rintro ⟨rfl, hleast, hmost, ht⟩
    have hlength := mem_takeWhile_length (v := v) ht
    have hrun : t.length ≤ runLength cls most (t ++ v) := by
      cases most with
      | none => exact hlength
      | some n => exact le_min (hmost n rfl) hlength
    refine ⟨runLength cls most (t ++ v) - t.length, List.mem_range.2 (by omega), ?_⟩
    rw [Nat.sub_sub_self hrun, List.take_left]

theorem reads_look {holds : List α → List α → Bool} :
    Reads (.look holds) u t v gs ↔ gs = [] ∧ t = [] ∧ holds u v = true := by
  rw [Reads, founds]
  constructor
  · intro h
    split_ifs at h with hholds
    · obtain ⟨rfl, rfl⟩ := Found.mk.inj (List.mem_singleton.1 h)
      exact ⟨rfl, rfl, hholds⟩
    · cases h
  · rintro ⟨rfl, rfl, h⟩
    rw [List.nil_append, if_pos h]
    exact .head _

theorem reads_seq : Reads (.seq p q) u t v gs ↔
    ∃ t₁ t₂ g₁ g₂, t = t₁ ++ t₂ ∧ gs = g₁ ++ g₂ ∧ Reads p u t₁ (t₂ ++ v) g₁ ∧
      Reads q (u ++ t₁) t₂ v g₂ := by
  rw [Reads, founds, List.mem_flatMap]
  constructor
  · rintro ⟨f, hf, h⟩
    obtain ⟨g, hg, hfound⟩ := List.mem_map.1 h
    obtain ⟨rfl, rfl⟩ := Found.mk.inj hfound
    rw [List.append_assoc] at hf hg
    rw [List.drop_left] at hg
    exact ⟨f.text, g.text, f.groups, g.groups, rfl, rfl, hf, hg⟩
  · rintro ⟨t₁, t₂, g₁, g₂, rfl, rfl, hp, hq⟩
    refine ⟨⟨t₁, g₁⟩, by rwa [List.append_assoc], List.mem_map.2 ⟨⟨t₂, g₂⟩, ?_, rfl⟩⟩
    rwa [List.append_assoc, List.drop_left]

theorem reads_alt : Reads (.alt p q) u t v gs ↔ Reads p u t v gs ∨ Reads q u t v gs :=
  List.mem_append

theorem reads_group : Reads (.group p) u t v gs ↔ ∃ gs', gs = t :: gs' ∧ Reads p u t v gs' := by
  rw [Reads, founds, List.mem_map]
  constructor
  · rintro ⟨f, hf, hfound⟩
    obtain ⟨rfl, rfl⟩ := Found.mk.inj hfound
    exact ⟨f.groups, rfl, hf⟩
  · rintro ⟨gs', rfl, h⟩
    exact ⟨⟨t, gs'⟩, h, rfl⟩

/-! ## What is found first -/

theorem find_eq_none_iff :
    find p u w = none ↔ ∀ t v gs, w = t ++ v → ¬Reads p u t v gs := by
  rw [find, List.head?_eq_none_iff, List.eq_nil_iff_forall_not_mem]
  constructor
  · rintro h t v gs rfl hreads
    exact h _ hreads
  · intro h f hf
    obtain ⟨v, rfl⟩ := text_start hf
    exact h f.text v f.groups rfl hf

theorem reads_of_find (h : find p u (t ++ v) = some ⟨t, gs⟩) : Reads p u t v gs :=
  List.mem_of_head? h

/-- What is found, with the rest of the text. -/
theorem find_eq_some {f : Found α} (h : find p u w = some f) : ∃ v, w = f.text ++ v := by
  obtain ⟨v, hv⟩ := text_start (List.mem_of_head? h)
  exact ⟨v, hv.symm⟩

theorem head?_flatMap_eq_some {β γ : Type*} {l : List β} {f : β → List γ} {c : γ}
    (h : (l.flatMap f).head? = some c) : ∃ b ∈ l, (f b).head? = some c := by
  induction l with
  | nil => cases h
  | cons b l ih =>
      rw [List.flatMap_cons] at h
      cases hb : f b with
      | nil =>
          rw [hb, List.nil_append] at h
          obtain ⟨d, hd, hc⟩ := ih h
          exact ⟨d, .tail _ hd, hc⟩
      | cons e rest =>
          rw [hb] at h
          exact ⟨b, .head _, by rw [hb]; exact h⟩

/-- After a first part that is read, the second part finds what it finds first. -/
theorem find_seq (h : find (.seq p q) u (t ++ v) = some ⟨t, gs⟩) :
    ∃ t₁ t₂ g₁ g₂, t = t₁ ++ t₂ ∧ gs = g₁ ++ g₂ ∧ Reads p u t₁ (t₂ ++ v) g₁ ∧
      find q (u ++ t₁) (t₂ ++ v) = some ⟨t₂, g₂⟩ := by
  obtain ⟨f, hf, hfound⟩ := head?_flatMap_eq_some h
  rw [List.head?_map, Option.map_eq_some_iff] at hfound
  obtain ⟨g, hg, hfound⟩ := hfound
  obtain ⟨rfl, rfl⟩ := Found.mk.inj hfound
  rw [List.append_assoc] at hf hg
  rw [List.drop_left] at hg
  exact ⟨f.text, g.text, f.groups, g.groups, rfl, rfl, hf, hg⟩

/-- A run without a bound ends where its class does. -/
theorem find_run {least : ℕ} (h : find (.run cls least none) u (t ++ v) = some ⟨t, gs⟩) :
    ∀ c ∈ v.head?, cls c = false := by
  have hread := reads_run.1 (reads_of_find h)
  rw [find, founds, List.head?_map, Option.map_eq_some_iff] at h
  obtain ⟨k, hk, hfound⟩ := h
  have hzero : k = 0 := by
    cases hn : runLength cls none (t ++ v) + 1 - least with
    | zero =>
        rw [hn] at hk
        cases hk
    | succ n =>
        rw [hn, List.range_succ_eq_map] at hk
        exact (Option.some.inj hk).symm
  have ht := congrArg List.length (Found.mk.inj hfound).1
  rw [hzero, Nat.sub_zero, List.length_take,
    min_eq_left (runLength_le_length cls none (t ++ v))] at ht
  intro c hc
  cases v with
  | nil => cases hc
  | cons d v =>
      obtain rfl := Option.some.inj hc
      by_contra hcls
      rw [runLength, List.takeWhile_append_of_pos hread.2.2.2,
        List.takeWhile_cons_of_pos (by simpa using hcls), List.length_append] at ht
      simp at ht

theorem find_look_seq {holds : List α → List α → Bool}
    (h : find (.seq (.look holds) q) u (t ++ v) = some ⟨t, gs⟩) :
    holds u (t ++ v) = true ∧ find q u (t ++ v) = some ⟨t, gs⟩ := by
  obtain ⟨t₁, t₂, g₁, g₂, rfl, rfl, hlook, hq⟩ := find_seq h
  obtain ⟨rfl, rfl, hholds⟩ := reads_look.1 hlook
  rw [List.append_nil] at hq
  exact ⟨hholds, hq⟩

theorem find_chars_seq (h : find (.seq (.chars classes) q) u (t ++ v) = some ⟨t, gs⟩) :
    ∃ t₁ t₂, t = t₁ ++ t₂ ∧ OfClasses classes t₁ ∧
      find q (u ++ t₁) (t₂ ++ v) = some ⟨t₂, gs⟩ := by
  obtain ⟨t₁, t₂, g₁, g₂, rfl, rfl, hchars, hq⟩ := find_seq h
  obtain ⟨rfl, ht⟩ := reads_chars.1 hchars
  exact ⟨t₁, t₂, rfl, ht, hq⟩

theorem find_run_seq {least : ℕ} {most : Option ℕ}
    (h : find (.seq (.run cls least most) q) u (t ++ v) = some ⟨t, gs⟩) :
    ∃ t₁ t₂, t = t₁ ++ t₂ ∧ least ≤ t₁.length ∧ (∀ c ∈ t₁, cls c = true) ∧
      find q (u ++ t₁) (t₂ ++ v) = some ⟨t₂, gs⟩ := by
  obtain ⟨t₁, t₂, g₁, g₂, rfl, rfl, hrun, hq⟩ := find_seq h
  obtain ⟨rfl, hleast, -, ht⟩ := reads_run.1 hrun
  exact ⟨t₁, t₂, rfl, hleast, ht, hq⟩

theorem find_group_seq (h : find (.seq (.group p) q) u (t ++ v) = some ⟨t, gs⟩) :
    ∃ t₁ t₂ g₁ g₂, t = t₁ ++ t₂ ∧ gs = t₁ :: (g₁ ++ g₂) ∧ Reads p u t₁ (t₂ ++ v) g₁ ∧
      find q (u ++ t₁) (t₂ ++ v) = some ⟨t₂, g₂⟩ := by
  obtain ⟨t₁, t₂, g₁, g₂, rfl, rfl, hgroup, hq⟩ := find_seq h
  obtain ⟨g₁, rfl, hp⟩ := reads_group.1 hgroup
  exact ⟨t₁, t₂, g₁, g₂, rfl, rfl, hp, hq⟩

/-- A run at the end of a pattern is as long as its class. -/
theorem find_last_run {least : ℕ} (h : find (.run cls least none) u (t ++ v) = some ⟨t, gs⟩) :
    gs = [] ∧ least ≤ t.length ∧ (∀ c ∈ t, cls c = true) ∧ ∀ c ∈ v.head?, cls c = false := by
  obtain ⟨hgs, hleast, -, ht⟩ := reads_run.1 (reads_of_find h)
  exact ⟨hgs, hleast, ht, find_run h⟩

/-! ## The way through a text -/

/-- The pattern never finds the empty text. -/
def Progress (p : Pattern α) : Prop :=
  ∀ u w f, find p u w = some f → f.text ≠ []

/-- What a list of tokens was read from. -/
def readAll (tokens : List (Token α)) : List α := tokens.flatMap Token.read

/-- The tokens are what the pattern makes of the text after another one. -/
inductive Traced (p : Pattern α) : List α → List (Token α) → Prop
  | nil (u : List α) : Traced p u []
  | copied {u c tokens} (hfind : find p u (c :: readAll tokens) = none)
      (hrest : Traced p (u ++ [c]) tokens) : Traced p u (.copied c :: tokens)
  | found {u f tokens} (hfind : find p u (f.text ++ readAll tokens) = some f)
      (hrest : Traced p (u ++ f.text) tokens) : Traced p u (.found f :: tokens)

theorem readAll_append (S T : List (Token α)) : readAll (S ++ T) = readAll S ++ readAll T :=
  List.flatMap_append

theorem scan_skip (u t v : List α) : scan p u t.length (t ++ v) = scan p (u ++ t) 0 v := by
  induction t generalizing u with
  | nil => rw [List.append_nil]; rfl
  | cons c t ih =>
      rw [List.length_cons, List.cons_append, scan, ih, List.append_assoc]
      rfl

theorem scan_of_none {c : α} (h : find p u (c :: w) = none) :
    scan p u 0 (c :: w) = .copied c :: scan p (u ++ [c]) 0 w := by
  rw [scan, h]

theorem scan_of_some {f : Found α} (h : find p u (f.text ++ v) = some f) (hf : f.text ≠ []) :
    scan p u 0 (f.text ++ v) = .found f :: scan p (u ++ f.text) 0 v := by
  obtain ⟨c, t, ht⟩ := List.exists_cons_of_ne_nil hf
  rw [ht, List.cons_append] at h
  have hskip := scan_skip (p := p) (u ++ [c]) t v
  rw [List.append_assoc, List.singleton_append] at hskip
  rw [ht, List.cons_append, scan, h]
  show Token.found f :: scan p (u ++ [c]) (f.text.length - 1) (t ++ v) = _
  rw [ht, List.length_cons, Nat.add_sub_cancel, hskip]

/-- Every scan is traced, and it reads its text. -/
theorem scan_traced (hp : Progress p) (u w : List α) :
    Traced p u (scan p u 0 w) ∧ readAll (scan p u 0 w) = w := by
  induction hn : w.length using Nat.strong_induction_on generalizing u w with
  | _ n ih =>
    cases w with
    | nil => exact ⟨.nil u, rfl⟩
    | cons c w =>
        cases h : find p u (c :: w) with
        | none =>
            obtain ⟨htrace, hread⟩ := ih w.length (by simp [← hn]) (u ++ [c]) w rfl
            rw [scan_of_none h]
            refine ⟨.copied (by rwa [hread]) htrace, ?_⟩
            show c :: readAll _ = _
            rw [hread]
        | some f =>
            obtain ⟨v, hv⟩ := find_eq_some h
            have hf := hp u _ f h
            rw [hv] at h hn ⊢
            have hlength : v.length < n := by
              rw [← hn, List.length_append]
              have := List.length_pos_iff.2 hf
              omega
            obtain ⟨htrace, hread⟩ := ih v.length hlength (u ++ f.text) v rfl
            rw [scan_of_some h hf]
            refine ⟨.found (by rwa [hread]) htrace, ?_⟩
            show f.text ++ readAll _ = _
            rw [hread]

/-- The tokens after a part of them. -/
theorem Traced.drop {S T : List (Token α)} (h : Traced p u (S ++ T)) :
    Traced p (u ++ readAll S) T := by
  induction S generalizing u with
  | nil => rwa [readAll, List.flatMap_nil, List.append_nil]
  | cons token S ih =>
      cases h with
      | copied hfind hrest =>
          have h := ih hrest
          rwa [List.append_assoc] at h
      | found hfind hrest =>
          have h := ih hrest
          rwa [List.append_assoc] at h

/-- A text in which every match is written back as it was read stays as it is. -/
theorem sub_eq_self {template : List (Slot α)} (hp : Progress p)
    (h : ∀ u f v, w = u ++ (f.text ++ v) → find p u (f.text ++ v) = some f →
      expand template f = f.text) : sub p template w = w := by
  have hwrite : ∀ (T : List (Token α)) (u : List α), Traced p u T → w = u ++ readAll T →
      T.flatMap (Token.write template) = readAll T := by
    intro T
    induction T with
    | nil => exact fun _ _ _ => rfl
    | cons token T ih =>
        intro u htrace hw
        cases htrace with
        | copied hfind hrest =>
            have hT := ih _ hrest (by rw [hw, List.append_assoc]; rfl)
            rw [List.flatMap_cons, hT]
            rfl
        | found hfind hrest =>
            have hT := ih _ hrest (by rw [hw, List.append_assoc]; rfl)
            rw [List.flatMap_cons, hT]
            show expand template _ ++ readAll T = _
            rw [h u _ _ hw hfind]
            rfl
  obtain ⟨htrace, hread⟩ := scan_traced hp [] w
  rw [sub, hwrite _ [] htrace (by rw [hread, List.nil_append]), hread]

end Cortex.Regex
