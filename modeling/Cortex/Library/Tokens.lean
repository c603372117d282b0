import Mathlib.Data.List.Infix

/-!
# Joined tokens

When tokens without a separator in them are joined by it, one joined text is a part of
another exactly if its tokens are next to each other in the other one, but that its
first token may start and its last token may end inside a token (`infix_join_iff`).
-/

namespace Cortex.Tokens

variable {α : Type*} {s : α} {p q x y u v : List α} {w f : List (List α)}

/-- The tokens, with a separator between any two. -/
def join (s : α) (w : List (List α)) : List α := [s].intercalate w

/-- Tokens, with more before the first one and after the last one. -/
def widen (p q : List α) : List (List α) → List (List α)
  | [] => []
  | [x] => [p ++ x ++ q]
  | x :: y :: w => (p ++ x) :: widen [] q (y :: w)

@[simp] theorem join_nil (s : α) : join s [] = [] := List.intercalate_nil

@[simp] theorem join_singleton (s : α) (x : List α) : join s [x] = x :=
  List.intercalate_singleton

theorem join_cons (s : α) (x : List α) (h : w ≠ []) : join s (x :: w) = x ++ s :: join s w := by
  rw [join, List.intercalate_cons_of_ne_nil h, List.append_assoc]
  rfl

/-- What is joined comes from a token, or between two. -/
theorem mem_join {c : α} (h : c ∈ join s w) : c = s ∨ ∃ x ∈ w, c ∈ x := by
  induction w with
  | nil => simp at h
  | cons x w ih =>
      by_cases hw : w = []
      · subst hw
        rw [join_singleton] at h
        exact .inr ⟨x, .head _, h⟩
      · rw [join_cons _ _ hw, List.mem_append, List.mem_cons] at h
        rcases h with h | h | h
        · exact .inr ⟨x, .head _, h⟩
        · exact .inl h
        · exact (ih h).imp_right fun ⟨y, hy, hc⟩ => ⟨y, .tail _ hy, hc⟩

theorem widen_cons (p q x : List α) (h : w ≠ []) :
    widen p q (x :: w) = (p ++ x) :: widen [] q w := by
  cases w with
  | nil => exact absurd rfl h
  | cons y w => rfl

theorem widen_nil (w : List (List α)) : widen [] [] w = w := by
  induction w with
  | nil => rfl
  | cons x w ih =>
      cases w with
      | nil => simp [widen]
      | cons y w => rw [widen_cons _ _ _ (List.cons_ne_nil _ _), ih, List.nil_append]

theorem widen_ne_nil (h : w ≠ []) : widen p q w ≠ [] := by
  cases w with
  | nil => exact absurd rfl h
  | cons x w => cases w <;> exact List.cons_ne_nil _ _

theorem join_widen (h : w ≠ []) : join s (widen p q w) = p ++ join s w ++ q := by
  induction w generalizing p with
  | nil => exact absurd rfl h
  | cons x w ih =>
      cases w with
      | nil => rw [widen, join_singleton, join_singleton]
      | cons y w =>
          have hne : y :: w ≠ [] := List.cons_ne_nil _ _
          rw [widen_cons _ _ _ hne, join_cons _ _ (widen_ne_nil hne), ih hne, join_cons _ _ hne]
          simp

theorem join_append (hw : w ≠ []) (hf : f ≠ []) :
    join s (w ++ f) = join s w ++ s :: join s f := by
  induction w with
  | nil => exact absurd rfl hw
  | cons x w ih =>
      cases w with
      | nil => rw [List.singleton_append, join_cons _ _ hf, join_singleton]
      | cons y w =>
          rw [List.cons_append, join_cons _ _ (by simp), ih (List.cons_ne_nil _ _),
            join_cons _ _ (List.cons_ne_nil _ _)]
          simp

/-- Neighbouring tokens are joined to a part of the text. -/
theorem join_infix_of_infix (h : w <:+: f) : join s w <:+: join s f := by
  obtain ⟨a, b, rfl⟩ := h
  by_cases hw : w = []
  · rw [hw]
    exact (List.nil_prefix).isInfix
  have hright : join s w <:+: join s (w ++ b) := by
    by_cases hb : b = []
    · rw [hb, List.append_nil]
    · rw [join_append hw hb]
      exact (List.prefix_append _ _).isInfix
  by_cases ha : a = []
  · rwa [ha, List.nil_append]
  · rw [List.append_assoc, join_append ha (by simp [hw])]
    exact hright.trans ((List.suffix_cons _ _).trans (List.suffix_append _ _)).isInfix

/-- Two texts without the separator, up to the first one. -/
theorem append_sep_inj {t t' : List α} (hx : s ∉ x) (hy : s ∉ y)
    (h : x ++ s :: t = y ++ s :: t') : x = y ∧ t = t' := by
  induction x generalizing y with
  | nil =>
      cases y with
      | nil => exact ⟨rfl, (List.cons.inj h).2⟩
      | cons d y =>
          obtain ⟨rfl, -⟩ := List.cons.inj h
          exact absurd (.head _) hy
  | cons c x ih =>
      cases y with
      | nil =>
          obtain ⟨rfl, -⟩ := List.cons.inj h
          exact absurd (.head _) hx
      | cons d y =>
          obtain ⟨rfl, htail⟩ := List.cons.inj h
          obtain ⟨rfl, ht⟩ := ih (fun hmem => hx (.tail _ hmem)) (fun hmem => hy (.tail _ hmem))
            htail
          exact ⟨rfl, ht⟩

/-- A joined text at the start of another one. -/
private theorem widen_prefix (hw : w ≠ []) (hf : f ≠ []) (hws : ∀ x ∈ w, s ∉ x)
    (hfs : ∀ y ∈ f, s ∉ y) (h : join s w ++ v = join s f) : ∃ q, widen [] q w <+: f := by
  induction w generalizing f with
  | nil => exact absurd rfl hw
  | cons x w ih =>
      obtain ⟨y, f, rfl⟩ := List.exists_cons_of_ne_nil hf
      have hx := hws x (.head _)
      have hy := hfs y (.head _)
      by_cases hw' : w = []
      · subst hw'
        -- the one token ends before the next separator
        have hprefix : x <+: y := by
          by_cases hf' : f = []
          · subst hf'
            rw [join_singleton, join_singleton] at h
            exact ⟨v, h⟩
          · rw [join_cons _ _ hf', join_singleton] at h
            obtain ⟨r, hr⟩ | ⟨r, hr⟩ := List.prefix_or_prefix_of_prefix ⟨v, h⟩ ⟨_, rfl⟩
            · exact ⟨r, hr⟩
            · cases r with
              | nil => exact ⟨[], by rw [← hr, List.append_nil, List.append_nil]⟩
              | cons c r =>
                  rw [← hr, List.append_assoc] at h
                  obtain ⟨rfl, -⟩ := List.cons.inj (List.append_cancel_left h)
                  exact absurd (hr ▸ List.mem_append_right y (.head _)) hx
        obtain ⟨q, rfl⟩ := hprefix
        exact ⟨q, f, rfl⟩
      · rw [join_cons _ _ hw', List.append_assoc, List.cons_append] at h
        by_cases hf' : f = []
        · subst hf'
          have hmem : s ∈ y := by
            rw [join_singleton] at h
            rw [← h]
            simp
          exact absurd hmem hy
        · rw [join_cons _ _ hf'] at h
          obtain ⟨rfl, htail⟩ := append_sep_inj hx hy h
          obtain ⟨q, hq⟩ := ih hw' hf' (fun x hx => hws x (.tail _ hx))
            (fun y hy => hfs y (.tail _ hy)) htail
          refine ⟨q, ?_⟩
          rw [widen_cons _ _ _ hw', List.nil_append]
          exact (List.prefix_cons_inj x).2 hq

/-- More before the first token. -/
private theorem widen_prefix_cons (hw : w ≠ []) (h : widen [] q w <+: x :: f) :
    widen p q w <+: (p ++ x) :: f := by
  obtain ⟨y, w, rfl⟩ := List.exists_cons_of_ne_nil hw
  by_cases hw' : w = []
  · subst hw'
    obtain ⟨b, hb⟩ := h
    obtain ⟨hx, hf⟩ := List.cons.inj hb
    refine ⟨b, ?_⟩
    rw [← hx]
    simpa [widen] using hf
  · rw [widen_cons _ _ _ hw'] at h ⊢
    obtain ⟨b, hb⟩ := h
    obtain ⟨hx, hf⟩ := List.cons.inj hb
    refine ⟨b, ?_⟩
    rw [← hx, ← hf]
    rfl

/-- A joined text is a part of another one exactly if its tokens are, up to the ends. -/
theorem infix_join_iff (hw : w ≠ []) (hne : ∀ x ∈ w, x ≠ []) (hws : ∀ x ∈ w, s ∉ x)
    (hfs : ∀ y ∈ f, s ∉ y) :
    join s w <:+: join s f ↔ ∃ p q, widen p q w <:+: f := by
  constructor
  · rintro ⟨u, v, h⟩
    induction f generalizing u with
    | nil =>
        obtain ⟨x, w, rfl⟩ := List.exists_cons_of_ne_nil hw
        have hnil : join s (x :: w) = [] := by
          have hlength := congrArg List.length h
          simp only [List.length_append, join_nil, List.length_nil] at hlength
          exact List.length_eq_zero_iff.1 (by omega)
        have hx := hne x (.head _)
        by_cases hw' : w = []
        · subst hw'
          rw [join_singleton] at hnil
          exact absurd hnil hx
        · rw [join_cons _ _ hw'] at hnil
          simp at hnil
    | cons y f ih =>
        -- the part starts in the first token, or after it
        by_cases hlength : u.length ≤ y.length
        · have hprefix : u <+: y := by
            have hu : u <+: join s (y :: f) := ⟨join s w ++ v, by rw [← h, List.append_assoc]⟩
            have hy : y <+: join s (y :: f) := by
              by_cases hf : f = []
              · subst hf
                rw [join_singleton]
              · rw [join_cons _ _ hf]
                exact List.prefix_append _ _
            exact List.prefix_of_prefix_length_le hu hy hlength
          obtain ⟨r, rfl⟩ := hprefix
          have hjoin : join s ((u ++ r) :: f) = u ++ join s (r :: f) := by
            by_cases hf : f = []
            · subst hf
              rw [join_singleton, join_singleton]
            · rw [join_cons _ _ hf, join_cons _ _ hf, List.append_assoc]
          rw [hjoin, List.append_assoc] at h
          have hr : ∀ z ∈ r :: f, s ∉ z := by
            intro z hz
            rcases List.mem_cons.1 hz with rfl | hz
            · exact fun hmem => hfs _ (.head _) (List.mem_append_right u hmem)
            · exact hfs z (.tail _ hz)
          obtain ⟨q, hq⟩ := widen_prefix hw (List.cons_ne_nil _ _) hws hr
            (List.append_cancel_left h)
          exact ⟨u, q, (widen_prefix_cons hw hq).isInfix⟩
        · have hf : f ≠ [] := by
            rintro rfl
            have hle := congrArg List.length h
            simp only [List.length_append, join_singleton] at hle
            omega
          rw [join_cons _ _ hf] at h
          have hprefix : y ++ [s] <+: u := by
            have hu : u <+: y ++ s :: join s f := ⟨join s w ++ v, by rw [← h, List.append_assoc]⟩
            have hy : y ++ [s] <+: y ++ s :: join s f := ⟨join s f, by simp⟩
            refine List.prefix_of_prefix_length_le hy hu ?_
            rw [List.length_append, List.length_singleton]
            omega
          obtain ⟨r, rfl⟩ := hprefix
          simp only [List.append_assoc, List.singleton_append] at h
          have h := (List.cons.inj (List.append_cancel_left h)).2
          obtain ⟨p, q, hinfix⟩ := ih (fun z hz => hfs z (.tail _ hz)) r (by rw [← h]; simp)
          exact ⟨p, q, hinfix.trans (List.suffix_cons _ _).isInfix⟩
  · rintro ⟨p, q, h⟩
    have hinfix : join s (widen p q w) <:+: join s f := join_infix_of_infix h
    rw [join_widen hw] at hinfix
    exact List.IsInfix.trans ⟨p, q, rfl⟩ hinfix

end Cortex.Tokens
