import Mathlib.Data.Char
import Mathlib.Data.List.DropRight
import Mathlib.Data.List.TakeWhile
import Mathlib.Data.Nat.Find

/-!
# Texts of a dynamic language

`strip`, `partition` and `rpartition` of Python's `str`, over lists of characters.
-/

namespace Cortex.PyText

/-- `str.isspace` of one character. -/
def isSpace (c : Char) : Bool :=
  let n := c.toNat
  9 ≤ n ∧ n ≤ 13 ∨ 28 ≤ n ∧ n ≤ 32 ∨ n = 0x85 ∨ n = 0xA0 ∨ n = 0x1680 ∨
    0x2000 ≤ n ∧ n ≤ 0x200A ∨ n = 0x2028 ∨ n = 0x2029 ∨ n = 0x202F ∨ n = 0x205F ∨ n = 0x3000

def lstrip (s : List Char) : List Char := s.dropWhile isSpace

def strip (s : List Char) : List Char := ((lstrip s).reverse.dropWhile isSpace).reverse

def lower (s : List Char) : List Char := s.map Char.toLower

theorem dropWhile_eq_self {α : Type*} {p : α → Bool} {s : List α} (h : ∀ c ∈ s, p c = false) :
    s.dropWhile p = s := by
  cases s with
  | nil => rfl
  | cons c s => exact List.dropWhile_cons_of_neg (by rw [h c (.head _)]; exact Bool.false_ne_true)

theorem strip_eq_self {s : List Char} (h : ∀ c ∈ s, isSpace c = false) : strip s = s := by
  have hreverse : ∀ c ∈ s.reverse, isSpace c = false := fun c hc => h c (List.mem_reverse.1 hc)
  rw [strip, lstrip, dropWhile_eq_self h, dropWhile_eq_self hreverse, List.reverse_reverse]

/-- A text is stripped once. -/
@[simp] theorem strip_strip (s : List Char) : strip (strip s) = strip s := by
  have hprefix : strip s <+: lstrip s := List.rdropWhile_prefix isSpace (lstrip s)
  have hlast : (strip s).rdropWhile isSpace = strip s := List.rdropWhile_idempotent isSpace _
  suffices hfirst : lstrip (strip s) = strip s by
    show (lstrip (strip s)).rdropWhile isSpace = strip s
    rw [hfirst, hlast]
  cases hs : strip s with
  | nil => rfl
  | cons c rest =>
      obtain ⟨tail, htail⟩ := hprefix
      have hspace := List.head?_dropWhile_not isSpace s
      rw [show s.dropWhile isSpace = lstrip s from rfl, ← htail, hs] at hspace
      exact List.dropWhile_cons_of_neg (Bool.not_eq_true _ ▸ hspace)

variable {c : Char} {s before after : List Char}

/-! ## Classes of characters -/

theorem isDigit_iff : c.isDigit = true ↔ 48 ≤ c.toNat ∧ c.toNat ≤ 57 := by
  show (decide (c.val ≥ 48) && decide (c.val ≤ 57)) = true ↔ _
  rw [Bool.and_eq_true, decide_eq_true_eq, decide_eq_true_eq, ge_iff_le, UInt32.le_iff_toNat_le,
    UInt32.le_iff_toNat_le]
  exact Iff.rfl

theorem isAlpha_iff : c.isAlpha = true ↔
    65 ≤ c.toNat ∧ c.toNat ≤ 90 ∨ 97 ≤ c.toNat ∧ c.toNat ≤ 122 := by
  show (decide (c.val ≥ 65 ∧ c.val ≤ 90) || (decide (c.val ≥ 97) && decide (c.val ≤ 122))) = true ↔ _
  rw [Bool.or_eq_true, Bool.and_eq_true, decide_eq_true_eq, decide_eq_true_eq, decide_eq_true_eq,
    ge_iff_le, ge_iff_le, UInt32.le_iff_toNat_le, UInt32.le_iff_toNat_le, UInt32.le_iff_toNat_le,
    UInt32.le_iff_toNat_le]
  exact Iff.rfl

theorem isAlphanum_iff : c.isAlphanum = true ↔ 48 ≤ c.toNat ∧ c.toNat ≤ 57 ∨
    65 ≤ c.toNat ∧ c.toNat ≤ 90 ∨ 97 ≤ c.toNat ∧ c.toNat ≤ 122 := by
  show (c.isAlpha || c.isDigit) = true ↔ _
  rw [Bool.or_eq_true, isAlpha_iff, isDigit_iff]
  exact or_comm

/-! ## Partition -/

/-- `str.partition`, without the separator: what is before its first occurrence, and after. -/
def cut (c : Char) (s : List Char) : List Char × List Char :=
  (s.takeWhile fun d => d ≠ c, (s.dropWhile fun d => d ≠ c).drop 1)

theorem cut_of_not_mem (h : c ∉ s) : cut c s = (s, []) := by
  have hall : ∀ d ∈ s, decide (d ≠ c) = true := fun d hd => decide_eq_true fun heq => h (heq ▸ hd)
  rw [cut, List.takeWhile_eq_self_iff.2 hall, List.dropWhile_eq_nil_iff.2 hall, List.drop_nil]

theorem cut_append (h : c ∉ before) : cut c (before ++ c :: after) = (before, after) := by
  have hall : ∀ d ∈ before, decide (d ≠ c) = true :=
    fun d hd => decide_eq_true fun heq => h (heq ▸ hd)
  rw [cut, List.takeWhile_append_of_pos hall, List.dropWhile_append_of_pos hall]
  simp

theorem not_mem_cut_fst : c ∉ (cut c s).1 := by
  intro h
  have hne := List.mem_takeWhile_imp h
  simp at hne

/-- A text is cut at the first occurrence. -/
theorem eq_of_cut (h : c ∈ s) : s = (cut c s).1 ++ c :: (cut c s).2 := by
  obtain ⟨before, after, rfl, hbefore⟩ := List.eq_append_cons_of_mem h
  rw [cut_append hbefore]

theorem cut_fst_subset {d : Char} (h : d ∈ (cut c s).1) : d ∈ s :=
  (List.takeWhile_prefix _).subset h

theorem cut_snd_subset {d : Char} (h : d ∈ (cut c s).2) : d ∈ s :=
  (List.dropWhile_suffix _).subset ((List.drop_sublist _ _).subset h)

/-- `str.rpartition`, the last of its parts. -/
def afterLast (c : Char) (s : List Char) : List Char :=
  (s.reverse.takeWhile fun d => d ≠ c).reverse

theorem afterLast_of_not_mem (h : c ∉ s) : afterLast c s = s := by
  have hall : ∀ d ∈ s.reverse, decide (d ≠ c) = true :=
    fun d hd => decide_eq_true fun heq => h (heq ▸ List.mem_reverse.1 hd)
  rw [afterLast, List.takeWhile_eq_self_iff.2 hall, List.reverse_reverse]

/-! ## The right end -/

/-- `str.rstrip` -/
def rstrip (s : List Char) : List Char := s.rdropWhile isSpace

/-- `str.rfind` of a character in `s[:stop]`: the index of its last occurrence, or `-1`. -/
def rfind (c : Char) (s : List Char) (stop : ℕ) : ℤ :=
  ((s.take stop).length : ℤ) - 1 - (s.take stop).reverse.idxOf c

theorem rfind_eq_neg_one {stop : ℕ} (h : c ∉ s.take stop) : rfind c s stop = -1 := by
  rw [rfind, List.idxOf_eq_length (by simpa using h), List.length_reverse]
  omega

/-- What is found is the last occurrence before the stop. -/
theorem rfind_eq {stop i : ℕ} (hstop : i < stop) (hat : s[i]? = some c)
    (hlast : ∀ j, i < j → j < stop → s[j]? ≠ some c) : rfind c s stop = i := by
  obtain ⟨hi, hget⟩ := List.getElem?_eq_some_iff.1 hat
  have hsplit : s.take stop = s.take i ++ c :: (s.take stop).drop (i + 1) := by
    conv_lhs => rw [← List.take_append_drop i (s.take stop)]
    rw [List.take_take, Nat.min_eq_left hstop.le,
      List.drop_eq_getElem_cons (by rw [List.length_take]; omega), List.getElem_take, hget]
  have hnot : c ∉ ((s.take stop).drop (i + 1)).reverse := by
    intro hmem
    obtain ⟨j, hj⟩ := List.mem_iff_getElem?.1 (List.mem_reverse.1 hmem)
    rw [List.getElem?_drop] at hj
    have hlt : i + 1 + j < (s.take stop).length := (List.getElem?_eq_some_iff.1 hj).1
    rw [List.length_take] at hlt
    rw [List.getElem?_take_of_lt (by omega)] at hj
    exact hlast _ (by omega) (by omega) hj
  rw [rfind, hsplit, List.reverse_append, List.reverse_cons, List.append_assoc,
    List.idxOf_append_of_notMem hnot]
  simp only [List.length_append, List.length_cons, List.singleton_append, List.idxOf_cons_self,
    List.length_reverse, List.length_take, Nat.add_zero]
  omega

/-- Either the character does not occur, or its last occurrence is found. -/
theorem rfind_spec (c : Char) (s : List Char) (stop : ℕ) :
    (rfind c s stop = -1 ∧ ∀ j < stop, s[j]? ≠ some c) ∨
      ∃ i : ℕ, rfind c s stop = i ∧ i < stop ∧ s[i]? = some c ∧
        ∀ j, i < j → j < stop → s[j]? ≠ some c := by
  by_cases hsome : ∃ i < stop, s[i]? = some c
  · have hbound : ∀ i, i < stop ∧ s[i]? = some c → i ≤ stop := fun i h => h.1.le
    obtain ⟨i, hi⟩ := hsome
    let last := Nat.findGreatest (fun i => i < stop ∧ s[i]? = some c) stop
    have hlast : last < stop ∧ s[last]? = some c :=
      Nat.findGreatest_spec (P := fun i => i < stop ∧ s[i]? = some c) (hbound i hi) hi
    have hafter : ∀ j, last < j → j < stop → s[j]? ≠ some c := fun j hj hjs hat =>
      Nat.findGreatest_is_greatest hj hjs.le ⟨hjs, hat⟩
    exact .inr ⟨last, rfind_eq hlast.1 hlast.2 hafter, hlast.1, hlast.2, hafter⟩
  · have hnone : ∀ j < stop, s[j]? ≠ some c := fun j hj hat => hsome ⟨j, hj, hat⟩
    refine .inl ⟨rfind_eq_neg_one fun hmem => ?_, hnone⟩
    obtain ⟨j, hj⟩ := List.mem_iff_getElem?.1 hmem
    have hlt : j < stop := by
      have := (List.getElem?_eq_some_iff.1 hj).1
      rw [List.length_take] at this
      omega
    exact hnone j hlt (by rwa [List.getElem?_take_of_lt hlt] at hj)

/-! ## Case -/

/-- Only ASCII capitals change. -/
theorem toNat_toLower (c : Char) :
    c.toLower.toNat = if 65 ≤ c.toNat ∧ c.toNat ≤ 90 then c.toNat + 32 else c.toNat := by
  have hval : c.val.toNat = c.toNat := rfl
  have hfirst : 'A'.val.toNat = 65 := rfl
  have hlast : 'Z'.val.toNat = 90 := rfl
  unfold Char.toLower
  split <;> rename_i h <;> rw [ge_iff_le, UInt32.le_iff_toNat_le, UInt32.le_iff_toNat_le] at h
  · change (c.val + 32).toNat = _
    rw [UInt32.toNat_add, show (32 : UInt32).toNat = 32 from rfl, if_pos (by omega)]
    omega
  · rw [if_neg (by omega)]

@[simp] theorem length_lower (s : List Char) : (lower s).length = s.length := List.length_map _

@[simp] theorem lower_lower (s : List Char) : lower (lower s) = lower s := by
  rw [lower, lower, List.map_map]
  refine List.map_congr_left fun c _ => Char.toNat_inj.1 ?_
  rw [Function.comp_apply, toNat_toLower c.toLower, toNat_toLower c]
  split_ifs <;> omega

theorem lower_append (s t : List Char) : lower (s ++ t) = lower s ++ lower t := List.map_append

/-- Other characters than letters are where they were. -/
theorem mem_lower_iff {d : Char} (hd : d.toNat < 65 ∨ 90 < d.toNat ∧ d.toNat < 97 ∨ 122 < d.toNat) :
    d ∈ lower s ↔ d ∈ s := by
  constructor
  · intro h
    obtain ⟨e, he, heq⟩ := List.mem_map.1 h
    have hnat := toNat_toLower e
    rw [heq] at hnat
    obtain rfl : e = d := Char.toNat_inj.1 (by split_ifs at hnat <;> omega)
    exact he
  · intro h
    refine List.mem_map.2 ⟨d, h, Char.toNat_inj.1 ?_⟩
    rw [toNat_toLower]
    split_ifs <;> omega

end Cortex.PyText
