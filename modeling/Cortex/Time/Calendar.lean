import Cortex.Library.Decimal

/-!
# The proleptic Gregorian calendar

The ordinal arithmetic of Python's `datetime`, from which `astimezone` and the
addition of a `timedelta` are computed: `ymd2ord` counts days from
`0001-01-01`, `ord2ymd` inverts it by the 400, 100, 4 and 1 year cycles.

The two facts the time stamps need are `ymd2ord_lt`, which says that the day
count follows the lexicographic order of year, month and day, and
`ymd2ord_ord2ymd`, which says that a converted instant is still the same day.
-/

namespace Cortex.Calendar

def isLeap (year : ℕ) : Bool := year % 4 = 0 ∧ (year % 100 ≠ 0 ∨ year % 400 = 0)

/-- Days of a month, by whether the year is a leap year. -/
def monthLength (leap : Bool) : ℕ → ℕ
  | 2 => if leap then 29 else 28
  | 4 | 6 | 9 | 11 => 30
  | _ => 31

def daysInMonth (year month : ℕ) : ℕ := monthLength (isLeap year) month

def daysBeforeYear (year : ℕ) : ℕ :=
  let y := year - 1
  y * 365 + y / 4 - y / 100 + y / 400

/-- Days before a month, by whether the year is a leap year. -/
def monthOffset (leap : Bool) (month : ℕ) : ℕ :=
  ((List.range month).drop 1).foldl (fun days m => days + monthLength leap m) 0

def daysBeforeMonth (year month : ℕ) : ℕ := monthOffset (isLeap year) month

/-- `_ymd2ord`: the day number, with `0001-01-01` as day 1. -/
def ymd2ord (year month day : ℕ) : ℕ :=
  daysBeforeYear year + daysBeforeMonth year month + day

/-- The tail of `_ord2ymd`: month and day of a day of the year, counted from 0. -/
def monthDay (leap : Bool) (n : ℕ) : ℕ × ℕ :=
  let month := (n + 50) / 32
  -- The estimate is exact or one too large.
  if monthOffset leap month > n then (month - 1, n - monthOffset leap (month - 1) + 1)
  else (month, n - monthOffset leap month + 1)

/-- `_ord2ymd`: year, month and day of a day number. -/
def ord2ymd (ordinal : ℕ) : ℕ × ℕ × ℕ :=
  let n := ordinal - 1
  let n400 := n / 146097
  let n := n % 146097
  let n100 := n / 36524
  let n := n % 36524
  let n4 := n / 1461
  let n := n % 1461
  let n1 := n / 365
  let n := n % 365
  let year := n400 * 400 + n100 * 100 + n4 * 4 + n1 + 1
  if n1 = 4 ∨ n100 = 4 then (year - 1, 12, 31)
  else (year, monthDay (n1 = 3 ∧ (n4 ≠ 24 ∨ n100 = 3)) n)

/-- A day of the calendar, as `datetime` accepts it. -/
def ValidDate (year month day : ℕ) : Prop :=
  1 ≤ year ∧ year ≤ 9999 ∧ 1 ≤ month ∧ month ≤ 12 ∧ 1 ≤ day ∧ day ≤ daysInMonth year month

instance (year month day : ℕ) : Decidable (ValidDate year month day) := by
  unfold ValidDate
  infer_instance

/-- The number of days `datetime` can represent. -/
def dayCount : ℕ := 3652059

/-! ## The day count is monotone -/

theorem monthLength_le (leap : Bool) (month : ℕ) : monthLength leap month ≤ 31 := by
  unfold monthLength
  cases leap <;> split <;> simp

private theorem monthOffset_add_le (leap : Bool) {month later : ℕ} (hmonth : 1 ≤ month)
    (hlt : month < later) (hlater : later ≤ 12) :
    monthOffset leap month + monthLength leap month ≤ monthOffset leap later := by
  cases leap <;> interval_cases later <;> interval_cases month <;> decide

private theorem yearLength_le (leap : Bool) {month : ℕ} (hmonth : 1 ≤ month) (hle : month ≤ 12) :
    monthOffset leap month + monthLength leap month ≤ 365 + leap.toNat := by
  cases leap <;> interval_cases month <;> decide

private theorem daysBeforeYear_succ {year : ℕ} (hyear : 1 ≤ year) :
    daysBeforeYear (year + 1) = daysBeforeYear year + 365 + (isLeap year).toNat := by
  obtain ⟨y, rfl⟩ : ∃ y, year = y + 1 := ⟨year - 1, by omega⟩
  have hcentury : y / 100 ≤ y / 4 := Nat.div_le_div_left (by norm_num) (by norm_num)
  have h100 : 100 ∣ y + 1 → 4 ∣ y + 1 := Nat.dvd_trans (by decide)
  have h400 : 400 ∣ y + 1 → 100 ∣ y + 1 := Nat.dvd_trans (by decide)
  have hleap : (isLeap (y + 1)).toNat =
      if 4 ∣ y + 1 ∧ (¬100 ∣ y + 1 ∨ 400 ∣ y + 1) then 1 else 0 := by
    simp only [isLeap, Nat.dvd_iff_mod_eq_zero]
    split <;> simp_all
  simp only [daysBeforeYear, Nat.add_sub_cancel, hleap, Nat.succ_div (a := y)]
  by_cases h : 4 ∣ y + 1
  · by_cases h' : 100 ∣ y + 1
    · by_cases h'' : 400 ∣ y + 1 <;> simp only [h, h', h''] <;> simp <;> omega
    · have h'' : ¬400 ∣ y + 1 := fun h'' => h' (h400 h'')
      simp only [h, h', h'']
      simp
      omega
  · have h' : ¬100 ∣ y + 1 := fun h' => h (h100 h')
    have h'' : ¬400 ∣ y + 1 := fun h'' => h' (h400 h'')
    simp only [h, h', h'']
    simp
    omega

private theorem daysBeforeYear_mono {year later : ℕ} (hyear : 1 ≤ year) (hle : year ≤ later) :
    daysBeforeYear year ≤ daysBeforeYear later := by
  induction later, hle using Nat.le_induction with
  | base => exact le_rfl
  | succ later hle ih =>
      rw [daysBeforeYear_succ (hyear.trans hle)]
      omega

/-- Year, month and day compared field by field. -/
def DateLt (y m d y' m' d' : ℕ) : Prop :=
  y < y' ∨ y = y' ∧ (m < m' ∨ m = m' ∧ d < d')

/-- The day count follows the calendar order. -/
theorem ymd2ord_lt {y m d y' m' d' : ℕ} (h : ValidDate y m d) (h' : ValidDate y' m' d')
    (hlt : DateLt y m d y' m' d') : ymd2ord y m d < ymd2ord y' m' d' := by
  obtain ⟨hy, -, hm, hm12, -, hd⟩ := h
  obtain ⟨-, -, -, hm12', hd', -⟩ := h'
  simp only [ymd2ord, daysBeforeMonth, daysInMonth] at *
  rcases hlt with hlt | ⟨rfl, hlt | ⟨rfl, hlt⟩⟩
  · have hyear := yearLength_le (isLeap y) hm hm12
    have hnext := daysBeforeYear_mono (by omega : 1 ≤ y + 1) (show y + 1 ≤ y' from hlt)
    rw [daysBeforeYear_succ hy] at hnext
    omega
  · have hmonth := monthOffset_add_le (isLeap y) hm hlt hm12'
    omega
  · omega

/-! ## The inverse -/

private theorem monthDay_spec (leap : Bool) (n : Fin 366) (hn : n.val < 365 + leap.toNat) :
    1 ≤ (monthDay leap n).1 ∧ (monthDay leap n).1 ≤ 12 ∧ 1 ≤ (monthDay leap n).2 ∧
      (monthDay leap n).2 ≤ monthLength leap (monthDay leap n).1 ∧
      monthOffset leap (monthDay leap n).1 + (monthDay leap n).2 = n.val + 1 := by
  revert n leap
  decide +kernel

/-- The year part of `_ord2ymd`: `c` whole cycles of each length make the years before. -/
private theorem daysBeforeYear_cycles (n400 n100 n4 n1 : ℕ) (h100 : n100 ≤ 3) (h4 : n4 ≤ 24)
    (h1 : n1 ≤ 3) :
    daysBeforeYear (n400 * 400 + n100 * 100 + n4 * 4 + n1 + 1) =
      146097 * n400 + 36524 * n100 + 1461 * n4 + 365 * n1 := by
  have hq4 : (n400 * 400 + n100 * 100 + n4 * 4 + n1) / 4 = 100 * n400 + 25 * n100 + n4 := by omega
  have hq100 : (n400 * 400 + n100 * 100 + n4 * 4 + n1) / 100 = 4 * n400 + n100 := by omega
  have hq400 : (n400 * 400 + n100 * 100 + n4 * 4 + n1) / 400 = n400 := by omega
  simp only [daysBeforeYear, Nat.add_sub_cancel, hq4, hq100, hq400]
  omega

private theorem isLeap_cycles (n400 n100 n4 n1 : ℕ) (h100 : n100 ≤ 3) (h4 : n4 ≤ 24) (h1 : n1 ≤ 3) :
    isLeap (n400 * 400 + n100 * 100 + n4 * 4 + n1 + 1) = decide (n1 = 3 ∧ (n4 ≠ 24 ∨ n100 = 3)) := by
  simp only [isLeap]
  congr 1
  apply propext
  omega

/-- `_ord2ymd` names a day of the calendar, and the day it was asked for. -/
theorem ord2ymd_spec {ordinal : ℕ} (hpos : 1 ≤ ordinal) (hle : ordinal ≤ dayCount) :
    ValidDate (ord2ymd ordinal).1 (ord2ymd ordinal).2.1 (ord2ymd ordinal).2.2 ∧
      ymd2ord (ord2ymd ordinal).1 (ord2ymd ordinal).2.1 (ord2ymd ordinal).2.2 = ordinal := by
  obtain ⟨n, rfl⟩ : ∃ n, ordinal = n + 1 := ⟨ordinal - 1, by omega⟩
  simp only [dayCount] at hle
  obtain ⟨n400, hn400⟩ : ∃ q, q = n / 146097 := ⟨_, rfl⟩
  obtain ⟨n100, hn100⟩ : ∃ q, q = n % 146097 / 36524 := ⟨_, rfl⟩
  obtain ⟨n4, hn4⟩ : ∃ q, q = n % 146097 % 36524 / 1461 := ⟨_, rfl⟩
  obtain ⟨n1, hn1⟩ : ∃ q, q = n % 146097 % 36524 % 1461 / 365 := ⟨_, rfl⟩
  obtain ⟨r, hr⟩ : ∃ r, r = n % 146097 % 36524 % 1461 % 365 := ⟨_, rfl⟩
  have hsum : n = 146097 * n400 + 36524 * n100 + 1461 * n4 + 365 * n1 + r := by omega
  have hn4le : n4 ≤ 24 := by omega
  have hn400le : n400 ≤ 24 := by omega
  simp only [ord2ymd, Nat.add_sub_cancel, ← hn400, ← hn100, ← hn4, ← hn1, ← hr]
  split
  · rename_i hlast
    -- The last day of a leap year, which four 365 day years and every 100 year cycle leave over.
    have hr0 : r = 0 := by omega
    obtain ⟨m100, m4, hm100, hm4, hyear, hdays, hleapyear⟩ : ∃ m100 m4, m100 ≤ 3 ∧ m4 ≤ 24 ∧
        n400 * 400 + n100 * 100 + n4 * 4 + n1 = n400 * 400 + m100 * 100 + m4 * 4 + 3 + 1 ∧
        146097 * n400 + 36524 * m100 + 1461 * m4 + 365 * 3 + 365 = n ∧
        (m4 ≠ 24 ∨ m100 = 3) := by
      rcases hlast with h | h
      · exact ⟨n100, n4, by omega, by omega, by omega, by omega, by omega⟩
      · exact ⟨3, 24, by omega, by omega, by omega, by omega, by omega⟩
    have hleap := isLeap_cycles n400 m100 m4 3 hm100 hm4 le_rfl
    have hcycles := daysBeforeYear_cycles n400 m100 m4 3 hm100 hm4 le_rfl
    rw [decide_eq_true (⟨rfl, hleapyear⟩ : 3 = 3 ∧ (m4 ≠ 24 ∨ m100 = 3))] at hleap
    have hoffset : monthOffset true 12 = 335 := by decide
    simp only [hyear, ValidDate, daysInMonth, ymd2ord, daysBeforeMonth, hleap, hcycles, hoffset,
      monthLength]
    omega
  · rename_i hlast
    rw [not_or] at hlast
    have hn1le : n1 ≤ 3 := by omega
    have hn100le : n100 ≤ 3 := by omega
    have hleap := isLeap_cycles n400 n100 n4 n1 hn100le hn4le hn1le
    have hcycles := daysBeforeYear_cycles n400 n100 n4 n1 hn100le hn4le hn1le
    have hmonth := monthDay_spec (decide (n1 = 3 ∧ (n4 ≠ 24 ∨ n100 = 3))) ⟨r, by omega⟩
      (by simp only; omega)
    simp only at hmonth
    simp only [ValidDate, daysInMonth, ymd2ord, daysBeforeMonth, hleap, hcycles]
    omega

end Cortex.Calendar
