import Cortex.Time.Calendar
import Mathlib.Tactic.Linarith

/-!
# Stored time stamps

The store keeps instants as texts and lets SQLite and Python compare the texts.
There are two spellings: `formatTime` prints the fraction of a second only when
it is not zero, `formatRegistryTime` always prints six digits.

`formatRegistryTime_lt` says that the second spelling compares as time does.
`formatTime_le` says exactly when the first one does: always, unless the two
instants lie in one second and exactly one of them is a whole second
(`Straddles`).
-/

namespace Cortex.Time

open Calendar Decimal

/-- A naive `datetime`; every value of the store's clock is one in UTC. -/
structure Civil where
  year : ℕ
  month : ℕ
  day : ℕ
  hour : ℕ
  minute : ℕ
  second : ℕ
  microsecond : ℕ
  validDate : ValidDate year month day
  validTime : hour < 24 ∧ minute < 60 ∧ second < 60 ∧ microsecond < 1000000

namespace Civil

theorem validTime_noon : 12 < 24 ∧ 0 < 60 ∧ 0 < 60 ∧ 0 < 1000000 := by
  decide

/-- Whole seconds since `0001-01-01T00:00:00`. -/
def seconds (t : Civil) : ℕ :=
  ((ymd2ord t.year t.month t.day - 1) * 24 + t.hour) * 3600 + t.minute * 60 + t.second

/-- Microseconds since `0001-01-01T00:00:00`. -/
def micros (t : Civil) : ℕ := t.seconds * 1000000 + t.microsecond

private theorem one_le_ymd2ord (t : Civil) : 1 ≤ ymd2ord t.year t.month t.day := by
  have := t.validDate.2.2.2.2.1
  simp only [ymd2ord]
  omega

/-- Seconds compare as the fields do, the most significant first. -/
private theorem seconds_lt {a b : Civil} : a.seconds < b.seconds ↔
    a.year < b.year ∨ a.year = b.year ∧ (a.month < b.month ∨ a.month = b.month ∧
      (a.day < b.day ∨ a.day = b.day ∧ (a.hour < b.hour ∨ a.hour = b.hour ∧
        (a.minute < b.minute ∨ a.minute = b.minute ∧ a.second < b.second)))) := by
  have forward : ∀ {a b : Civil}, (a.year < b.year ∨ a.year = b.year ∧ (a.month < b.month ∨
      a.month = b.month ∧ (a.day < b.day ∨ a.day = b.day ∧ (a.hour < b.hour ∨ a.hour = b.hour ∧
        (a.minute < b.minute ∨ a.minute = b.minute ∧ a.second < b.second))))) →
      a.seconds < b.seconds := by
    intro a b hlt
    have ha := a.validTime
    have hb := b.validTime
    have hpos := a.one_le_ymd2ord
    by_cases hdate : DateLt a.year a.month a.day b.year b.month b.day
    · have hord := ymd2ord_lt a.validDate b.validDate hdate
      simp only [seconds]
      omega
    · obtain ⟨hy, hm, hd⟩ : a.year = b.year ∧ a.month = b.month ∧ a.day = b.day := by
        simp only [DateLt] at hdate
        omega
      simp only [seconds, hy, hm, hd]
      simp only [DateLt] at hdate
      omega
  refine ⟨fun hlt => ?_, forward⟩
  by_contra hnot
  by_cases hback : b.year < a.year ∨ b.year = a.year ∧ (b.month < a.month ∨ b.month = a.month ∧
      (b.day < a.day ∨ b.day = a.day ∧ (b.hour < a.hour ∨ b.hour = a.hour ∧
        (b.minute < a.minute ∨ b.minute = a.minute ∧ b.second < a.second))))
  · have := forward hback
    omega
  · obtain ⟨hy, hm, hd, hh, hmin, hs⟩ : a.year = b.year ∧ a.month = b.month ∧ a.day = b.day ∧
        a.hour = b.hour ∧ a.minute = b.minute ∧ a.second = b.second := by omega
    simp [seconds, hy, hm, hd, hh, hmin, hs] at hlt

private theorem micros_lt {a b : Civil} : a.micros < b.micros ↔
    a.seconds < b.seconds ∨ a.seconds = b.seconds ∧ a.microsecond < b.microsecond := by
  have ha := a.validTime.2.2.2
  have hb := b.validTime.2.2.2
  simp only [micros]
  omega

private theorem micros_le {a b : Civil} : a.micros ≤ b.micros ↔
    a.seconds < b.seconds ∨ a.seconds = b.seconds ∧ a.microsecond ≤ b.microsecond := by
  have ha := a.validTime.2.2.2
  have hb := b.validTime.2.2.2
  simp only [micros]
  omega

/-- The number of microseconds `datetime` can represent. -/
def microCount : ℤ := 315537897600000000

/-- Every representable microsecond lies on a day of the calendar. -/
private theorem day_of_micros {n : ℤ} (h : 0 ≤ n ∧ n < microCount) :
    n.toNat / 1000000 / 86400 + 1 ≤ dayCount := by
  obtain ⟨hpos, hlt⟩ := h
  unfold microCount at hlt
  unfold dayCount
  omega

/-- The `datetime` of a microsecond count, or the `OverflowError` of `datetime` arithmetic. -/
def ofMicros (n : ℤ) : Option Civil :=
  if h : 0 ≤ n ∧ n < microCount then
    let seconds := n.toNat / 1000000
    let date := ord2ymd (seconds / 86400 + 1)
    some
      { year := date.1
        month := date.2.1
        day := date.2.2
        hour := seconds % 86400 / 3600
        minute := seconds % 3600 / 60
        second := seconds % 60
        microsecond := n.toNat % 1000000
        validDate := (ord2ymd_spec (Nat.le_add_left _ _) (day_of_micros h)).1
        validTime := by omega }
  else none

private theorem micros_ofMicros {n : ℤ} {t : Civil} (h : ofMicros n = some t) : (t.micros : ℤ) = n := by
  simp only [ofMicros] at h
  split at h
  · rename_i hn
    injection h with h
    subst h
    have hord := (ord2ymd_spec (Nat.le_add_left 1 _) (day_of_micros hn)).2
    simp only [micros, seconds, hord]
    omega
  · contradiction

/-- `value + timedelta(seconds=…)`. -/
def addSeconds (t : Civil) (seconds : ℕ) : Option Civil := ofMicros (t.micros + seconds * 1000000)

theorem micros_addSeconds {t later : Civil} {seconds : ℕ} (h : t.addSeconds seconds = some later) :
    later.micros = t.micros + seconds * 1000000 := by
  have := micros_ofMicros h
  omega

end Civil

/-- A timezone-aware `datetime`: local fields and the offset from UTC in microseconds. -/
structure AwareDatetime where
  fields : Civil
  utcoffset : ℤ
  validOffset : -86400000000 < utcoffset ∧ utcoffset < 86400000000

namespace AwareDatetime

/-- The instant a value names, which is what `<` on aware values compares. -/
def instant (t : AwareDatetime) : ℤ := t.fields.micros - t.utcoffset

/-- `value.astimezone(UTC)`; `none` is its `OverflowError`. -/
def astimezoneUtc (t : AwareDatetime) : Option Civil := Civil.ofMicros t.instant

private theorem micros_astimezoneUtc {t : AwareDatetime} {u : Civil} (h : t.astimezoneUtc = some u) :
    (u.micros : ℤ) = t.instant := Civil.micros_ofMicros h

end AwareDatetime

/-! ## The two spellings -/

/-- A stored time: a text, ordered by code points as SQLite and Python order it. -/
abbrev Stamp := List Char

/-- `YYYY-MM-DDTHH:MM:SS`, followed by `rest`. -/
def isoSeconds (t : Civil) (rest : Stamp) : Stamp :=
  padded 4 t.year ++ '-' :: (padded 2 t.month ++ '-' :: (padded 2 t.day ++ 'T' ::
    (padded 2 t.hour ++ ':' :: (padded 2 t.minute ++ ':' :: (padded 2 t.second ++ rest)))))

/-- The fraction of `isoformat`, absent for a whole second, and the `Z` put for `+00:00`. -/
def isoFraction (microsecond : ℕ) : Stamp :=
  if microsecond = 0 then ['Z'] else '.' :: (padded 6 microsecond ++ ['Z'])

/-- `_format_time` of a value already in UTC. -/
def formatTime (t : Civil) : Stamp := isoSeconds t (isoFraction t.microsecond)

/-- `_format_registry_time` of a value already in UTC. -/
def formatRegistryTime (t : Civil) : Stamp :=
  isoSeconds t ('.' :: (padded 6 t.microsecond ++ ['Z']))

/-- The text up to the seconds compares as the seconds do, then the rest decides. -/
private theorem isoSeconds_lt (a b : Civil) (x y : Stamp) :
    isoSeconds a x < isoSeconds b y ↔ a.seconds < b.seconds ∨ a.seconds = b.seconds ∧ x < y := by
  obtain ⟨-, hay, -, ham, -, had⟩ := a.validDate
  obtain ⟨-, hby, -, hbm, -, hbd⟩ := b.validDate
  obtain ⟨hah, hamin, has, -⟩ := a.validTime
  obtain ⟨hbh, hbmin, hbs, -⟩ := b.validTime
  have had' := had.trans (monthLength_le (isLeap a.year) a.month)
  have hbd' := hbd.trans (monthLength_le (isLeap b.year) b.month)
  have heq : a.seconds = b.seconds ↔ ¬a.seconds < b.seconds ∧ ¬b.seconds < a.seconds := by omega
  simp only [isoSeconds, cons_lt_cons_self,
    padded_append_lt (show a.year < 10 ^ 4 by omega) (show b.year < 10 ^ 4 by omega),
    padded_append_lt (show a.month < 10 ^ 2 by omega) (show b.month < 10 ^ 2 by omega),
    padded_append_lt (show a.day < 10 ^ 2 by omega) (show b.day < 10 ^ 2 by omega),
    padded_append_lt (show a.hour < 10 ^ 2 by omega) (show b.hour < 10 ^ 2 by omega),
    padded_append_lt (show a.minute < 10 ^ 2 by omega) (show b.minute < 10 ^ 2 by omega),
    padded_append_lt (show a.second < 10 ^ 2 by omega) (show b.second < 10 ^ 2 by omega)]
  rw [heq, Civil.seconds_lt, Civil.seconds_lt]
  by_cases hxy : x < y
  · simp only [hxy, and_true]
    omega
  · simp only [hxy, and_false, or_false]

theorem formatRegistryTime_lt (a b : Civil) :
    formatRegistryTime a < formatRegistryTime b ↔ a.micros < b.micros := by
  have ha := a.validTime.2.2.2
  have hb := b.validTime.2.2.2
  rw [formatRegistryTime, formatRegistryTime, isoSeconds_lt, Civil.micros_lt, cons_lt_cons_self,
    padded_append_lt ha hb]
  simp

private theorem formatRegistryTime_le (a b : Civil) :
    formatRegistryTime a ≤ formatRegistryTime b ↔ a.micros ≤ b.micros := by
  rw [← not_lt, formatRegistryTime_lt, not_lt]

/-- Two instants of one second of which exactly one is a whole second. -/
def Straddles (a b : Civil) : Prop :=
  a.seconds = b.seconds ∧ (a.microsecond = 0 ↔ b.microsecond ≠ 0)

instance (a b : Civil) : Decidable (Straddles a b) := by
  unfold Straddles
  infer_instance

theorem Straddles.symm {a b : Civil} (h : Straddles a b) : Straddles b a := by
  obtain ⟨hsec, hfrac⟩ := h
  exact ⟨hsec.symm, by tauto⟩

/-- The two shapes of the fraction: a whole second sorts after every fraction of it. -/
private theorem isoFraction_lt {x y : ℕ} (hx : x < 1000000) (hy : y < 1000000) :
    isoFraction x < isoFraction y ↔ x ≠ 0 ∧ (y = 0 ∨ x < y) := by
  have hpoint : ('.' : Char) < 'Z' := by decide
  have hback : ¬('Z' : Char) < '.' := by decide
  unfold isoFraction
  by_cases hx0 : x = 0 <;> by_cases hy0 : y = 0
  · simp [hx0, hy0]
  · simp [hx0, hy0, List.cons_lt_cons_iff, hback]
  · simp [hx0, hy0, List.cons_lt_cons_iff, hpoint]
  · have hpadded := padded_append_lt (show x < 10 ^ 6 from hx) (show y < 10 ^ 6 from hy) ['Z'] ['Z']
    simp only [hx0, hy0, if_false, cons_lt_cons_self, hpadded]
    simp [hx0]

/-- The comparison of `formatTime` agrees with time unless the instants straddle. -/
private theorem formatTime_lt (a b : Civil) :
    (formatTime a < formatTime b ↔ a.micros < b.micros) ↔ ¬Straddles a b := by
  have ha := a.validTime.2.2.2
  have hb := b.validTime.2.2.2
  simp only [formatTime, isoSeconds_lt, isoFraction_lt ha hb, Civil.micros_lt, Straddles]
  omega

private theorem formatTime_le (a b : Civil) :
    (formatTime a ≤ formatTime b ↔ a.micros ≤ b.micros) ↔ ¬Straddles a b := by
  have h := formatTime_lt b a
  have hsymm : Straddles a b ↔ Straddles b a := ⟨.symm, .symm⟩
  rw [← not_lt, ← not_lt (a := b.micros), hsymm, ← h]
  exact not_iff_not

private theorem formatTime_inj {a b : Civil} (h : formatTime a = formatTime b) :
    a.micros = b.micros := by
  have ha := a.validTime.2.2.2
  have hb := b.validTime.2.2.2
  have hab : ¬formatTime a < formatTime b := by simp [h]
  have hba : ¬formatTime b < formatTime a := by simp [h]
  simp only [formatTime, isoSeconds_lt, isoFraction_lt ha hb, isoFraction_lt hb ha] at hab hba
  simp only [Civil.micros]
  omega

end Cortex.Time
