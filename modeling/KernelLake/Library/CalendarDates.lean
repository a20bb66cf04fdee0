import KernelLake.Library.Calendar
import Mathlib.Algebra.Group.End
import Mathlib.Data.Prod.Lex

/-!
Dates of the proleptic Gregorian calendar.

A date is a year, a month and a day of that month; dates are ordered by year, month and day, and each one is
followed by the next. Counting days from 1 January 1970, forwards and backwards, reaches every date once and keeps
the order.
-/

namespace KernelLake.Library.Calendar

@[ext]
structure Date where
  year : Int
  month : Int
  day : Int
  firstMonth : 1 ≤ month
  lastMonth : month ≤ 12
  firstDay : 1 ≤ day
  lastDay : day ≤ daysInMonth year month
  deriving DecidableEq

namespace Date

def epoch : Date where
  year := 1970
  month := 1
  day := 1
  firstMonth := by decide
  lastMonth := by decide
  firstDay := by decide
  lastDay := by decide

/-- The next day, in the same month, on the first of the next month or on 1 January. -/
def next (date : Date) : Date :=
  if sameMonth : date.day < daysInMonth date.year date.month then
    ⟨date.year, date.month, date.day + 1, date.firstMonth, date.lastMonth,
      by have := date.firstDay; omega, sameMonth⟩
  else if sameYear : date.month < 12 then
    ⟨date.year, date.month + 1, 1, by have := date.firstMonth; omega, sameYear, le_rfl, daysInMonth_pos _ _⟩
  else ⟨date.year + 1, 1, 1, le_rfl, by decide, le_rfl, daysInMonth_pos _ _⟩

def previous (date : Date) : Date :=
  if sameMonth : 1 < date.day then
    ⟨date.year, date.month, date.day - 1, date.firstMonth, date.lastMonth, by omega,
      by have := date.lastDay; omega⟩
  else if sameYear : 1 < date.month then
    ⟨date.year, date.month - 1, daysInMonth date.year (date.month - 1), by omega,
      by have := date.lastMonth; omega, daysInMonth_pos _ _, le_rfl⟩
  else ⟨date.year - 1, 12, daysInMonth (date.year - 1) 12, by decide, le_rfl, daysInMonth_pos _ _, le_rfl⟩

/-! ## Order -/

def key (date : Date) : Int ×ₗ Int ×ₗ Int := toLex (date.year, toLex (date.month, date.day))

theorem key_injective : Function.Injective key := by
  intro date other same
  simp only [key, EmbeddingLike.apply_eq_iff_eq, Prod.mk.injEq] at same
  exact Date.ext same.1 same.2.1 same.2.2

instance : LinearOrder Date := LinearOrder.lift' key key_injective

theorem lt_iff {date other : Date} : date < other ↔ date.year < other.year ∨
    date.year = other.year ∧ (date.month < other.month ∨ date.month = other.month ∧ date.day < other.day) := by
  have byKey : date < other ↔ key date < key other := Iff.rfl
  simp only [byKey, key, Prod.Lex.toLex_lt_toLex]

/-- Later dates lie in later months, or in the same one. -/
theorem month_mono {date other : Date} (before : date ≤ other) :
    toLex (date.year, date.month) ≤ toLex (other.year, other.month) := by
  rw [Prod.Lex.toLex_le_toLex]
  rcases before.lt_or_eq with earlier | rfl
  · rw [lt_iff] at earlier
    simp only
    omega
  · exact .inr ⟨rfl, le_rfl⟩

/-! ## Numbers -/

/-- The month of a date, counted from January 1970. -/
def monthIndex (date : Date) : Int := (date.year - 1970) * 12 + (date.month - 1)

/-- The day of a date, counted from 1 January 1970. -/
def number (date : Date) : Int := monthStart date.monthIndex + (date.day - 1)

theorem number_epoch : number epoch = 0 := by
  decide

theorem number_civil (date : Date) :
    number date = yearStart date.year + daysBeforeMonth date.year date.month + (date.day - 1) := by
  rw [number, monthIndex, monthStart_civil _ date.firstMonth date.lastMonth]

theorem daysInMonth_monthIndex (date : Date) :
    daysInMonth (1970 + date.monthIndex / 12) (date.monthIndex % 12 + 1) = daysInMonth date.year date.month := by
  have first := date.firstMonth
  have last := date.lastMonth
  have year : 1970 + date.monthIndex / 12 = date.year := by unfold monthIndex; omega
  have month : date.monthIndex % 12 + 1 = date.month := by unfold monthIndex; omega
  rw [year, month]

/-- A date lies in its month. -/
theorem inMonth (date : Date) : InMonth date.monthIndex date.number := by
  have first := date.firstDay
  have last := date.lastDay
  constructor
  · unfold number
    omega
  · rw [monthStart_succ, daysInMonth_monthIndex]
    unfold number
    omega

theorem number_lt {date other : Date} (before : date < other) : number date < number other := by
  rw [lt_iff] at before
  have first := date.firstMonth
  have last := date.lastMonth
  have otherFirst := other.firstMonth
  have otherLast := other.lastMonth
  by_cases sameMonth : date.monthIndex = other.monthIndex
  · have later : date.day < other.day := by
      unfold monthIndex at sameMonth
      omega
    unfold number
    rw [sameMonth]
    omega
  · have earlier : date.monthIndex + 1 ≤ other.monthIndex := by
      unfold monthIndex at sameMonth ⊢
      omega
    calc number date < monthStart (date.monthIndex + 1) := date.inMonth.2
      _ ≤ monthStart other.monthIndex := monthStart_mono earlier
      _ ≤ number other := other.inMonth.1

theorem number_lt_iff {date other : Date} : number date < number other ↔ date < other :=
  StrictMono.lt_iff_lt fun _ _ => number_lt

theorem number_injective : Function.Injective number :=
  StrictMono.injective fun _ _ => number_lt

theorem number_sameMonth {date other : Date} (sameMonth : other.monthIndex = date.monthIndex)
    (following : other.day = date.day + 1) : number other = number date + 1 := by
  unfold number
  rw [sameMonth, following]
  omega

theorem number_nextMonth {date other : Date} (nextMonth : other.monthIndex = date.monthIndex + 1)
    (lastDay : date.day = daysInMonth date.year date.month) (firstDay : other.day = 1) :
    number other = number date + 1 := by
  unfold number
  rw [nextMonth, firstDay, monthStart_succ, daysInMonth_monthIndex, lastDay]
  omega

theorem number_next (date : Date) : number date.next = number date + 1 := by
  have last := date.lastDay
  have lastMonth := date.lastMonth
  unfold next
  split
  · exact number_sameMonth rfl rfl
  split
  · apply number_nextMonth _ (by omega) rfl
    simp only [monthIndex]
    omega
  · apply number_nextMonth _ (by omega) rfl
    simp only [monthIndex]
    omega

theorem number_previous (date : Date) : number date = number date.previous + 1 := by
  have first := date.firstDay
  have firstMonth := date.firstMonth
  unfold previous
  split
  · apply number_sameMonth
    · rfl
    · simp only
      omega
  split
  · apply number_nextMonth _ rfl (by omega)
    simp only [monthIndex]
    omega
  · apply number_nextMonth _ rfl (by omega)
    simp only [monthIndex]
    omega

theorem previous_next (date : Date) : previous date.next = date := by
  apply number_injective
  have back := number_previous date.next
  rw [number_next] at back
  omega

theorem next_previous (date : Date) : next date.previous = date := by
  apply number_injective
  rw [number_next, ← number_previous]

/-! ## Counting -/

def nextDay : Equiv.Perm Date := ⟨next, previous, previous_next, next_previous⟩

/-- The date that many days from 1 January 1970, days before it counted negatively. -/
def after (days : Int) : Date := (nextDay ^ days) epoch

theorem number_nextDay_zpow (days : Int) (date : Date) : number ((nextDay ^ days) date) = number date + days := by
  induction days using Int.induction_on generalizing date with
  | zero => simp
  | succ days ih =>
    rw [zpow_add_one, Equiv.Perm.mul_apply, ih]
    have step : number (nextDay date) = number date + 1 := number_next date
    omega
  | pred days ih =>
    rw [zpow_sub_one, Equiv.Perm.mul_apply, ih]
    have step : number (nextDay (nextDay⁻¹ date)) = number (nextDay⁻¹ date) + 1 := number_next _
    rw [← Equiv.Perm.mul_apply, mul_inv_cancel, Equiv.Perm.one_apply] at step
    omega

theorem number_after (days : Int) : number (after days) = days := by
  rw [after, number_nextDay_zpow, number_epoch, zero_add]

theorem after_eq_iff {days : Int} {date : Date} : after days = date ↔ number date = days := by
  rw [← number_injective.eq_iff, number_after, eq_comm]

theorem after_lt_iff {days later : Int} : after days < after later ↔ days < later := by
  rw [← number_lt_iff, number_after, number_after]

end Date

end KernelLake.Library.Calendar
