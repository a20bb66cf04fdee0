import Mathlib.Algebra.Order.Ring.Int
import Mathlib.Data.Int.ConditionallyCompleteOrder

/-!
The proleptic Gregorian calendar.

Days, months and years are counted from 1 January 1970 and may be negative. A month is the interval
of days between its first day and the first day of the next one; the month of a day is the one
interval that contains it, and it grows with the day.
-/

namespace KernelLake.Library.Calendar

def isLeapYear (year : Int) : Bool :=
  (year % 4 = 0 && year % 100 ≠ 0) || year % 400 = 0

def yearDays (year : Int) : Int :=
  if isLeapYear year then 366 else 365

/-- The days of a month, numbered from 1. -/
def daysInMonth (year month : Int) : Int :=
  if month = 2 then (if isLeapYear year then 29 else 28)
  else if month = 4 ∨ month = 6 ∨ month = 9 ∨ month = 11 then 30
  else 31

/-- The first day of a year. -/
def yearStart (year : Int) : Int :=
  365 * (year - 1970) + ((year - 1) / 4 - 492) - ((year - 1) / 100 - 19) + ((year - 1) / 400 - 4)

/-- The days of a year before a month. -/
def daysBeforeMonth (year : Int) (month : Int) : Int :=
  if month ≤ 1 then 0
  else if month = 2 then 31
  else (if isLeapYear year then 1 else 0) +
    (if month = 3 then 59 else if month = 4 then 90 else if month = 5 then 120
     else if month = 6 then 151 else if month = 7 then 181 else if month = 8 then 212
     else if month = 9 then 243 else if month = 10 then 273 else if month = 11 then 304
     else if month = 12 then 334 else 365)

/-- The first day of a month, where months are counted from January 1970. -/
def monthStart (month : Int) : Int :=
  yearStart (1970 + month / 12) + daysBeforeMonth (1970 + month / 12) (month % 12 + 1)

theorem yearDays_pos (year : Int) : 0 < yearDays year := by
  unfold yearDays
  split <;> omega

theorem yearStart_epoch : yearStart 1970 = 0 := by
  decide

theorem yearStart_succ (year : Int) : yearStart (year + 1) = yearStart year + yearDays year := by
  have leap : isLeapYear year = true ↔ (year % 4 = 0 ∧ year % 100 ≠ 0) ∨ year % 400 = 0 := by
    simp [isLeapYear]
  unfold yearStart yearDays
  split
  · rename_i isLeap
    have := leap.mp isLeap
    omega
  · rename_i notLeap
    have := (not_congr leap).mp notLeap
    omega

theorem daysInMonth_pos (year month : Int) : 0 < daysInMonth year month := by
  unfold daysInMonth
  split
  · split <;> omega
  · split <;> omega

theorem daysBeforeMonth_succ (year : Int) {month : Int} (first : 1 ≤ month) (last : month ≤ 12) :
    daysBeforeMonth year (month + 1) = daysBeforeMonth year month + daysInMonth year month := by
  obtain rfl | rfl | rfl | rfl | rfl | rfl | rfl | rfl | rfl | rfl | rfl | rfl :
      month = 1 ∨ month = 2 ∨ month = 3 ∨ month = 4 ∨ month = 5 ∨ month = 6 ∨ month = 7 ∨ month = 8 ∨
        month = 9 ∨ month = 10 ∨ month = 11 ∨ month = 12 := by omega
  all_goals
    unfold daysBeforeMonth daysInMonth
    cases isLeapYear year <;> decide

theorem daysBeforeMonth_year (year : Int) : daysBeforeMonth year 13 = yearDays year := by
  unfold daysBeforeMonth yearDays
  cases isLeapYear year <;> decide

/-- Months follow one another without a gap. -/
theorem monthStart_succ (month : Int) :
    monthStart (month + 1) = monthStart month + daysInMonth (1970 + month / 12) (month % 12 + 1) := by
  unfold monthStart
  by_cases last : month % 12 = 11
  · have nextYear : (month + 1) / 12 = month / 12 + 1 := by omega
    have january : (month + 1) % 12 + 1 = 1 := by omega
    have december : month % 12 + 1 = 12 := by omega
    have step : daysBeforeMonth (1970 + month / 12) 13 = _ :=
      daysBeforeMonth_succ (1970 + month / 12) (show 1 ≤ 12 by decide) (by decide)
    have empty : daysBeforeMonth (1970 + month / 12 + 1) 1 = 0 := rfl
    rw [daysBeforeMonth_year] at step
    rw [nextYear, january, december, ← add_assoc, yearStart_succ, empty, step]
    omega
  · have sameYear : (month + 1) / 12 = month / 12 := by omega
    have nextMonth : (month + 1) % 12 = month % 12 + 1 := by omega
    have step := daysBeforeMonth_succ (1970 + month / 12) (show 1 ≤ month % 12 + 1 by omega) (by omega)
    rw [sameYear, nextMonth, step]
    omega

theorem monthStart_lt_succ (month : Int) : monthStart month < monthStart (month + 1) := by
  have := daysInMonth_pos (1970 + month / 12) (month % 12 + 1)
  rw [monthStart_succ]
  omega

theorem monthStart_mono {month other : Int} (le : month ≤ other) : monthStart month ≤ monthStart other :=
  monotone_int_of_le_succ (fun month => (monthStart_lt_succ month).le) le

/-- A month contains a day. -/
def InMonth (month day : Int) : Prop :=
  monthStart month ≤ day ∧ day < monthStart (month + 1)

/-- The month of a day grows with the day. -/
theorem month_le_of_day_le {month other day later : Int} (inMonth : InMonth month day)
    (inOther : InMonth other later) (before : day ≤ later) : month ≤ other := by
  by_contra after
  have := monthStart_mono (show other + 1 ≤ month by omega)
  have starts := inMonth.1
  have ends := inOther.2
  omega

/-- A day lies in one month only. -/
theorem inMonth_unique {month other day : Int} (inMonth : InMonth month day)
    (inOther : InMonth other day) : month = other :=
  le_antisymm (month_le_of_day_le inMonth inOther le_rfl) (month_le_of_day_le inOther inMonth le_rfl)

theorem monthStart_civil (year : Int) {month : Int} (first : 1 ≤ month) (last : month ≤ 12) :
    monthStart ((year - 1970) * 12 + (month - 1)) = yearStart year + daysBeforeMonth year month := by
  have wholeYears : ((year - 1970) * 12 + (month - 1)) / 12 = year - 1970 := by omega
  have rest : ((year - 1970) * 12 + (month - 1)) % 12 = month - 1 := by omega
  rw [monthStart, wholeYears, rest, add_sub_cancel, sub_add_cancel]

/-- A month is no further from January 1970 than its days are from the first one. -/
theorem inMonth_bounds {month day : Int} (inMonth : InMonth month day) :
    min 0 day ≤ month ∧ month ≤ max 0 day := by
  have later (count : Nat) : (count : Int) ≤ monthStart count := by
    induction count with
    | zero => decide
    | succ count hypothesis =>
      have := monthStart_lt_succ count
      push_cast
      omega
  have earlier (count : Nat) : monthStart (-(count : Int)) ≤ -(count : Int) := by
    induction count with
    | zero => decide
    | succ count hypothesis =>
      have := monthStart_lt_succ (-(count : Int) - 1)
      rw [sub_add_cancel] at this
      push_cast
      rw [neg_add']
      omega
  obtain ⟨starts, ends⟩ := inMonth
  rcases le_or_gt 0 month with after | before
  · have := later month.toNat
    rw [Int.toNat_of_nonneg after] at this
    omega
  · have := earlier (-(month + 1)).toNat
    rw [Int.toNat_of_nonneg (by omega), neg_neg] at this
    omega

end KernelLake.Library.Calendar
