import KernelLake.Library.CalendarDates
import KernelLake.PartitionTransforms
import KernelLake.PartitionValues
import Mathlib.Data.PFun
import Mathlib.Data.Rat.Floor

/-!
Calendar arithmetic between dates and day counts.

The scans of the source run until a day count falls inside a year and then inside a month, without a bound on their
passes. Each of them returns, and with the month of the date that many days from 1 January 1970; the reader of
dates returns the count that leads back to the date it reads.
-/

namespace KernelLake.CalendarArithmetic

open KernelLake.Library KernelLake.Library.Calendar KernelLake.Library.Texts
open KernelLake.PartitionTransforms KernelLake.PartitionValues

/-! ## The scans without a bound -/

namespace Loops

def isLeapYear (year : Int) : Bool :=
  (year.tmod 4 = 0 && year.tmod 100 ≠ 0) || year.tmod 400 = 0

def yearDays (year : Int) : Int :=
  if isLeapYear year then 366 else 365

def kDays : List Int := [31, 28, 31, 30, 31, 30, 31, 31, 30, 31, 30, 31]

/-- The table has entries for the months from 1 to 12; what is read outside of it is undefined. -/
def daysInMonth (year month : Int) : Part Int :=
  if month = 2 && isLeapYear year then Part.some 29
  else if 1 ≤ month then Part.ofOption kDays[(month - 1).toNat]?
  else Part.none

/-- A pass of `while (true)` over the years from 1970 on. -/
def laterYear : Int × Int →. (Int × Int) ⊕ (Int × Int) := fun (year, remaining) =>
  Part.some (if remaining < yearDays year then .inl (year, remaining)
    else .inr (year + 1, remaining - yearDays year))

/-- A pass of `while (remaining < 0)` over the years before 1970. -/
def earlierYear : Int × Int →. (Int × Int) ⊕ (Int × Int) := fun (year, remaining) =>
  Part.some (if remaining < 0 then .inr (year - 1, remaining + yearDays (year - 1))
    else .inl (year, remaining))

/-- A pass of `while (true)` over the months of a year. -/
def laterMonth (year : Int) : Int × Int →. Int ⊕ (Int × Int) := fun (month, remaining) =>
  (daysInMonth year month).map fun monthDays =>
    if remaining < monthDays then .inl month else .inr (month + 1, remaining - monthDays)

/-- The year the scan over years ends at, and the days that remain. -/
def findYear (daysSinceEpoch : Int) : Part (Int × Int) :=
  if 0 ≤ daysSinceEpoch then PFun.fix laterYear (1970, daysSinceEpoch)
  else PFun.fix earlierYear (1970, daysSinceEpoch)

/-- The date the scans arrive at, undefined where a scan does not end or leaves the table. -/
def civilFromDays (daysSinceEpoch : Int) : Part CivilDate := do
  let (year, remaining) ← findYear daysSinceEpoch
  let month ← PFun.fix (laterMonth year) (1, remaining)
  return ⟨year, month⟩

/-! ## They return -/

theorem isLeapYear_eq (year : Int) : isLeapYear year = Calendar.isLeapYear year := by
  have divides (divisor : Int) : year.tmod divisor = 0 ↔ year % divisor = 0 := by
    rw [← Int.dvd_iff_tmod_eq_zero, Int.dvd_iff_emod_eq_zero]
  simp only [isLeapYear, Calendar.isLeapYear, divides, ne_eq]

theorem yearDays_eq (year : Int) : yearDays year = Calendar.yearDays year := by
  rw [yearDays, isLeapYear_eq, Calendar.yearDays]

theorem daysInMonth_eq (year : Int) {month : Int} (first : 1 ≤ month) (last : month ≤ 12) :
    daysInMonth year month = Part.some (Calendar.daysInMonth year month) := by
  unfold daysInMonth
  rw [isLeapYear_eq, ← Source.daysInMonth_eq year first last, Source.daysInMonth, if_pos first]
  split
  · rfl
  · have entry : (month - 1).toNat < kDays.length := by
      simp only [kDays, List.length_cons, List.length_nil]
      omega
    rw [List.getD_eq_getElem?_getD, ← kDays, List.getElem?_eq_getElem entry]
    rfl

theorem scanYears_mem_fix {fuel : Nat} (year : Int) {remaining : Int} (nonneg : 0 ≤ remaining)
    (enough : remaining ≤ fuel) : scanYears fuel year remaining ∈ PFun.fix laterYear (year, remaining) := by
  induction fuel generalizing year remaining with
  | zero =>
    have inside : remaining < yearDays year := by
      have := yearDays_pos year
      rw [yearDays_eq]
      omega
    apply PFun.fix_stop
    simp [laterYear, inside, scanYears]
  | succ fuel ih =>
    have positive := yearDays_pos year
    unfold scanYears
    split
    · rename_i inside
      apply PFun.fix_stop
      simp [laterYear, yearDays_eq, inside]
    · rename_i outside
      have pass : .inr (year + 1, remaining - Calendar.yearDays year) ∈ laterYear (year, remaining) := by
        simp [laterYear, yearDays_eq, outside]
      rw [PFun.fix_fwd_eq pass]
      exact ih (year + 1) (by omega) (by push_cast at enough; omega)

theorem scanYearsBack_mem_fix {fuel : Nat} {year remaining : Int} (enough : -remaining ≤ fuel) :
    scanYearsBack fuel year remaining ∈ PFun.fix earlierYear (year, remaining) := by
  induction fuel generalizing year remaining with
  | zero =>
    have inside : ¬ remaining < 0 := by omega
    apply PFun.fix_stop
    simp [earlierYear, inside, scanYearsBack]
  | succ fuel ih =>
    have positive := yearDays_pos (year - 1)
    unfold scanYearsBack
    split
    · rename_i inside
      apply PFun.fix_stop
      simp [earlierYear, inside]
    · rename_i outside
      have pass : .inr (year - 1, remaining + Calendar.yearDays (year - 1)) ∈ earlierYear (year, remaining) := by
        simp [earlierYear, yearDays_eq, outside]
      rw [PFun.fix_fwd_eq pass]
      exact ih (by push_cast at enough; omega)

/-- A day inside the year is found in December at the latest, so that the table is not left. -/
theorem scanMonths_mem_fix {fuel : Nat} {year month remaining : Int} (first : 1 ≤ month)
    (enough : fuel + month = 12) (inside : daysBeforeMonth year month + remaining < Calendar.yearDays year) :
    scanMonths fuel year month remaining ∈ PFun.fix (laterMonth year) (month, remaining) := by
  induction fuel generalizing month remaining with
  | zero =>
    obtain rfl : month = 12 := by push_cast at enough; omega
    have december := daysBeforeMonth_succ year (show (1 : Int) ≤ 12 by decide) le_rfl
    rw [show (12 : Int) + 1 = 13 by decide, daysBeforeMonth_year] at december
    have found : remaining < Calendar.daysInMonth year 12 := by omega
    apply PFun.fix_stop
    simp [laterMonth, daysInMonth_eq, found, scanMonths]
  | succ fuel ih =>
    have last : month ≤ 12 := by push_cast at enough; omega
    have step := daysBeforeMonth_succ year first last
    unfold scanMonths
    split
    · rename_i found
      apply PFun.fix_stop
      simp [laterMonth, daysInMonth_eq year first last, found]
    · rename_i missed
      have pass : .inr (month + 1, remaining - Calendar.daysInMonth year month) ∈
          laterMonth year (month, remaining) := by
        simp [laterMonth, daysInMonth_eq year first last, missed]
      rw [PFun.fix_fwd_eq pass]
      exact ih (by omega) (by push_cast at enough; omega) (by omega)

theorem scanned_mem_findYear {days : Int} {split : Int × Int}
    (scanned : (if 0 ≤ days then scanYears days.toNat 1970 days
      else scanYearsBack (-days).toNat 1970 days) = split) :
    split ∈ findYear days := by
  rw [← scanned, findYear]
  split
  · rename_i since
    exact scanYears_mem_fix 1970 since (Int.self_le_toNat days)
  · exact scanYearsBack_mem_fix (Int.self_le_toNat (-days))

/-- The scans return for every day count, with what the bounded ones find. -/
theorem civilFromDays_eq (days : Int) :
    civilFromDays days = Part.some (PartitionTransforms.civilFromDays days) := by
  unfold civilFromDays PartitionTransforms.civilFromDays
  generalize scanned : (if 0 ≤ days then scanYears days.toNat 1970 days
    else scanYearsBack (-days).toNat 1970 days) = split
  have years := scanned_mem_findYear scanned
  have months : scanMonths 11 split.1 1 split.2 ∈ PFun.fix (laterMonth split.1) (1, split.2) := by
    apply scanMonths_mem_fix le_rfl (by decide)
    simpa [daysBeforeMonth] using (scanned_inYear scanned).2.2
  rw [Part.eq_some_iff.2 years, Part.bind_eq_bind, Part.bind_some]
  simp only
  rw [Part.eq_some_iff.2 months, Part.bind_eq_bind, Part.bind_some]
  rfl

end Loops

/-! ## Dates -/

/-- The month found is the month of the date that many days from 1 January 1970. -/
theorem civilFromDays_after (days : Int) :
    civilFromDays days = ⟨(Date.after days).year, (Date.after days).month⟩ := by
  obtain ⟨first, last, found⟩ := civilFromDays_inMonth days
  have inMonth := (Date.after days).inMonth
  rw [Date.number_after] at inMonth
  have same := inMonth_unique found inMonth
  have firstMonth := (Date.after days).firstMonth
  have lastMonth := (Date.after days).lastMonth
  unfold Date.monthIndex at same
  cases civil : civilFromDays days with
  | mk year month =>
    rw [civil] at first last same
    simp only [CivilDate.mk.injEq]
    simp only at first last same
    omega

theorem civilFromDays_mono {days later : Int} (before : days ≤ later) :
    toLex ((civilFromDays days).year, (civilFromDays days).month) ≤
      toLex ((civilFromDays later).year, (civilFromDays later).month) := by
  rw [civilFromDays_after, civilFromDays_after]
  apply Date.month_mono
  rw [← not_lt, Date.after_lt_iff]
  exact not_lt.2 before

theorem floorDiv_floor (a : Int) {b : Int} (positive : 0 < b) : floorDiv a b = ⌊(a : ℚ) / b⌋ := by
  obtain ⟨divisor, rfl⟩ := Int.eq_ofNat_of_zero_le positive.le
  rw [floorDiv_eq positive, Int.cast_natCast, Rat.floor_intCast_div_natCast]

/-- A text writes a date with four digits of its year, two of its month and two of its day. -/
def Writes (text : List Char) (date : Date) : Prop :=
  ∃ year month day : List Char, text = year ++ '-' :: month ++ '-' :: day ∧
    year.length = 4 ∧ month.length = 2 ∧ day.length = 2 ∧
    (∀ digit ∈ year ++ month ++ day, digit.isDigit = true) ∧
    date.year = readNatural year ∧ date.month = readNatural month ∧ date.day = readNatural day

theorem isCalendarDate_iff {text : List Char} {days : Int} :
    IsCalendarDate text days ↔ ∃ date, Writes text date ∧ date.number = days := by
  constructor
  · rintro ⟨year, month, day, form, four, two, alsoTwo, digits, firstMonth, lastMonth, firstDay, lastDay, rfl⟩
    refine ⟨⟨readNatural year, readNatural month, readNatural day, ?_, ?_, ?_, lastDay⟩,
      ⟨year, month, day, form, four, two, alsoTwo, digits, rfl, rfl, rfl⟩, Date.number_civil _⟩
    all_goals exact_mod_cast by assumption
  · rintro ⟨date, ⟨year, month, day, form, four, two, alsoTwo, digits, isYear, isMonth, isDay⟩, rfl⟩
    have firstMonth := date.firstMonth
    have lastMonth := date.lastMonth
    have firstDay := date.firstDay
    have lastDay := date.lastDay
    rw [Date.number_civil]
    rw [isMonth] at firstMonth lastMonth
    rw [isDay] at firstDay
    rw [isYear, isMonth, isDay] at lastDay ⊢
    exact ⟨year, month, day, form, four, two, alsoTwo, digits, by exact_mod_cast firstMonth,
      by exact_mod_cast lastMonth, by exact_mod_cast firstDay, lastDay, rfl⟩

/-- The reader of dates returns the numbers of the dates that are written. -/
theorem parseIsoDate_ok_iff {text : List Char} {days : Int32} :
    parseIsoDate text = .ok days ↔ ∃ date, Writes text date ∧ date.number = days.toInt := by
  rw [parseIsoDate_ok, ← isCalendarDate_iff]
  constructor
  · rintro ⟨number, isDate, rfl⟩
    have bounds := isCalendarDate_bounds isDate
    rwa [Int32.toInt_ofInt_of_le (by omega) (by omega)]
  · intro isDate
    exact ⟨days.toInt, isDate, (Int32.ofInt_toInt days).symm⟩

theorem parseIsoDate_error {text : List Char} {message : String}
    (failed : parseIsoDate text = .error message) :
    message = dateMessage text := by
  unfold parseIsoDate at failed
  split at failed
  · exact (Except.error.inj failed).symm
  split at failed
  · exact (Except.error.inj failed).symm
  simp only at failed
  split at failed
  · exact (Except.error.inj failed).symm
  split at failed
  · exact (Except.error.inj failed).symm
  · cases failed

/-- Every refusal has the one message, and is that of a text that writes no date. -/
theorem parseIsoDate_error_iff {text : List Char} :
    parseIsoDate text = .error (dateMessage text) ↔ ∀ date, ¬ Writes text date := by
  constructor
  · intro failed date writes
    have isDate : IsCalendarDate text date.number := isCalendarDate_iff.2 ⟨date, writes, rfl⟩
    rw [parseIsoDate_ok.2 ⟨date.number, isDate, rfl⟩] at failed
    cases failed
  · intro noDate
    cases parsed : parseIsoDate text with
    | ok days =>
      obtain ⟨date, writes, -⟩ := parseIsoDate_ok_iff.1 parsed
      exact absurd writes (noDate date)
    | error message => rw [parseIsoDate_error parsed]

/-- What is read leads back to the date that was written. -/
theorem after_parsed {text : List Char} {date : Date} {days : Int32} (writes : Writes text date)
    (parsed : parseIsoDate text = .ok days) : Date.after days.toInt = date := by
  have isDate : IsCalendarDate text date.number := isCalendarDate_iff.2 ⟨date, writes, rfl⟩
  have bounds := isCalendarDate_bounds isDate
  rw [parseIsoDate_ok.2 ⟨date.number, isDate, rfl⟩] at parsed
  cases parsed
  rw [Int32.toInt_ofInt_of_le (by omega) (by omega), Date.after_eq_iff]

theorem parseIsoDate_lt_iff {text other : List Char} {date otherDate : Date} {days otherDays : Int32}
    (writes : Writes text date) (otherWrites : Writes other otherDate) (parsed : parseIsoDate text = .ok days)
    (otherParsed : parseIsoDate other = .ok otherDays) : days < otherDays ↔ date < otherDate := by
  rw [← after_parsed writes parsed, ← after_parsed otherWrites otherParsed, Date.after_lt_iff,
    Int32.lt_iff_toInt_lt]

/-- A text is refused and writes no date, or it writes the date that its day count leads back to. -/
theorem parseIsoDate_cases (text : List Char) :
    parseIsoDate text = .error (dateMessage text) ∧ (∀ date, ¬ Writes text date) ∨
      ∃ days date, parseIsoDate text = .ok days ∧ Writes text date ∧ Date.after days.toInt = date ∧
        civilFromDays days.toInt = ⟨date.year, date.month⟩ := by
  by_cases noDate : ∀ date, ¬ Writes text date
  · exact .inl ⟨parseIsoDate_error_iff.2 noDate, noDate⟩
  · right
    cases parsed : parseIsoDate text with
    | error message =>
      rw [parseIsoDate_error parsed] at parsed
      exact absurd (parseIsoDate_error_iff.1 parsed) noDate
    | ok days =>
      obtain ⟨date, writes, number⟩ := parseIsoDate_ok_iff.1 parsed
      have same := Date.after_eq_iff.2 number
      refine ⟨days, date, rfl, writes, same, ?_⟩
      rw [civilFromDays_after, same]

/-- Days and dates correspond: the scans of the source return the month of every day count and keep the order, the
division rounds down, and the reader of dates takes every written date, and no other text, to its day. -/
theorem calendar_exact :
    (∀ days, Loops.civilFromDays days = Part.some (civilFromDays days)) ∧
    (∀ days, civilFromDays days = ⟨(Date.after days).year, (Date.after days).month⟩ ∧
      1 ≤ (civilFromDays days).month ∧ (civilFromDays days).month ≤ 12) ∧
    (∀ days later, days ≤ later →
      toLex ((civilFromDays days).year, (civilFromDays days).month) ≤
        toLex ((civilFromDays later).year, (civilFromDays later).month)) ∧
    (∀ a b : Int, 0 < b → floorDiv a b = ⌊(a : ℚ) / b⌋) ∧
    (∀ text, parseIsoDate text = .error (dateMessage text) ∧ (∀ date, ¬ Writes text date) ∨
      ∃ days date, parseIsoDate text = .ok days ∧ Writes text date ∧ Date.after days.toInt = date ∧
        civilFromDays days.toInt = ⟨date.year, date.month⟩) ∧
    (∀ text other date otherDate days otherDays, Writes text date → Writes other otherDate →
      parseIsoDate text = .ok days → parseIsoDate other = .ok otherDays →
      (days < otherDays ↔ date < otherDate)) := by
  refine ⟨Loops.civilFromDays_eq, fun days => ?_, fun _ _ => civilFromDays_mono, fun a _ => floorDiv_floor a,
    parseIsoDate_cases, fun _ _ _ _ _ _ => parseIsoDate_lt_iff⟩
  obtain ⟨first, last, -⟩ := civilFromDays_inMonth days
  exact ⟨civilFromDays_after days, first, last⟩

/-- The leap day of 2024 and the last day of 1969. -/
example : civilFromDays 19782 = ⟨2024, 2⟩ ∧ civilFromDays (-1) = ⟨1969, 12⟩ := by decide

end KernelLake.CalendarArithmetic
