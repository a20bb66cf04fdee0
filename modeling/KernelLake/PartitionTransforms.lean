import KernelLake.Expressions
import KernelLake.Library.Calendar

/-!
The time transforms of Iceberg partitions.

A literal is turned into the number of the year, month, day or hour it lies in, counted from 1970, by
scanning over years and months as the code does. `InPeriod` says, without a scan, which period an
instant lies in; the scan finds that period, and later instants lie in later periods.
-/

namespace KernelLake.PartitionTransforms

open KernelLake.Types KernelLake.Expressions KernelLake.Library.Calendar

/-! ## Calendar -/

structure CivilDate where
  year : Int
  month : Int
  deriving DecidableEq

/-- The forward scan over years; each one takes at least one day of the fuel. -/
def scanYears : Nat → Int → Int → Int × Int
  | 0, year, remaining => (year, remaining)
  | fuel + 1, year, remaining =>
    if remaining < yearDays year then (year, remaining)
    else scanYears fuel (year + 1) (remaining - yearDays year)

/-- The backward scan over years before 1970. -/
def scanYearsBack : Nat → Int → Int → Int × Int
  | 0, year, remaining => (year, remaining)
  | fuel + 1, year, remaining =>
    if 0 ≤ remaining then (year, remaining)
    else scanYearsBack fuel (year - 1) (remaining + yearDays (year - 1))

/-- The scan over the months of a year. -/
def scanMonths : Nat → Int → Int → Int → Int
  | 0, _, month, _ => month
  | fuel + 1, year, month, remaining =>
    if remaining < daysInMonth year month then month
    else scanMonths fuel year (month + 1) (remaining - daysInMonth year month)

def civilFromDays (daysSinceEpoch : Int) : CivilDate :=
  let (year, remaining) :=
    if 0 ≤ daysSinceEpoch then scanYears daysSinceEpoch.toNat 1970 daysSinceEpoch
    else scanYearsBack (-daysSinceEpoch).toNat 1970 daysSinceEpoch
  ⟨year, scanMonths 11 year 1 remaining⟩

/-! ## Transforms -/

def microsPerDay : Int := 86400000000

def microsPerHour : Int := 3600000000

/-- Division towards the earlier period, from division and remainder that truncate towards zero. -/
def floorDiv (a b : Int) : Int :=
  let quotient := a.tdiv b
  let remainder := a.tmod b
  if remainder ≠ 0 ∧ (decide (remainder < 0) ≠ decide (b < 0)) then quotient - 1 else quotient

/-- A date or timestamp literal under a time transform; an hour needs a timestamp. -/
def applyTimeTransform (transform : String) (literal : LiteralStorage) (type : DataType) : Option Int :=
  match literal with
  | .int64 raw =>
    if transform = "hour" then
      if type.id = .timestamp then some (floorDiv raw.toInt microsPerHour) else none
    else
      match (if type.id = .date32 then some raw.toInt
             else if type.id = .timestamp then some (floorDiv raw.toInt microsPerDay) else none) with
      | none => none
      | some days =>
        if transform = "day" then some days
        else if transform = "month" then
          some (((civilFromDays days).year - 1970) * 12 + ((civilFromDays days).month - 1))
        else if transform = "year" then some ((civilFromDays days).year - 1970)
        else none
  | _ => none

/-! ## Correctness of the scan -/

theorem floorDiv_eq {a b : Int} (positive : 0 < b) : floorDiv a b = a / b := by
  have sign : b.sign = 1 := Int.sign_eq_one_of_pos positive
  have bounded := Int.emod_lt_of_pos a positive
  have nonneg := Int.emod_nonneg a positive.ne'
  simp only [floorDiv, Int.tdiv_eq_ediv, Int.tmod_eq_emod, sign]
  by_cases exact : 0 ≤ a ∨ b ∣ a
  · rw [if_pos exact, if_pos exact]
    have notNegative : ¬ b < 0 := by omega
    simp [nonneg, notNegative]
  · rw [if_neg exact, if_neg exact]
    have below : a % b - b.natAbs < 0 := by omega
    have notNegative : ¬ b < 0 := by omega
    generalize a % b - b.natAbs = rest at below ⊢
    simp [below, below.ne, notNegative]

theorem scanYears_spec {fuel : Nat} (year : Int) {remaining : Int} (nonneg : 0 ≤ remaining)
    (enough : remaining ≤ fuel) :
    yearStart (scanYears fuel year remaining).1 + (scanYears fuel year remaining).2 =
        yearStart year + remaining ∧
      0 ≤ (scanYears fuel year remaining).2 ∧
      (scanYears fuel year remaining).2 < yearDays (scanYears fuel year remaining).1 := by
  induction fuel generalizing year remaining with
  | zero =>
    have := yearDays_pos year
    exact ⟨rfl, nonneg, by simp only [scanYears]; omega⟩
  | succ fuel hypothesis =>
    have positive := yearDays_pos year
    unfold scanYears
    split
    · rename_i inside
      exact ⟨rfl, nonneg, inside⟩
    · have rest := @hypothesis (year + 1) (remaining - yearDays year) (by omega) (by push_cast at enough; omega)
      rw [yearStart_succ] at rest
      exact ⟨by rw [rest.1]; omega, rest.2⟩

theorem scanYearsBack_spec {fuel : Nat} {year remaining : Int} (below : remaining < yearDays year)
    (enough : -remaining ≤ fuel) :
    yearStart (scanYearsBack fuel year remaining).1 + (scanYearsBack fuel year remaining).2 =
        yearStart year + remaining ∧
      0 ≤ (scanYearsBack fuel year remaining).2 ∧
      (scanYearsBack fuel year remaining).2 < yearDays (scanYearsBack fuel year remaining).1 := by
  induction fuel generalizing year remaining with
  | zero => exact ⟨rfl, by simp only [scanYearsBack]; omega, below⟩
  | succ fuel hypothesis =>
    have positive := yearDays_pos (year - 1)
    unfold scanYearsBack
    split
    · rename_i inside
      exact ⟨rfl, inside, below⟩
    · have rest := @hypothesis (year - 1) (remaining + yearDays (year - 1)) (by omega)
        (by push_cast at enough; omega)
      have step := yearStart_succ (year - 1)
      rw [sub_add_cancel] at step
      exact ⟨by rw [rest.1]; omega, rest.2⟩

theorem scanMonths_spec {fuel : Nat} {year month remaining : Int} (first : 1 ≤ month)
    (enough : fuel + month = 12) (nonneg : 0 ≤ remaining)
    (inside : daysBeforeMonth year month + remaining < yearDays year) :
    1 ≤ scanMonths fuel year month remaining ∧ scanMonths fuel year month remaining ≤ 12 ∧
      daysBeforeMonth year (scanMonths fuel year month remaining) ≤
        daysBeforeMonth year month + remaining ∧
      daysBeforeMonth year month + remaining <
        daysBeforeMonth year (scanMonths fuel year month remaining + 1) := by
  induction fuel generalizing month remaining with
  | zero =>
    obtain rfl : month = 12 := by push_cast at enough; omega
    have wholeYear := daysBeforeMonth_year year
    simp only [scanMonths]
    refine ⟨by omega, by omega, by omega, ?_⟩
    rwa [show (12 : Int) + 1 = 13 by decide, wholeYear]
  | succ fuel hypothesis =>
    have step := daysBeforeMonth_succ year first (by push_cast at enough; omega)
    unfold scanMonths
    split
    · exact ⟨first, by push_cast at enough; omega, by omega, by omega⟩
    · have rest := @hypothesis (month + 1) (remaining - daysInMonth year month) (by omega)
        (by push_cast at enough; omega) (by omega) (by omega)
      rw [step] at rest
      exact ⟨rest.1, rest.2.1, by omega, by omega⟩

/-- Either scan over years ends at the year that contains the day. -/
theorem scanned_inYear {days : Int} {split : Int × Int}
    (scanned : (if 0 ≤ days then scanYears days.toNat 1970 days
      else scanYearsBack (-days).toNat 1970 days) = split) :
    yearStart split.1 + split.2 = days ∧ 0 ≤ split.2 ∧ split.2 < yearDays split.1 := by
  rw [← scanned]
  by_cases after : 0 ≤ days
  · have spec := scanYears_spec 1970 after (Int.self_le_toNat days)
    rw [yearStart_epoch, zero_add] at spec
    rwa [if_pos after]
  · have spec := scanYearsBack_spec (show days < yearDays 1970 by have := yearDays_pos 1970; omega)
      (Int.self_le_toNat (-days))
    rw [yearStart_epoch, zero_add] at spec
    rwa [if_neg after]

/-- The scanned date is the month that contains the day. -/
theorem civilFromDays_inMonth (days : Int) :
    1 ≤ (civilFromDays days).month ∧ (civilFromDays days).month ≤ 12 ∧
      InMonth (((civilFromDays days).year - 1970) * 12 + ((civilFromDays days).month - 1)) days := by
  unfold civilFromDays
  generalize scanned : (if 0 ≤ days then scanYears days.toNat 1970 days
    else scanYearsBack (-days).toNat 1970 days) = split
  have year := scanned_inYear scanned
  obtain ⟨first, last, starts, ends⟩ := scanMonths_spec (show 1 ≤ 1 by decide)
    (show (11 : Nat) + (1 : Int) = 12 by decide) year.2.1
    (show daysBeforeMonth split.1 1 + split.2 < yearDays split.1 by simpa [daysBeforeMonth] using year.2.2)
  rw [show daysBeforeMonth split.1 1 = 0 from rfl, zero_add] at starts ends
  have starting := monthStart_civil split.1 first last
  refine ⟨first, last, ?_, ?_⟩
  · rw [starting]
    omega
  · have sameYear : 1970 + ((split.1 - 1970) * 12 + (scanMonths 11 split.1 1 split.2 - 1)) / 12 = split.1 := by
      omega
    have sameMonth : ((split.1 - 1970) * 12 + (scanMonths 11 split.1 1 split.2 - 1)) % 12 + 1 =
        scanMonths 11 split.1 1 split.2 := by
      omega
    rw [monthStart_succ, starting, sameYear, sameMonth, add_assoc, ← daysBeforeMonth_succ split.1 first last]
    omega

/-! ## Periods -/

/-- The instant a date or timestamp stands for, in microseconds; a date stands for its midnight. -/
def instantOf (type : TypeId) (raw : Int) : Option Int :=
  match type with
  | .date32 => some (raw * microsPerDay)
  | .timestamp => some raw
  | _ => none

/-- The period of a time transform that an instant lies in. -/
def InPeriod (transform : String) (period instant : Int) : Prop :=
  if transform = "hour" then period = instant / microsPerHour
  else if transform = "day" then period = instant / microsPerDay
  else if transform = "month" then InMonth period (instant / microsPerDay)
  else if transform = "year" then ∃ month, InMonth month (instant / microsPerDay) ∧ period = month / 12
  else False

/-- A later instant lies in no earlier period. -/
theorem inPeriod_le {transform : String} {period other instant later : Int}
    (first : InPeriod transform period instant) (second : InPeriod transform other later)
    (before : instant ≤ later) : period ≤ other := by
  have hours : instant / microsPerHour ≤ later / microsPerHour :=
    Int.ediv_le_ediv (by decide) before
  have days : instant / microsPerDay ≤ later / microsPerDay :=
    Int.ediv_le_ediv (by decide) before
  unfold InPeriod at first second
  split at first
  · rename_i hour
    rw [if_pos hour] at second
    rwa [first, second]
  · rename_i notHour
    rw [if_neg notHour] at second
    split at first
    · rename_i day
      rw [if_pos day] at second
      rwa [first, second]
    · rename_i notDay
      rw [if_neg notDay] at second
      split at first
      · rename_i month
        rw [if_pos month] at second
        exact month_le_of_day_le first second days
      · rename_i notMonth
        rw [if_neg notMonth] at second
        split at first
        · rename_i year
          rw [if_pos year] at second
          obtain ⟨month, inMonth, rfl⟩ := first
          obtain ⟨otherMonth, inOther, rfl⟩ := second
          exact Int.ediv_le_ediv (by decide) (month_le_of_day_le inMonth inOther days)
        · cases first

/-- The days a literal lies on. -/
theorem days_of_literal {type : DataType} {raw days : Int}
    (found : (if type.id = .date32 then some raw
      else if type.id = .timestamp then some (floorDiv raw microsPerDay) else none) = some days) :
    ∃ instant, instantOf type.id raw = some instant ∧ days = instant / microsPerDay ∧
      min 0 raw ≤ days ∧ days ≤ max 0 raw := by
  split at found
  · rename_i isDate
    obtain rfl := Option.some.inj found
    refine ⟨raw * microsPerDay, by simp [isDate, instantOf], ?_, by omega, by omega⟩
    exact (Int.mul_ediv_cancel raw (by decide)).symm
  · split at found
    · rename_i isTimestamp
      rw [floorDiv_eq (by decide)] at found
      obtain rfl := Option.some.inj found
      refine ⟨raw, by simp [isTimestamp, instantOf], rfl, ?_, ?_⟩ <;>
        · simp only [microsPerDay]
          omega
    · cases found

/-- A transformed literal is the period its instant lies in, and no further from zero than the literal
itself. -/
theorem applyTimeTransform_inPeriod {transform : String} {raw : Int64} {type : DataType} {period : Int}
    (found : applyTimeTransform transform (.int64 raw) type = some period) :
    (∃ instant, instantOf type.id raw.toInt = some instant ∧ InPeriod transform period instant) ∧
      min 0 raw.toInt ≤ period ∧ period ≤ max 0 raw.toInt := by
  simp only [applyTimeTransform] at found
  split at found
  · rename_i hour
    split at found
    · rename_i isTimestamp
      rw [floorDiv_eq (by decide)] at found
      obtain rfl := Option.some.inj found
      refine ⟨⟨raw.toInt, by simp [isTimestamp, instantOf], by simp [InPeriod, hour]⟩, ?_, ?_⟩ <;>
        · simp only [microsPerHour]
          omega
    · cases found
  · rename_i notHour
    split at found
    · cases found
    · rename_i days isDays
      obtain ⟨instant, isInstant, rfl, above, below⟩ := days_of_literal isDays
      obtain ⟨first, last, inMonth⟩ := civilFromDays_inMonth (instant / microsPerDay)
      obtain ⟨monthAbove, monthBelow⟩ := inMonth_bounds inMonth
      split at found
      · rename_i day
        obtain rfl := Option.some.inj found
        exact ⟨⟨instant, isInstant, by simp [InPeriod, day]⟩, above, below⟩
      · rename_i notDay
        split at found
        · rename_i month
          obtain rfl := Option.some.inj found
          exact ⟨⟨instant, isInstant, by simpa [InPeriod, month] using inMonth⟩, by omega, by omega⟩
        · rename_i notMonth
          split at found
          · rename_i year
            obtain rfl := Option.some.inj found
            refine ⟨⟨instant, isInstant, ?_⟩, by omega, by omega⟩
            rw [InPeriod, if_neg notHour, if_neg notDay, if_neg notMonth, if_pos year]
            exact ⟨_, inMonth, by omega⟩
          · cases found

end KernelLake.PartitionTransforms
