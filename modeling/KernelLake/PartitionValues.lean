import KernelLake.Library.Calendar
import KernelLake.Library.Texts
import Mathlib.Data.List.TakeWhile
import Mathlib.Tactic.Ring

/-!
Texts of partition values.

A value that stands in the name of a directory is a number, a date or a text. What a text denotes is a matter of
its digits and of the calendar, whatever the code does with it.
-/

namespace KernelLake.PartitionValues

open KernelLake.Library KernelLake.Library.Calendar KernelLake.Library.Texts

/-! ## What texts denote -/

def AreDigits (digits : List Char) : Prop :=
  digits ≠ [] ∧ ∀ digit ∈ digits, digit.isDigit = true

/-- Digits, after a minus sign or none. -/
def IsNumeral (text : List Char) : Prop :=
  ∃ digits, (text = digits ∨ text = '-' :: digits) ∧ AreDigits digits

/-- A day of the calendar as its year, month and day, with its number from 1 January 1970. -/
def IsCalendarDate (text : List Char) (days : Int) : Prop :=
  ∃ year month day : List Char, text = year ++ '-' :: month ++ '-' :: day ∧
    year.length = 4 ∧ month.length = 2 ∧ day.length = 2 ∧
    (∀ digit ∈ year ++ month ++ day, digit.isDigit = true) ∧
    1 ≤ readNatural month ∧ readNatural month ≤ 12 ∧
    1 ≤ readNatural day ∧ (readNatural day : Int) ≤ daysInMonth (readNatural year) (readNatural month) ∧
    days = yearStart (readNatural year) + daysBeforeMonth (readNatural year) (readNatural month) +
      (readNatural day - 1)

/-! ## Dates -/

namespace Source

/-- The days of a month in the table of the source. -/
def daysInMonth (year month : Int) : Int :=
  if month = 2 && isLeapYear year then 29
  else [31, 28, 31, 30, 31, 30, 31, 31, 30, 31, 30, 31].getD (month - 1).toNat 0

/-- The days from 1 January 1970 to the first day of a year. -/
def daysToYear (year : Int) : Int :=
  if 1970 ≤ year then
    (List.range (year - 1970).toNat).foldl (fun (days : Int) (count : Nat) => days + yearDays (1970 + count)) 0
  else (List.range (1970 - year).toNat).foldl (fun (days : Int) (count : Nat) => days - yearDays (year + count)) 0

def daysToMonth (year month days : Int) : Int :=
  (List.range (month - 1).toNat).foldl (fun (days : Int) (count : Nat) => days + daysInMonth year (1 + count)) days

end Source

def digitAt (text : List Char) (index : Nat) : Int :=
  ((text.getD index '0').toNat : Int) - '0'.toNat

def dateMessage (text : List Char) : String :=
  s!"invalid date literal '{String.ofList text}': expected 'YYYY-MM-DD' with valid calendar values"

/-- The number of a day, or the message of an `SqlError`. -/
def parseIsoDate (text : List Char) : Except String Int32 :=
  if text.length ≠ 10 ∨ text[4]? ≠ some '-' ∨ text[7]? ≠ some '-' then .error (dateMessage text)
  else if [0, 1, 2, 3, 5, 6, 8, 9].any (fun index => !(text.getD index ' ').isDigit) then .error (dateMessage text)
  else
    let year := digitAt text 0 * 1000 + digitAt text 1 * 100 + digitAt text 2 * 10 + digitAt text 3
    let month := digitAt text 5 * 10 + digitAt text 6
    let day := digitAt text 8 * 10 + digitAt text 9
    if month < 1 ∨ 12 < month then .error (dateMessage text)
    else if day < 1 ∨ Source.daysInMonth year month < day then .error (dateMessage text)
    else .ok (Int32.ofInt (Source.daysToMonth year month (Source.daysToYear year) + (day - 1)))

/-! ## Integers -/

inductive ConversionError
  | invalidArgument
  | outOfRange
deriving DecidableEq

def isSpace (character : Char) : Bool :=
  character = ' ' || (9 ≤ character.toNat && character.toNat ≤ 13)

/-- The sign at the front of a text, true for a minus, and what follows it. -/
def takeSign : List Char → Bool × List Char
  | '-' :: rest => (true, rest)
  | '+' :: rest => (false, rest)
  | rest => (false, rest)

/-- The integer at the front of a text, after spaces; what follows it is ignored. -/
def leadingInteger (text : List Char) : Option Int :=
  let signed := takeSign (text.dropWhile isSpace)
  let digits := signed.2.takeWhile Char.isDigit
  if digits = [] then none
  else some (if signed.1 then -(readNatural digits : Int) else readNatural digits)

def stoll (text : List Char) : Except ConversionError Int64 :=
  match leadingInteger text with
  | none => .error .invalidArgument
  | some number =>
    if -2 ^ 63 ≤ number ∧ number < 2 ^ 63 then .ok (Int64.ofInt number) else .error .outOfRange

/-! ## What is read -/

theorem isSpace_of_isDigit {character : Char} (isDigit : character.isDigit = true) : isSpace character = false := by
  have bounds : 48 ≤ character.toNat ∧ character.toNat ≤ 57 := Char.isDigit_iff_toNat.1 isDigit
  have notBlank : character ≠ ' ' := by
    rintro rfl
    cases isDigit
  simp only [isSpace, notBlank, decide_false, Bool.false_or, Bool.and_eq_false_iff, decide_eq_false_iff_not]
  omega

theorem readInteger_digits {digits : List Char} (areDigits : AreDigits digits) :
    readInteger digits = readNatural digits := by
  unfold readInteger
  split
  · exact absurd (areDigits.2 '-' List.mem_cons_self) (by decide)
  · rfl

theorem leadingInteger_numeral {text : List Char} (isNumeral : IsNumeral text) :
    leadingInteger text = some (readInteger text) := by
  obtain ⟨digits, isText, areDigits⟩ := isNumeral
  have whole : digits.takeWhile Char.isDigit = digits := List.takeWhile_eq_self_iff.2 areDigits.2
  rcases isText with rfl | rfl
  · rw [readInteger_digits areDigits]
    cases text with
    | nil => exact absurd rfl areDigits.1
    | cons first rest =>
      have isDigit := areDigits.2 first List.mem_cons_self
      have signed : takeSign (first :: rest) = (false, first :: rest) := by
        unfold takeSign
        split
        · rename_i same
          exact absurd (areDigits.2 '-' (same ▸ List.mem_cons_self)) (by decide)
        · rename_i same
          exact absurd (areDigits.2 '+' (same ▸ List.mem_cons_self)) (by decide)
        · rfl
      rw [leadingInteger, List.dropWhile_cons_of_neg (by simp [isSpace_of_isDigit isDigit]), signed]
      simp [whole]
  · have notSpace : isSpace '-' = false := by decide
    rw [leadingInteger, List.dropWhile_cons_of_neg (by simp [notSpace])]
    simp [takeSign, whole, areDigits.1, readInteger]

namespace Source

theorem sum_yearDays (year : Int) (count : Nat) :
    (List.range count).foldl (fun (days : Int) (passed : Nat) => days + yearDays (year + passed)) 0 =
      yearStart (year + count) - yearStart year := by
  induction count with
  | zero => simp
  | succ count ih =>
    rw [List.range_succ, List.foldl_append, ih]
    have next := yearStart_succ (year + count)
    push_cast
    rw [← add_assoc, next]
    simp
    ring

theorem daysToYear_eq (year : Int) : daysToYear year = yearStart year := by
  unfold daysToYear
  split
  · rename_i since
    rw [sum_yearDays, Int.toNat_of_nonneg (by omega), yearStart_epoch]
    simp
  · rename_i before
    have counted : ∀ count : Nat,
        (List.range count).foldl (fun (days : Int) (passed : Nat) => days - yearDays (year + passed)) 0 =
          -((List.range count).foldl (fun (days : Int) (passed : Nat) => days + yearDays (year + passed)) 0) := by
      intro count
      induction count with
      | zero => rfl
      | succ count ih =>
        rw [List.range_succ, List.foldl_append, List.foldl_append, ih]
        simp
        ring
    rw [counted, sum_yearDays, Int.toNat_of_nonneg (by omega)]
    simp [yearStart_epoch]

theorem daysInMonth_eq (year : Int) {month : Int} (first : 1 ≤ month) (last : month ≤ 12) :
    daysInMonth year month = Calendar.daysInMonth year month := by
  obtain rfl | rfl | rfl | rfl | rfl | rfl | rfl | rfl | rfl | rfl | rfl | rfl :
      month = 1 ∨ month = 2 ∨ month = 3 ∨ month = 4 ∨ month = 5 ∨ month = 6 ∨ month = 7 ∨ month = 8 ∨
        month = 9 ∨ month = 10 ∨ month = 11 ∨ month = 12 := by omega
  all_goals
    unfold daysInMonth Calendar.daysInMonth
    cases isLeapYear year <;> decide

theorem daysToMonth_eq (year days : Int) {month : Int} (first : 1 ≤ month) (last : month ≤ 12) :
    daysToMonth year month days = days + daysBeforeMonth year month := by
  have counted : ∀ count : Nat, count ≤ 11 →
      (List.range count).foldl (fun (days : Int) (passed : Nat) => days + daysInMonth year (1 + passed)) days =
        days + daysBeforeMonth year (1 + count) := by
    intro count
    induction count with
    | zero => simp [daysBeforeMonth]
    | succ count ih =>
      intro bound
      rw [List.range_succ, List.foldl_append, ih (by omega)]
      have next := daysBeforeMonth_succ year (show 1 ≤ 1 + (count : Int) by omega) (by omega)
      rw [Nat.cast_add, Nat.cast_one, ← add_assoc, next]
      simp only [List.foldl_cons, List.foldl_nil]
      rw [daysInMonth_eq year (by omega) (by omega)]
      omega
  rw [daysToMonth, counted _ (by omega), Int.toNat_of_nonneg (by omega)]
  simp

end Source

theorem toNat_digit {digit : Char} (isDigit : digit.isDigit = true) :
    ((digit.toNat - '0'.toNat : Nat) : Int) = (digit.toNat : Int) - '0'.toNat :=
  Int.ofNat_sub (Char.isDigit_iff_toNat.1 isDigit).1

theorem readNatural_two {first second : Char} (digits : first.isDigit = true ∧ second.isDigit = true) :
    (readNatural [first, second] : Int) =
      ((first.toNat : Int) - '0'.toNat) * 10 + ((second.toNat : Int) - '0'.toNat) := by
  rw [← toNat_digit digits.1, ← toNat_digit digits.2]
  simp only [readNatural, Nat.ofDigitChars, List.foldl_cons, List.foldl_nil]
  push_cast
  ring

theorem readNatural_four {first second third fourth : Char} (digits : first.isDigit = true ∧ second.isDigit = true)
    (more : third.isDigit = true ∧ fourth.isDigit = true) :
    (readNatural [first, second, third, fourth] : Int) =
      ((first.toNat : Int) - '0'.toNat) * 1000 + ((second.toNat : Int) - '0'.toNat) * 100 +
        ((third.toNat : Int) - '0'.toNat) * 10 + ((fourth.toNat : Int) - '0'.toNat) := by
  rw [← toNat_digit digits.1, ← toNat_digit digits.2, ← toNat_digit more.1, ← toNat_digit more.2]
  simp only [readNatural, Nat.ofDigitChars, List.foldl_cons, List.foldl_nil]
  push_cast
  ring

theorem isCalendarDate_cons {a b c d e f g h : Char} {days : Int}
    (digits : ∀ digit ∈ [a, b, c, d, e, f, g, h], digit.isDigit = true) :
    IsCalendarDate [a, b, c, d, '-', e, f, '-', g, h] days ↔
      1 ≤ readNatural [e, f] ∧ readNatural [e, f] ≤ 12 ∧ 1 ≤ readNatural [g, h] ∧
      (readNatural [g, h] : Int) ≤ daysInMonth (readNatural [a, b, c, d]) (readNatural [e, f]) ∧
      days = yearStart (readNatural [a, b, c, d]) +
        daysBeforeMonth (readNatural [a, b, c, d]) (readNatural [e, f]) + (readNatural [g, h] - 1) := by
  constructor
  · rintro ⟨year, month, day, same, four, two, alsoTwo, -, rest⟩
    obtain ⟨y1, y2, y3, y4, rfl⟩ := List.length_eq_four.1 four
    obtain ⟨m1, m2, rfl⟩ := List.length_eq_two.1 two
    obtain ⟨d1, d2, rfl⟩ := List.length_eq_two.1 alsoTwo
    simp only [List.cons_append, List.nil_append, List.cons.injEq, and_true, true_and] at same
    obtain ⟨rfl, rfl, rfl, rfl, rfl, rfl, rfl, rfl⟩ := same
    exact rest
  · intro rest
    exact ⟨[a, b, c, d], [e, f], [g, h], rfl, rfl, rfl, rfl, digits, rest⟩

/-- A text in the form of a date is read as the date it is, and as none otherwise. -/
theorem parseIsoDate_cons {a b c d e f g h : Char} {days : Int32}
    (digits : ∀ digit ∈ [a, b, c, d, e, f, g, h], digit.isDigit = true) :
    parseIsoDate [a, b, c, d, '-', e, f, '-', g, h] = .ok days ↔
      ∃ number, IsCalendarDate [a, b, c, d, '-', e, f, '-', g, h] number ∧ days = Int32.ofInt number := by
  simp only [isCalendarDate_cons digits]
  simp only [List.forall_mem_cons] at digits
  obtain ⟨isA, isB, isC, isD, isE, isF, isG, isH, -⟩ := digits
  have year := readNatural_four ⟨isA, isB⟩ ⟨isC, isD⟩
  have month := readNatural_two ⟨isE, isF⟩
  have day := readNatural_two ⟨isG, isH⟩
  have form : parseIsoDate [a, b, c, d, '-', e, f, '-', g, h] =
      if (readNatural [e, f] : Int) < 1 ∨ 12 < (readNatural [e, f] : Int) then
        .error (dateMessage [a, b, c, d, '-', e, f, '-', g, h])
      else if (readNatural [g, h] : Int) < 1 ∨
          Source.daysInMonth (readNatural [a, b, c, d]) (readNatural [e, f]) < readNatural [g, h] then
        .error (dateMessage [a, b, c, d, '-', e, f, '-', g, h])
      else .ok (Int32.ofInt (Source.daysToMonth (readNatural [a, b, c, d]) (readNatural [e, f])
        (Source.daysToYear (readNatural [a, b, c, d])) + (readNatural [g, h] - 1))) := by
    rw [year, month, day]
    unfold parseIsoDate
    rw [if_neg (by simp), if_neg (by simp [isA, isB, isC, isD, isE, isF, isG, isH])]
    rfl
  rw [form]
  by_cases inYear : 1 ≤ readNatural [e, f] ∧ readNatural [e, f] ≤ 12
  · have first : 1 ≤ (readNatural [e, f] : Int) := by exact_mod_cast inYear.1
    have last : (readNatural [e, f] : Int) ≤ 12 := by exact_mod_cast inYear.2
    rw [if_neg (by omega), Source.daysInMonth_eq _ first last, Source.daysToMonth_eq _ _ first last,
      Source.daysToYear_eq]
    by_cases inMonth : 1 ≤ readNatural [g, h] ∧
        (readNatural [g, h] : Int) ≤ daysInMonth (readNatural [a, b, c, d]) (readNatural [e, f])
    · rw [if_neg (by omega), Except.ok.injEq]
      simp [inYear, inMonth, eq_comm]
    · rw [if_pos (by omega)]
      simp only [reduceCtorEq, false_iff]
      rintro ⟨number, ⟨-, -, fromOne, bound, -⟩, -⟩
      exact inMonth ⟨fromOne, bound⟩
  · rw [if_pos (by omega)]
    simp only [reduceCtorEq, false_iff]
    rintro ⟨number, ⟨fromOne, bound, -⟩, -⟩
    exact inYear ⟨fromOne, bound⟩

/-- What is read as a date are the dates of the calendar, by their numbers. -/
theorem parseIsoDate_ok {text : List Char} {days : Int32} :
    parseIsoDate text = .ok days ↔ ∃ number, IsCalendarDate text number ∧ days = Int32.ofInt number := by
  constructor
  · intro parsed
    have shape : ∃ a b c d e f g h, text = [a, b, c, d, '-', e, f, '-', g, h] ∧
        ∀ digit ∈ [a, b, c, d, e, f, g, h], digit.isDigit = true := by
      unfold parseIsoDate at parsed
      split at parsed
      · cases parsed
      rename_i formed
      split at parsed
      · cases parsed
      rename_i digits
      simp only [not_or, not_not] at formed
      obtain ⟨ten, minus, alsoMinus⟩ := formed
      obtain ⟨a, b, c, d, front⟩ := List.length_eq_four.1 (show (text.take 4).length = 4 by simp [ten])
      obtain ⟨m, e, f, middle⟩ := List.length_eq_three.1 (show ((text.drop 4).take 3).length = 3 by simp [ten])
      obtain ⟨n, g, h, back⟩ := List.length_eq_three.1 (show ((text.drop 4).drop 3).length = 3 by simp [ten])
      obtain rfl : text = [a, b, c, d, m, e, f, n, g, h] := by
        rw [← List.take_append_drop 4 text, front, ← List.take_append_drop 3 (text.drop 4), middle, back]
        rfl
      obtain rfl : m = '-' := Option.some.inj minus
      obtain rfl : n = '-' := Option.some.inj alsoMinus
      refine ⟨a, b, c, d, e, f, g, h, rfl, ?_⟩
      simpa [and_assoc] using digits
    obtain ⟨a, b, c, d, e, f, g, h, rfl, digits⟩ := shape
    exact (parseIsoDate_cons digits).1 parsed
  · rintro ⟨number, isDate, rfl⟩
    have shape : ∃ a b c d e f g h, text = [a, b, c, d, '-', e, f, '-', g, h] ∧
        ∀ digit ∈ [a, b, c, d, e, f, g, h], digit.isDigit = true := by
      obtain ⟨year, month, day, same, four, two, alsoTwo, digits, -⟩ := isDate
      obtain ⟨y1, y2, y3, y4, rfl⟩ := List.length_eq_four.1 four
      obtain ⟨m1, m2, rfl⟩ := List.length_eq_two.1 two
      obtain ⟨d1, d2, rfl⟩ := List.length_eq_two.1 alsoTwo
      exact ⟨y1, y2, y3, y4, m1, m2, d1, d2, same, digits⟩
    obtain ⟨a, b, c, d, e, f, g, h, rfl, digits⟩ := shape
    exact (parseIsoDate_cons digits).2 ⟨number, isDate, rfl⟩

theorem daysBeforeMonth_bounds (year : Int) {month : Int} (last : month ≤ 12) :
    0 ≤ daysBeforeMonth year month ∧ daysBeforeMonth year month ≤ 335 := by
  by_cases first : month ≤ 1
  · rw [daysBeforeMonth, if_pos first]
    decide
  · obtain rfl | rfl | rfl | rfl | rfl | rfl | rfl | rfl | rfl | rfl | rfl :
        month = 2 ∨ month = 3 ∨ month = 4 ∨ month = 5 ∨ month = 6 ∨ month = 7 ∨ month = 8 ∨ month = 9 ∨
          month = 10 ∨ month = 11 ∨ month = 12 := by omega
    all_goals
      unfold daysBeforeMonth
      cases isLeapYear year <;> decide

theorem daysInMonth_le (year month : Int) : daysInMonth year month ≤ 31 := by
  unfold daysInMonth
  split
  · split <;> omega
  · split <;> omega

theorem isCalendarDate_bounds {text : List Char} {days : Int} (isDate : IsCalendarDate text days) :
    -1000000 ≤ days ∧ days ≤ 4000000 := by
  obtain ⟨year, month, day, -, four, -, -, digits, -, last, first, bound, rfl⟩ := isDate
  obtain ⟨y1, y2, y3, y4, rfl⟩ := List.length_eq_four.1 four
  have isDigit (digit : Char) (member : digit ∈ [y1, y2, y3, y4]) : digit.isDigit = true :=
    digits digit (List.mem_append_left _ (List.mem_append_left _ member))
  have four := readNatural_four ⟨isDigit y1 (by simp), isDigit y2 (by simp)⟩
    ⟨isDigit y3 (by simp), isDigit y4 (by simp)⟩
  have zero : ('0'.toNat : Int) = 48 := by decide
  have nine : '9'.toNat = 57 := by decide
  have atMost (digit : Char) (member : digit ∈ [y1, y2, y3, y4]) : digit.toNat ≤ 57 :=
    nine ▸ (Char.isDigit_iff_toNat.1 (isDigit digit member)).2
  have small : readNatural [y1, y2, y3, y4] ≤ 9999 := by
    have b1 := atMost y1 (by simp)
    have b2 := atMost y2 (by simp)
    have b3 := atMost y3 (by simp)
    have b4 := atMost y4 (by simp)
    omega
  have before := daysBeforeMonth_bounds (readNatural [y1, y2, y3, y4])
    (show (readNatural month : Int) ≤ 12 by exact_mod_cast last)
  have within := daysInMonth_le (readNatural [y1, y2, y3, y4]) (readNatural month)
  unfold yearStart
  omega

end KernelLake.PartitionValues
