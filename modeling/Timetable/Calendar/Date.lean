import Std.Data.TreeMap
import Timetable.Calendar.Month
import Timetable.Calendar.Weekday
import Timetable.Text.Decimal

/-!
Dates of the proleptic Gregorian calendar, year 0 included.

A date is the number of days since Monday, 1 January of year 1; the year, the month and the day of
the month are read off that number. The calendar ends on both sides: it begins with
1 January -262143 and ends with 31 December 262142, and the neighbour of an end is missing.

`yearOf` guesses a year from the mean length of a year and corrects the guess by one:
`startOfYear_yearOf_le` and `lt_startOfYear_yearOf` say that this is enough.
-/

namespace Timetable

/-- A leap year is divisible by 4, and by 400 if it is divisible by 100. -/
def isLeapYear (year : Int) : Bool :=
  year % 4 == 0 && (year % 100 != 0 || year % 400 == 0)

/-- Days from 1 January of year 1 to 1 January of another year. -/
def startOfYear (year : Int) : Int :=
  365 * (year - 1) + (year - 1) / 4 - (year - 1) / 100 + (year - 1) / 400

/-- The year that holds a day, counted from 1 January of year 1. -/
def yearOf (day : Int) : Int :=
  let guess := day * 400 / 146097 + 1
  if startOfYear (guess + 1) ≤ day then guess + 1
  else if day < startOfYear guess then guess - 1
  else guess

theorem startOfYear_succ (year : Int) :
    startOfYear (year + 1) = startOfYear year + if isLeapYear year then 366 else 365 := by
  simp only [startOfYear, isLeapYear, Bool.and_eq_true, Bool.or_eq_true, beq_iff_eq, bne_iff_ne]
  split <;> omega

theorem startOfYear_yearOf_le (day : Int) : startOfYear (yearOf day) ≤ day := by
  simp only [yearOf]
  split
  · assumption
  · split
    · simp only [startOfYear] at *; omega
    · omega

theorem lt_startOfYear_yearOf (day : Int) : day < startOfYear (yearOf day + 1) := by
  simp only [yearOf]
  split
  · simp only [startOfYear] at *; omega
  · split
    · simpa using ‹day < _›
    · omega

/-- A day of the calendar. -/
structure Date where
  /-- Days since Monday, 1 January of year 1. -/
  number : Int
  first_le : -95746130 ≤ number
  le_last : number ≤ 95745398
  deriving DecidableEq

namespace Date

/-- The date with a number, if the calendar reaches that far. -/
def ofNumber? (number : Int) : Option Date :=
  if h : -95746130 ≤ number ∧ number ≤ 95745398 then some ⟨number, h.1, h.2⟩ else none

instance : Inhabited Date := ⟨0, by decide, by decide⟩

instance : LT Date := ⟨fun a b => a.number < b.number⟩

instance : LE Date := ⟨fun a b => a.number ≤ b.number⟩

instance (a b : Date) : Decidable (a < b) := inferInstanceAs (Decidable (a.number < b.number))

instance (a b : Date) : Decidable (a ≤ b) := inferInstanceAs (Decidable (a.number ≤ b.number))

/-- The day after, which the last day of the calendar lacks. -/
def next? (date : Date) : Option Date := ofNumber? (date.number + 1)

/-- The day before, which the first day of the calendar lacks. -/
def previous? (date : Date) : Option Date := ofNumber? (date.number - 1)

/-- The calendar year, which may be zero or negative. -/
def year (date : Date) : Int := yearOf date.number

/-- Days since 1 January of the same year. -/
def dayOfYear (date : Date) : Nat := (date.number - startOfYear date.year).toNat

/-- The month of the year. -/
def month (date : Date) : Month := Month.ofDayOfYear (isLeapYear date.year) date.dayOfYear

/-- The day of the month, counted from 1. -/
def day (date : Date) : Nat :=
  date.dayOfYear - date.month.daysBefore (isLeapYear date.year) + 1

/-- The day of the week: day 0 is a Monday. -/
def weekday (date : Date) : Weekday := Weekday.ofIndex (date.number % 7).toNat

/-- The date with a year, a month and a day of that month. -/
def ofParts? (year : Int) (month : Month) (day : Nat) : Option Date :=
  if 1 ≤ day ∧ day ≤ month.length (isLeapYear year) then
    ofNumber? (startOfYear year + month.daysBefore (isLeapYear year) + (day - 1))
  else none

/-- The last day of a month that is not after a day number, so that 30 February is the end of
February. There is none for day 0. -/
def lastNotAfter? (year : Int) (month : Month) (day : Nat) : Option Date :=
  ofParts? year month (min day (month.length (isLeapYear year)))

/-- A year in a date: four digits, and outside 0 to 9999 also a sign. -/
def yearText (year : Int) : String :=
  let digits := Decimal.padded 4 year.natAbs
  if year < 0 then "-" ++ digits
  else if year ≤ 9999 then digits
  else "+" ++ digits

/-- Year, month and day, joined by hyphens. -/
def text (date : Date) : String :=
  yearText date.year ++ "-" ++ Decimal.twoDigits date.month.number ++ "-" ++
    Decimal.twoDigits date.day

theorem lt_iff {a b : Date} : a < b ↔ a.number < b.number := Iff.rfl

theorem le_iff {a b : Date} : a ≤ b ↔ a.number ≤ b.number := Iff.rfl

theorem ext {a b : Date} (h : a.number = b.number) : a = b := by
  cases a; cases b; simp_all

theorem number_ofNumber? {n : Int} {date : Date} (h : ofNumber? n = some date) :
    date.number = n := by
  simp only [ofNumber?] at h
  split at h
  · cases h; rfl
  · cases h

theorem ofNumber?_number (date : Date) : ofNumber? date.number = some date := by
  simp [ofNumber?, date.first_le, date.le_last]

theorem number_next? {a b : Date} (h : a.next? = some b) : b.number = a.number + 1 :=
  number_ofNumber? h

theorem number_previous? {a b : Date} (h : a.previous? = some b) : b.number = a.number - 1 :=
  number_ofNumber? h

theorem next?_eq_none_iff {date : Date} : date.next? = none ↔ date.number = 95745398 := by
  have := date.first_le
  have := date.le_last
  simp only [next?, ofNumber?, dite_eq_right_iff, reduceCtorEq, imp_false]
  omega

end Date

/-! ### Tables -/

instance : Ord Date := ⟨compareOn Date.number⟩

instance : Std.TransOrd Date := inferInstanceAs (Std.TransCmp (compareOn Date.number))

instance : Std.LawfulEqOrd Date where
  compare_self {date} := Int.compare_eq_eq.2 (rfl : date.number = date.number)
  eq_of_compare h := Date.ext (Std.LawfulEqOrd.eq_of_compare (α := Int) h)

/-- A table with an entry for some dates. -/
abbrev DateTable (α : Type) := Std.TreeMap Date α

end Timetable
