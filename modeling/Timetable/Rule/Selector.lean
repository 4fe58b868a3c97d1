import Timetable.Calendar.Month
import Timetable.Calendar.Weekday
import Timetable.Text.Decimal

/-!
Selectors: which dates a rule speaks of.

A selector has five lists of conditions. A date has to satisfy one condition of each list, and an
empty list asks for nothing; `Sa,Su` names two weekdays and `week 10 Sa` one Saturday a year.
Holidays may stand in two of the lists: among the weekdays (`Mo,PH`) they are one more way to
match, and in a list of their own (`PH Mo`) they are one more demand. Weekdays, months and weeks
come round again, so that a range of them whose last element comes before its first one runs over
the end of the cycle (`cycleContains`).
-/

namespace Timetable

/-- Whether an element lies between two others, over the end of the cycle if they are reversed. -/
def cycleContains (first last element : Nat) : Bool :=
  if first ≤ last then first ≤ element && element ≤ last
  else first ≤ element || element ≤ last

theorem cycleContains_first (first last : Nat) : cycleContains first last first = true := by
  simp only [cycleContains]
  split <;> simp_all

/-- Kinds of holidays. -/
inductive Holiday where
  | publicHoliday | schoolHoliday
  deriving DecidableEq, Repr, Inhabited

/-- The two letters that stand for a kind of holidays. -/
def Holiday.abbreviation : Holiday → String
  | .publicHoliday => "PH"
  | .schoolHoliday => "SH"

/-- Every so many years, from a first to a last one. -/
structure YearRange where
  first : Nat
  last : Nat
  step : Nat
  deriving DecidableEq, Repr

/-- Every so many weeks of the year, from a first to a last one, over New Year if reversed. -/
structure WeekRange where
  first : Nat
  last : Nat
  step : Nat
  deriving DecidableEq, Repr

/-- A day of a given year, or of every year. -/
inductive AnnualDay where
  | fixed (year : Option Nat) (month : Month) (day : Nat)
  | easter (year : Option Nat)
  deriving DecidableEq, Repr

/-- A part of the year. -/
inductive DateRange where
  /-- From a month to a month, over New Year if reversed. -/
  | months (year : Option Nat) (first last : Month)
  /-- From a day to a day. -/
  | days (first last : AnnualDay)
  deriving DecidableEq, Repr

/-- A condition on the day of the week. -/
inductive WeekdayRange where
  /-- From a day to a day, over the end of the week if reversed. -/
  | days (first last : Weekday)
  /-- A kind of holidays that stands among the weekdays. -/
  | holiday (kind : Holiday)
  deriving DecidableEq, Repr

/-- Conditions on a date: one of each list that is not empty has to hold (`Selector`, §3). -/
structure Selector where
  years : List YearRange := []
  dates : List DateRange := []
  weeks : List WeekRange := []
  weekdays : List WeekdayRange := []
  holidays : List Holiday := []
  deriving DecidableEq, Repr

/-! ### Written form -/

/-- What follows the first number of a range: the last one if it differs, and the step unless it
is 1. -/
def rangeTail (last : Option String) (step : Nat) : String :=
  (match last with
    | some text => "-" ++ text
    | none => "") ++
  if step = 1 then "" else "/" ++ Decimal.natural step

/-- The years, and the step unless it is 1. -/
def YearRange.text (range : YearRange) : String :=
  Decimal.natural range.first ++
    rangeTail (if range.first = range.last then none else some (Decimal.natural range.last))
      range.step

/-- The weeks with two digits each, and the step unless it is 1. -/
def WeekRange.text (range : WeekRange) : String :=
  Decimal.twoDigits range.first ++
    rangeTail (if range.first = range.last then none else some (Decimal.twoDigits range.last))
      range.step

/-- A year with a space after it, or nothing. -/
def yearLead : Option Nat → String
  | some year => Decimal.natural year ++ " "
  | none => ""

namespace AnnualDay

/-- The year, if the day is one of a given year. -/
def year? : AnnualDay → Option Nat
  | fixed year _ _ => year
  | easter year => year

/-- The year if it is given, then month and day, or the word for Easter. -/
def text : AnnualDay → String
  | fixed year month day =>
    yearLead year ++ month.abbreviation ++ " " ++ Decimal.twoDigits day
  | easter year => yearLead year ++ "easter"

end AnnualDay

/-- The first and the last element, the latter only if it differs. -/
def DateRange.text : DateRange → String
  | .months year first last =>
    yearLead year ++ first.abbreviation ++
      if first = last then "" else "-" ++ last.abbreviation
  | .days first last => first.text ++ if first = last then "" else "-" ++ last.text

/-- The first and the last day, the latter only if it differs, or the letters for holidays. -/
def WeekdayRange.text : WeekdayRange → String
  | .days first last =>
    first.abbreviation ++ if first = last then "" else "-" ++ last.abbreviation
  | .holiday kind => kind.abbreviation

namespace Selector

/-- Whether the selector asks for nothing. -/
def isEmpty (selector : Selector) : Bool :=
  selector.years.isEmpty && selector.dates.isEmpty && selector.weeks.isEmpty &&
    selector.weekdays.isEmpty && selector.holidays.isEmpty

/-- The lists that are not empty, in the order in which an expression writes them. -/
def groups (selector : Selector) : List String :=
  let group (lead : String) (items : List String) : List String :=
    if items.isEmpty then [] else [lead ++ String.intercalate "," items]
  group "" (selector.years.map YearRange.text) ++
    group "" (selector.dates.map DateRange.text) ++
    group "week " (selector.weeks.map WeekRange.text) ++
    group "" (selector.holidays.map Holiday.abbreviation) ++
    group "" (selector.weekdays.map WeekdayRange.text)

/-- The selector as an expression writes it. -/
def text (selector : Selector) : String := String.intercalate " " selector.groups

/-! ### What a selector mentions -/

/-- Whether a day of the week, counted from Monday, satisfies a condition on weekdays. -/
def coversWeekday (weekdays : List WeekdayRange) (day : Nat) : Bool :=
  weekdays.any fun range =>
    match range with
    | .days first last => cycleContains first.index last.index day
    | .holiday _ => false

/-- Whether the selector is seen to match every date: it asks at most for a weekday, and each of
the seven will do. -/
def isEveryDay (selector : Selector) : Bool :=
  selector.years.isEmpty && selector.dates.isEmpty && selector.weeks.isEmpty &&
    selector.holidays.isEmpty &&
    (selector.weekdays.isEmpty || (List.range 7).all (coversWeekday selector.weekdays))

/-- Whether a kind of holidays is named in the selector. -/
def mentionsHoliday (selector : Selector) (kind : Holiday) : Bool :=
  selector.holidays.contains kind || selector.weekdays.contains (.holiday kind)

end Selector

end Timetable
