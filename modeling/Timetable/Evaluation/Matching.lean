import Timetable.Calendar.Easter
import Timetable.Calendar.IsoWeek
import Timetable.Rule.Basic

/-!
Which dates a selector matches.
-/

namespace Timetable

/-- Which dates are holidays, for each kind of holidays (`ContextHolidays`, §10.5). -/
abbrev HolidayCalendar := Holiday → Date → Bool

namespace HolidayCalendar

/-- A calendar without holidays. -/
def empty : HolidayCalendar := fun _ _ => false

/-- The calendar of two lists of dates. -/
def ofLists (publicDates schoolDates : List Date) : HolidayCalendar
  | .publicHoliday, date => publicDates.contains date
  | .schoolHoliday, date => schoolDates.contains date

end HolidayCalendar

/-- Whether a date lies in one of the years. -/
def YearRange.holdsOn (range : YearRange) (date : Date) : Bool :=
  let year := date.year.toNat
  0 ≤ date.year && range.first ≤ year && year ≤ range.last &&
    (year - range.first) % range.step == 0

/-- Whether a date lies in one of the weeks. A range over New Year goes on counting its steps from
the week in which it began. -/
def WeekRange.holdsOn (range : WeekRange) (date : Date) : Bool :=
  let iso := date.isoWeek
  let weeksSinceFirst :=
    if range.first ≤ iso.week then iso.week - range.first
    else IsoWeek.weeksInYear (iso.year - 1) - range.first + iso.week
  cycleContains range.first range.last iso.week && weeksSinceFirst % range.step == 0

/-- The date of a day in its year, or in a given year if it has none. A day that its month lacks is
the last day of that month. -/
def AnnualDay.inYear? (day : AnnualDay) (year : Int) : Option Date :=
  let year : Int := (day.year?.map Int.ofNat).getD year
  match day with
  | .fixed _ month number => Date.lastNotAfter? year month number
  | .easter _ => Easter.date? year

/-- The dates from one day to another if the first one lies in a given year. An end without a year
lies in the year after if it would come before the beginning. -/
def AnnualDay.interval? (first last : AnnualDay) (year : Int) : Option (Date × Date) := do
  let start ← first.inYear? year
  let stop ← last.inYear? year
  if stop < start ∧ last.year?.isNone then return (start, ← last.inYear? (year + 1))
  else return (start, stop)

/-- Whether a date lies between two dates, both included. -/
def liesBetween (date : Date) : Option (Date × Date) → Bool
  | some (start, stop) => start ≤ date && date ≤ stop
  | none => false

/-- Whether a date lies in the part of the year. Days without a year come back every year: those of
the year before may last until the date. -/
def DateRange.holdsOn (range : DateRange) (date : Date) : Bool :=
  match range with
  | .months none first last => cycleContains first.number last.number date.month.number
  | .months (some year) first last =>
    if first.number ≤ last.number then
      date.year == year && first.number ≤ date.month.number && date.month.number ≤ last.number
    else
      (date.year == year && first.number ≤ date.month.number) ||
        (date.year == year + 1 && date.month.number ≤ last.number)
  | .days first last =>
    match first.year?.or last.year? with
    | some year => liesBetween date (first.interval? last year)
    | none =>
      liesBetween date (first.interval? last (date.year - 1)) ||
        liesBetween date (first.interval? last date.year)

/-- Whether a date satisfies a condition on weekdays. -/
def WeekdayRange.holdsOn (holidays : HolidayCalendar) (range : WeekdayRange) (date : Date) : Bool :=
  match range with
  | .days first last => cycleContains first.index last.index date.weekday.index
  | .holiday kind => holidays kind date

/-- Whether a condition of a list holds, or the list asks for nothing. -/
def anyHolds {α : Type} (holds : α → Bool) (conditions : List α) : Bool :=
  conditions.isEmpty || conditions.any holds

/-- Whether the selector matches a date (`Selector`, §3). -/
def Selector.holdsOn (holidays : HolidayCalendar) (selector : Selector) (date : Date) : Bool :=
  anyHolds (·.holdsOn date) selector.years && anyHolds (·.holdsOn date) selector.dates &&
    anyHolds (·.holdsOn date) selector.weeks &&
    anyHolds (·.holdsOn holidays date) selector.weekdays &&
    anyHolds (holidays · date) selector.holidays

end Timetable
