import Timetable.Calendar.Date

/-!
Weeks that begin on Monday and belong to the year that holds their Thursday.

The first and the last days of the calendar may belong to a week whose year lies outside the
calendar: the number of weeks of such a year is taken to be 52.
-/

namespace Timetable

/-- A numbered week of a year. -/
structure IsoWeek where
  year : Int
  week : Nat
  deriving DecidableEq, Repr

namespace IsoWeek

/-- The Thursday of the week that holds a day. -/
def thursday (day : Int) : Int := day - day % 7 + 3

/-- The week that holds a day. -/
def ofDay (day : Int) : IsoWeek :=
  let year := yearOf (thursday day)
  ⟨year, ((thursday day - startOfYear year) / 7).toNat + 1⟩

/-- A year has 53 weeks if it begins or ends with a Thursday; the years outside the calendar are
not looked at. -/
def weeksInYear (year : Int) : Nat :=
  if -262143 ≤ year ∧ year ≤ 262142 ∧
      (startOfYear year % 7 = 3 ∨ (startOfYear (year + 1) - 1) % 7 = 3) then 53
  else 52

end IsoWeek

/-- The numbered week that holds a date. -/
def Date.isoWeek (date : Date) : IsoWeek := IsoWeek.ofDay date.number

end Timetable
