import Timetable.Calendar.Date

/-!
The date of Easter Sunday in the Gregorian calendar.

The computation follows the moon through a cycle of 19 years and corrects it by century. Quotients
are rounded towards zero and remainders take the sign of the dividend, which matters for negative
years only: there the result may name no month or no day, and then there is no date.
-/

namespace Timetable.Easter

/-- The month number and the day number of Easter, before it is checked that they name a day. -/
def monthAndDay (year : Int) : Int × Int :=
  let golden := year.tmod 19
  let century := year.tdiv 100
  let yearOfCentury := year.tmod 100
  let skippedLeapDays := century - century.tdiv 4
  let moonShift := (century - (century + 8).tdiv 25 + 1).tdiv 3
  let epact := (19 * golden + skippedLeapDays - moonShift + 15).tmod 30
  let weekdayShift :=
    (32 + 2 * century.tmod 4 + 2 * yearOfCentury.tdiv 4 - epact - yearOfCentury.tmod 4).tmod 7
  let lateMoon := (golden + 11 * epact + 22 * weekdayShift).tdiv 451
  let sunday := epact + weekdayShift - 7 * lateMoon + 114
  (sunday.tdiv 31, sunday.tmod 31 + 1)

/-- Easter Sunday of a year. -/
def date? (year : Int) : Option Date :=
  let (month, day) := monthAndDay year
  if 0 ≤ month ∧ 0 ≤ day then
    (Month.ofNumber? month.toNat).bind fun m => Date.ofParts? year m day.toNat
  else none

end Timetable.Easter
