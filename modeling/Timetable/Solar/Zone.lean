import Timetable.Calendar.Date

/-!
Time zones: by how many seconds local clocks are ahead of universal time at a given moment.

Moments are counted in seconds from the beginning of 1970 in universal time. The rules are those in
force from 2008 on; before the year in which its rule begins, a zone keeps standard time. These are
zones to compute the position of the sun with (`Sun.almanac`); places may have zones of any type.
-/

namespace Timetable

/-- The time zones that are known. -/
inductive TimeZone where
  | utc | kolkata | kiritimati | paris | oslo | newYork | auckland
  deriving DecidableEq, Repr, Inhabited

namespace TimeZone

/-- The zones in a list. -/
def all : List TimeZone := [utc, kolkata, kiritimati, paris, oslo, newYork, auckland]

/-- The name under which a zone is registered. -/
def name : TimeZone → String
  | utc => "UTC"
  | kolkata => "Asia/Kolkata"
  | kiritimati => "Pacific/Kiritimati"
  | paris => "Europe/Paris"
  | oslo => "Europe/Oslo"
  | newYork => "America/New_York"
  | auckland => "Pacific/Auckland"

/-- The zone with a name. -/
def ofName? (name : String) : Option TimeZone := all.find? fun zone => zone.name == name

/-- The number of the day on which the seconds begin to be counted, 1 January 1970. -/
def epochDay : Int := 719162

/-- Seconds from 1970 to an hour of a day, in universal time. -/
def secondsAt (day hour : Int) : Int := (day - epochDay) * 86400 + hour * 3600

/-- The first Sunday that is not before a day. -/
def sundayFrom (day : Int) : Int := day + (6 - day % 7)

/-- The first day of a month. -/
def startOfMonth (year : Int) (month : Month) : Int :=
  startOfYear year + month.daysBefore (isLeapYear year)

/-- The last Sunday of a month. -/
def lastSunday (year : Int) (month : Month) : Int :=
  sundayFrom (startOfMonth year month + month.length (isLeapYear year) - 7)

/-- Whether the clocks of most of Europe show summer time: from the last Sunday of March to the
last Sunday of October, at 01:00 in universal time. -/
def europeanSummer (year seconds : Int) : Bool :=
  1996 ≤ year && secondsAt (lastSunday year .march) 1 ≤ seconds &&
    seconds < secondsAt (lastSunday year .october) 1

/-- Whether the clocks of New York show summer time: from the second Sunday of March to the first
Sunday of November, at 02:00 on the local clock. -/
def newYorkSummer (year seconds : Int) : Bool :=
  2007 ≤ year && secondsAt (sundayFrom (startOfMonth year .march) + 7) 7 ≤ seconds &&
    seconds < secondsAt (sundayFrom (startOfMonth year .november)) 6

/-- Whether the clocks of Auckland show summer time: from the last Sunday of September, 02:00 in
standard time, to the first Sunday of April, 02:00 in standard time. The first such summer begins
in 2007. -/
def aucklandSummer (year seconds : Int) : Bool :=
  (2007 ≤ year && secondsAt (lastSunday year .september) (-10) ≤ seconds) ||
    (2008 ≤ year && seconds < secondsAt (sundayFrom (startOfMonth year .april)) (-10))

/-- Hours ahead of universal time, one more in summer. -/
def withSummer (hours : Int) (summer : Bool) : Int :=
  (if summer then hours + 1 else hours) * 3600

/-- Seconds by which local clocks are ahead of universal time. The Line Islands changed theirs
twice, and the second time to the other side of the date line. -/
def offset (zone : TimeZone) (seconds : Int) : Int :=
  let year := yearOf (seconds / 86400 + epochDay)
  match zone with
  | utc => 0
  | kolkata => 19800
  | kiritimati =>
    if seconds < 307622400 then -38400 else if seconds < 788868000 then -36000 else 50400
  | paris | oslo => withSummer 1 (europeanSummer year seconds)
  | newYork => withSummer (-5) (newYorkSummer year seconds)
  | auckland => withSummer 12 (aucklandSummer year seconds)

end TimeZone

end Timetable
