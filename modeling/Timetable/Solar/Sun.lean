import Timetable.Solar.Hours
import Timetable.Solar.Zone

/-!
The position of the sun, and the times of its events at a place.

The place of the sun follows from the anomaly of the earth, the equation of the center and the tilt
of the axis, which is good to some minutes over centuries. Dawn and dusk are those of civil
twilight. This is one almanac of many (`Sun.almanac`): all that asks for the times of the sun takes
them from any almanac.
-/

namespace Timetable

namespace Sun

/-- Half the circumference of the unit circle. -/
def pi : Float := 3.141592653589793

/-- One degree as an angle. -/
def degree : Float := pi / 180

/-- The Julian day on which the seconds begin to be counted, 1 January 1970. -/
def epochJulianDay : Float := 2440587.5

/-- Noon of a date at a longitude, in Julian days. -/
def localNoon (day : Int) (lon : Float) : Float :=
  Float.ofInt (TimeZone.secondsAt day 12) / 86400 + epochJulianDay - lon / 360

/-- How far the earth has gone on its way around the sun since it was nearest to it. -/
def anomaly (noon : Float) : Float :=
  let angle :=
    Angle.remainder ((357.5291 + 0.98560028 * (noon - 2451545)) * degree) (2 * pi)
  if angle < 0 then angle + 2 * pi else angle

/-- By how much the sun is ahead of its mean place. -/
def center (anomaly : Float) : Float :=
  (1.9148 * anomaly.sin + 0.02 * (2 * anomaly).sin + 0.0003 * (3 * anomaly).sin) * degree

/-- The place of the sun on its yearly circle through the stars. -/
def longitude (noon anomaly : Float) : Float :=
  let perihelion := (102.93005 + 0.3179526 * (noon - 2451545) / 36525) * degree
  Angle.remainder
    (anomaly + center anomaly + Angle.remainder perihelion (2 * pi) + 3 * pi) (2 * pi)

/-- How far below the horizon the sun stands at an event: its upper edge is seen at sunrise and
sunset, and civil twilight lasts until six degrees. -/
def depression : SolarEvent → Float
  | .sunrise | .sunset => 5 * degree / 6
  | .dawn | .dusk => 6 * degree

/-- The time from the event to noon as an angle of the turning earth, negative in the morning. It
is not a number if the sun does not reach the place of the event. -/
def hourAngle (event : SolarEvent) (lat longitude : Float) : Float :=
  let declination := (longitude.sin * 0.39779).asin
  let angle :=
    ((-(depression event).sin - (lat * degree).sin * declination.sin) /
      ((lat * degree).cos * declination.cos)).acos
  match event with
  | .dawn | .sunrise => -angle
  | .sunset | .dusk => angle

/-- The time of an event, in seconds from 1970 in universal time. An event that does not happen is
put at the beginning of 1970. -/
def eventSeconds (day : Int) (coordinates : Coordinates) (event : SolarEvent) : Int :=
  let noon := localNoon day coordinates.lon
  let anomaly := anomaly noon
  let longitude := longitude noon anomaly
  let transit := noon + (0.0053 * anomaly.sin - 0.0069 * (2 * longitude).sin)
  let angle := hourAngle event coordinates.lat longitude
  ((transit + angle / (2 * pi) - epochJulianDay) * 86400).toInt64.toInt

/-- The time that a local clock shows at an event, if that is at most a day away from the date. -/
def eventTime? (date : Date) (location : Location TimeZone) (event : SolarEvent) :
    Option TimeOfDay :=
  let seconds := eventSeconds date.number location.coordinates event
  let shown := seconds + location.zone.offset seconds
  if (shown / 86400 + TimeZone.epochDay - date.number).natAbs ≤ 1 then
    TimeOfDay.ofNanos? ((shown % 86400).toNat * 1000000000)
  else none

/-- The times of all events of a day. -/
def times (date : Date) (location : Location TimeZone) : Option SolarRecord := do
  let dawn ← eventTime? date location .dawn
  let sunrise ← eventTime? date location .sunrise
  let sunset ← eventTime? date location .sunset
  let dusk ← eventTime? date location .dusk
  return { dawn, sunrise, sunset, dusk }

/-- The almanac that computes the times; it notes nothing. -/
def almanac : Almanac TimeZone := ⟨times, false⟩

end Sun

/-- What is known at a place, or at none, before anything was set or asked. -/
def SolarHours.ofLocation (location : Option (Location TimeZone)) : SolarHours TimeZone :=
  { location, almanac := Sun.almanac }

end Timetable
