import Timetable.Calendar.Date
import Timetable.Calendar.TimeOfDay
import Timetable.Rule.Moment
import Timetable.Solar.Location

/-!
The times of the events of the sun on a day, as the local clock shows them, and the almanacs that
they are taken from, given a date and a place.
-/

namespace Timetable

/-- The times of the four events on a day; they may come in any order. -/
structure SolarRecord where
  dawn : TimeOfDay
  sunrise : TimeOfDay
  sunset : TimeOfDay
  dusk : TimeOfDay
  deriving DecidableEq, Inhabited

/-- The time of an event. -/
def SolarRecord.time (record : SolarRecord) : SolarEvent → TimeOfDay
  | .dawn => record.dawn
  | .sunrise => record.sunrise
  | .sunset => record.sunset
  | .dusk => record.dusk

/-- Why the times of a day are not known (`SolarHoursError`, §7). -/
inductive SolarError where
  /-- Nothing says what they are: there is no place, and no times were given. -/
  | notConfigured
  /-- An event does not happen on the date. -/
  | unavailable (date : Date)
  deriving DecidableEq

/-- The error in words. -/
def SolarError.message : SolarError → String
  | .notConfigured => "solar hours are needed but no location is configured"
  | .unavailable date => "solar hours are not available on " ++ date.text

/-- A source of the times of a day (`solar_times`, §10.4). -/
structure Almanac (Zone : Type) where
  /-- The times at a place, unless an event does not happen there on the date. -/
  times : Date → Location Zone → Option SolarRecord
  /-- Whether the dates that it is asked for are noted. -/
  noted : Bool

namespace Almanac

variable {Zone : Type}

/-- The same almanac, which notes the dates that it is asked for. -/
def noting (almanac : Almanac Zone) : Almanac Zone := { almanac with noted := true }

/-- An almanac with the same times every day. -/
def fixed (record : SolarRecord) : Almanac Zone := ⟨fun _ _ => some record, false⟩

/-- An almanac without any times. -/
def silent : Almanac Zone := ⟨fun _ _ => none, false⟩

/-- An almanac with the times of some dates. -/
def ofTable (table : List (Date × SolarRecord)) : Almanac Zone :=
  ⟨fun date _ => table.lookup date, false⟩

end Almanac

end Timetable
