import Timetable.Solar.Almanac

/-!
The times of the events of the sun for an evaluation, and where they are taken from.

Times that were given explicitly come first: those of the date, then those of every day. Then come
the times that were computed before for the place, and last the almanac, which is asked only if a
place is known. What the almanac answers is kept until the place or the almanac changes; that it
has no answer is not kept.
-/

namespace Timetable

/-- Where the times come from, and what is already known (`SolarHours`, §10.4). -/
structure SolarHours (Zone : Type) where
  location : Option (Location Zone) := none
  almanac : Almanac Zone
  /-- Times that were given for a date. -/
  overrides : DateTable SolarRecord := {}
  /-- Times that were given for every date without an override. -/
  default : Option SolarRecord := none
  /-- Times that the almanac gave for the place. -/
  cache : DateTable SolarRecord := {}
  /-- The dates that a noting almanac was asked for, the last one first. -/
  calls : List Date := []

variable {Zone : Type}

/-- An evaluation that may ask for times. What was computed is kept even if it fails. -/
abbrev SolarM (Zone : Type) := ExceptT SolarError (StateM (SolarHours Zone))

namespace SolarHours

/-- Whether there is any source of times: an almanac alone is none without a place. -/
def isConfigured (hours : SolarHours Zone) : Bool :=
  hours.location.isSome || hours.default.isSome || !hours.overrides.isEmpty

/-- The times that were given for a date. -/
def given? (hours : SolarHours Zone) (date : Date) : Option SolarRecord :=
  hours.overrides[date]?.or hours.default

/-- Notes that the almanac is asked for a date. -/
def noteCall (hours : SolarHours Zone) (date : Date) : SolarHours Zone :=
  if hours.almanac.noted then { hours with calls := date :: hours.calls } else hours

/-- The times of a date, and what is known afterwards. This is `get_or_compute` of §10.4, with its
order of sources. -/
def answer (hours : SolarHours Zone) (date : Date) :
    Except SolarError SolarRecord × SolarHours Zone :=
  match (hours.given? date).or hours.cache[date]? with
  | some record => (.ok record, hours)
  | none =>
    match hours.location with
    | none => (.error .notConfigured, hours)
    | some location =>
      let asked := hours.noteCall date
      match hours.almanac.times date location with
      | none => (.error (.unavailable date), asked)
      | some record => (.ok record, { asked with cache := asked.cache.insert date record })

/-- The times of a date, within an evaluation. -/
def record (date : Date) : SolarM Zone SolarRecord := ExceptT.mk fun hours => hours.answer date

/-- What is known after the times of several dates were asked for, one after the other. -/
def askAll (hours : SolarHours Zone) (dates : List Date) : SolarHours Zone :=
  dates.foldl (fun known date => (known.answer date).2) hours

/-- Forgets what was computed (`clear`, §10.4). -/
def clear (hours : SolarHours Zone) : SolarHours Zone := { hours with cache := {} }

/-- Gives the times of a date (`set_override`, §10.4). -/
def setOverride (hours : SolarHours Zone) (date : Date) (record : SolarRecord) : SolarHours Zone :=
  { hours with overrides := hours.overrides.insert date record }

/-- Takes back the times given for a date (`remove_override`, §10.4). -/
def removeOverride (hours : SolarHours Zone) (date : Date) : SolarHours Zone :=
  { hours with overrides := hours.overrides.erase date }

/-- Gives the times of all dates without an override, or takes them back (`set_default`, §10.4). -/
def setDefault (hours : SolarHours Zone) (record : Option SolarRecord) : SolarHours Zone :=
  { hours with default := record }

/-- Moves to another place, or to none. What was computed is kept if the place is the same. This is
`set_location` of §10.4. -/
def setLocation [BEq Zone] (hours : SolarHours Zone) (location : Option (Location Zone)) :
    SolarHours Zone :=
  if hours.location == location then hours else { hours with location, cache := {} }

/-- Replaces the almanac and forgets what was computed (`with_almanac`, §10.5). -/
def setAlmanac (hours : SolarHours Zone) (almanac : Almanac Zone) : SolarHours Zone :=
  { hours with almanac, cache := {} }

/-- The same almanac at another place, without given times and with nothing computed (the alternate
state of §10.4). -/
def movedTo (hours : SolarHours Zone) (location : Location Zone) : SolarHours Zone :=
  { location := some location, almanac := hours.almanac, calls := hours.calls }

/-- Everything as before something was done elsewhere; only the calls are not undone. -/
def restoredAfter (before after : SolarHours Zone) : SolarHours Zone :=
  { before with calls := after.calls }

end SolarHours

end Timetable
