import Timetable.Evaluation.Agenda

/-!
The next instant at which a place opens or closes.

The search goes from day to day. Within a day, each bound of the schedule is a change; at a
midnight, the state changes if one day ends otherwise than the next one begins. The number of days
to look ahead is limited. With a limit of zero, the end of the day is as good an answer as a change.
-/

namespace Timetable

variable {Zone : Type}

/-- Why no change was found (`NextChangeError`, §10.7). -/
inductive SearchError where
  /-- A schedule could not be evaluated. -/
  | solar (error : SolarError)
  /-- The state stays the same as far as the search went. -/
  | exhausted (last : Instant)
  deriving DecidableEq

/-- The error in words. -/
def SearchError.message : SearchError → String
  | .solar error => error.message
  | .exhausted last => "no status change found before " ++ last.textWith " "

/-- A search that may ask for solar times. -/
abbrev SearchM (Zone : Type) := ExceptT SearchError (StateM (SolarHours Zone))

/-- An evaluation as a part of a search. -/
def SearchM.ofSolar {α : Type} (evaluation : SolarM Zone α) : SearchM Zone α :=
  ExceptT.mk do
    match ← evaluation.run with
    | .ok value => return .ok value
    | .error error => return .error (.solar error)

namespace Agenda

/-- The first change within a date, midnights excepted, after an instant. -/
def changeWithin? (date : Date) (schedule : Schedule) (after : Instant) : Option Instant :=
  (schedule.innerBounds.filterMap date.at?).find? fun change => after < change

/-- Searches a date whose schedule is given, and the midnight after it; then the search goes on with
the following date. -/
def searchDay (agenda : Agenda) (start : Instant) (limit : Nat) (date : Date) (schedule : Schedule)
    (goOn : Date → Schedule → SearchM Zone Instant) :
    SearchM Zone Instant :=
  match changeWithin? date schedule start with
  | some change => return change
  | none =>
    match date.next? with
    | none => throw (.exhausted date.lastInstant)
    | some next => do
      let following ← SearchM.ofSolar (agenda.scheduleAt next)
      if schedule.endsOpen != following.startsOpen then return next.midnight
      else if limit = 0 then return date.lastInstant
      else goOn next following

/-- Searches from a date on, whose schedule is given. The budget is the number of days that may
still be looked at after the next one. -/
def searchFrom (agenda : Agenda) (start : Instant) (limit : Nat) :
    (budget : Nat) → Date → Schedule → SearchM Zone Instant
  | 0, date, schedule =>
    agenda.searchDay start limit date schedule fun _ _ => throw (.exhausted date.lastInstant)
  | budget + 1, date, schedule =>
    agenda.searchDay start limit date schedule (agenda.searchFrom start limit budget)

/-- The next change after an instant, looking at most a number of days ahead (`next_change`,
§4.4). -/
def nextChange (agenda : Agenda) (start : Instant) (limit : Nat) : SearchM Zone Instant := do
  if agenda.expression.isAlwaysOpen then
    if limit = 0 then return start.date.lastInstant
    else throw (.exhausted start.date.lastInstant)
  else
    let schedule ← SearchM.ofSolar (agenda.scheduleAt start.date)
    agenda.searchFrom start limit limit start.date schedule

/-- The nanoseconds until the next change (`time_before_next_change`, §10.5). -/
def timeToChange (agenda : Agenda) (start : Instant) (limit : Nat) : SearchM Zone Int := do
  return start.durationTo (← agenda.nextChange start limit)

end Agenda

end Timetable
