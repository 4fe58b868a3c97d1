import Timetable.Evaluation.NextChange
import Timetable.Evaluation.Periods

/-!
Sessions: a sequence of questions and changes to one agenda.

Operations may be given up, also in the middle of a question. Then those after them are given up as
well, up to a caller that attempts one operation and goes on after it whatever has become of it
(`Operation.attempt`). An operation may stand for a list of operations that are done at another
place. Whether these are done to the end or are given up, all that concerns the sun is afterwards as
it was before (`SolarHours.restoredAfter`); only the calls of the almanac are not undone. That they
were given up is not hidden: the operation is given up itself.
-/

namespace Timetable

/-- A question about an agenda, or a change. -/
inductive Operation (Zone : Type) where
  | isOpen (instant : Instant)
  | isClosed (instant : Instant)
  | nextChange (instant : Instant) (limit : Nat)
  | timeToChange (instant : Instant) (limit : Nat)
  | schedule (date : Date)
  | day (date : Date)
  | ruleFor (date : Date)
  | matchingRules (date : Date)
  | holidayStatus
  | expression
  | periods (start stop : Bound) (merge : Bool)
  | firstPeriods (start stop : Bound) (merge : Bool) (count : Nat)
  | setHolidays (holidays : HolidayCalendar)
  | solarRecord (date : Date)
  | setOverride (date : Date) (record : SolarRecord)
  | removeOverride (date : Date)
  | setDefault (record : Option SolarRecord)
  | setLocation (location : Option (Location Zone))
  | setAlmanac (almanac : Almanac Zone)
  | clear
  | solarState
  /-- Operations that are done at another place. -/
  | elsewhere (location : Location Zone) (operations : List (Operation Zone))
  /-- An operation after which those that follow are done even if it is given up. -/
  | attempt (operation : Operation Zone)
  /-- Gives up the operations, in the middle of a question that has asked for the times of some
  dates. -/
  | giveUp (asked : List Date)

/-- What an operation answers. -/
inductive Answer (Zone : Type) where
  /-- Nothing is asked. -/
  | done
  | flag (value : Bool)
  | flags (values : List Bool)
  | instant (value : Instant)
  /-- A duration in nanoseconds. -/
  | duration (nanos : Int)
  | schedule (value : Schedule)
  | day (report : DayReport)
  | rule (value : Rule)
  | holidayStatus (publicHolidays schoolHolidays : Option Bool)
  | expression (value : Expression)
  | periods (values : List Period)
  /-- The first answers of an enumeration. -/
  | firstPeriods (values : List (Option (Except SolarError Period)))
  | record (value : Option SolarRecord)
  | solarState (configured : Bool) (location : Option (Location Zone)) (cached calls : List Date)
  | solarError (error : SolarError)
  | searchError (error : SearchError)
  /-- The answers of operations that were done elsewhere. -/
  | elsewhere (answers : List (Answer Zone))
  /-- The operation that was attempted was given up. -/
  | givenUp

/-- An agenda, and what is known about the sun. -/
structure Session (Zone : Type) where
  agenda : Agenda
  solar : SolarHours Zone

namespace Session

variable {Zone : Type} {α ε : Type}

/-- Answers by an evaluation or a search, whose value and whose error each have their answer. -/
def evaluate (session : Session Zone) (evaluation : ExceptT ε (StateM (SolarHours Zone)) α)
    (answer : α → Answer Zone) (failure : ε → Answer Zone) : Option (Answer Zone) × Session Zone :=
  let (outcome, solar) := evaluation.run.run session.solar
  let after := { session with solar }
  match outcome with
  | .ok value => (some (answer value), after)
  | .error error => (some (failure error), after)

/-- Changes what is known about the sun. -/
def change (session : Session Zone) (f : SolarHours Zone → SolarHours Zone) :
    Option (Answer Zone) × Session Zone :=
  (some .done, { session with solar := f session.solar })

/-- What was asked and kept so far. -/
def solarState (hours : SolarHours Zone) : Answer Zone :=
  .solarState hours.isConfigured hours.location hours.cache.keys hours.calls.reverse

variable [BEq Zone]

mutual

/-- Does an operation: its answer, or none if operations are given up, and what is known
afterwards. -/
def run (session : Session Zone) : Operation Zone → Option (Answer Zone) × Session Zone
  | .isOpen instant => session.evaluate (session.agenda.isOpen instant) .flag .solarError
  | .isClosed instant =>
    session.evaluate (session.agenda.isOpen instant) (fun value => .flag !value) .solarError
  | .nextChange instant limit =>
    session.evaluate (session.agenda.nextChange instant limit) .instant .searchError
  | .timeToChange instant limit =>
    session.evaluate (session.agenda.timeToChange instant limit) .duration .searchError
  | .schedule date => session.evaluate (session.agenda.scheduleAt date) .schedule .solarError
  | .day date => session.evaluate (session.agenda.day date) .day .solarError
  | .ruleFor date => (some (.rule (session.agenda.ruleFor date)), session)
  | .matchingRules date => (some (.flags (session.agenda.matchingRules date)), session)
  | .holidayStatus =>
    (some (.holidayStatus (session.agenda.expression.holidayStatus? .publicHoliday)
      (session.agenda.expression.holidayStatus? .schoolHoliday)), session)
  | .expression => (some (.expression session.agenda.expression), session)
  | .periods start stop merge =>
    session.evaluate (session.agenda.periodsBetween start stop merge) .periods .solarError
  | .firstPeriods start stop merge count =>
    let (values, solar) :=
      (PeriodCursor.nextTimes session.agenda count (.ofBounds start stop merge)).run session.solar
    (some (.firstPeriods values), { session with solar })
  | .setHolidays holidays =>
    (some .done, { session with agenda := { session.agenda with holidays } })
  | .solarRecord date =>
    session.evaluate (SolarHours.record date) (fun record => .record record) .solarError
  | .setOverride date record => session.change (·.setOverride date record)
  | .removeOverride date =>
    (some (.record session.solar.overrides[date]?),
      { session with solar := session.solar.removeOverride date })
  | .setDefault record => session.change (·.setDefault record)
  | .setLocation location => session.change (·.setLocation location)
  | .setAlmanac almanac => session.change (·.setAlmanac almanac)
  | .clear => session.change SolarHours.clear
  | .solarState => (some (solarState session.solar), session)
  | .elsewhere location operations =>
    let inside := { session with solar := session.solar.movedTo location }
    let (answers, after) := inside.runAll operations
    (answers.map .elsewhere, { after with solar := session.solar.restoredAfter after.solar })
  | .attempt operation =>
    let (answer, after) := session.run operation
    (some (answer.getD .givenUp), after)
  | .giveUp asked => (none, { session with solar := session.solar.askAll asked })

/-- Does operations one after the other: their answers, or none if they are given up. -/
def runAll (session : Session Zone) :
    List (Operation Zone) → Option (List (Answer Zone)) × Session Zone
  | [] => (some [], session)
  | operation :: rest =>
    match session.run operation with
    | (none, after) => (none, after)
    | (some answer, after) =>
      let (answers, last) := after.runAll rest
      (answers.map (answer :: ·), last)

end

end Session

end Timetable
