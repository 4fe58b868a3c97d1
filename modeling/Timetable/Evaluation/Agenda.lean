import Timetable.Evaluation.InForce
import Timetable.Calendar.Instant
import Timetable.Solar.Hours

/-!
Agendas: an expression together with the holidays of a place, and the state that they give for
dates and instants.

An evaluation asks for the solar times of a date only if a span in force needs them, and for those
of the day before only if that day may go on into the date.
-/

namespace Timetable

variable {Zone : Type}

/-- A stretch of time during which a place is open. -/
structure Period where
  start : Instant
  stop : Instant
  deriving DecidableEq

/-- The length of a period in nanoseconds. -/
def Period.duration (period : Period) : Int := period.start.durationTo period.stop

/-- An expression and the holidays with which it is evaluated (`OpeningHours`, §10.5). -/
structure Agenda where
  expression : Expression
  holidays : HolidayCalendar

/-- What is known about a day (`Day`, §10.5). -/
structure DayReport where
  date : Date
  periods : List Period
  isPublicHoliday : Bool
  isSchoolHoliday : Bool
  deriving DecidableEq

namespace DayReport

/-- Whether the place opens on the day. -/
def opens (report : DayReport) : Bool := !report.periods.isEmpty

/-- The length of all periods, in nanoseconds. -/
def totalDuration (report : DayReport) : Int :=
  report.periods.foldl (fun total period => total + period.duration) 0

end DayReport

namespace Agenda

/-- The rules in force on a date. -/
def inForce (agenda : Agenda) (date : Date) : InForce :=
  InForce.on agenda.expression.rules agenda.holidays date

/-- The rule that is shown for a date (`rule_for`, §4.3). -/
def ruleFor (agenda : Agenda) (date : Date) : Rule := (agenda.inForce date).shown

/-- For each rule, whether it matches a date. -/
def matchingRules (agenda : Agenda) (date : Date) : List Bool :=
  agenda.expression.rules.map fun rule => rule.selector.holdsOn agenda.holidays date

/-- Refuses to evaluate an expression that mentions the sun if there is no source of times at
all. -/
def checkConfigured (agenda : Agenda) : SolarM Zone Unit := do
  let hours ← get
  if !agenda.expression.solarEvents.isEmpty && !hours.isConfigured then throw .notConfigured

/-- The schedule that the rules of a date make by their spans of a class. The solar times of the
date are asked for only if such a span needs them; else any times will do. -/
def ownSchedule (agenda : Agenda) (date : Date) (keep : TimeSpan → Bool) :
    SolarM Zone (Schedule × Bool) := do
  let rules := agenda.inForce date
  let record ← if rules.needsSolar keep then SolarHours.record date else pure default
  return rules.schedule record keep

/-- The minutes of a date at which the place is open. Unless the rules close the whole day, what
began on the day before goes on. This is `schedule_at` of §10.5. -/
def scheduleAt (agenda : Agenda) (date : Date) : SolarM Zone Schedule := do
  agenda.checkConfigured
  let (own, keepsPrevious) ← agenda.ownSchedule date fun _ => true
  match if keepsPrevious then date.previous? else none with
  | none => return own.withinDay
  | some previous =>
    let (before, _) ← agenda.ownSchedule previous TimeSpan.mayEndNextDay
    return own.withinDay.union before.nextDayPart

/-- Whether the place is open at an instant. An expression that is always open needs no evaluation
(`is_open`, §4.3). -/
def isOpen (agenda : Agenda) (instant : Instant) : SolarM Zone Bool := do
  if agenda.expression.isAlwaysOpen then return true
  let schedule ← agenda.scheduleAt instant.date
  return decide (schedule.Contains instant.clockTime.minutes)

/-- The periods of a date, as instants. One that reaches beyond the end of the calendar is left
out. -/
def periodsOf (date : Date) (schedule : Schedule) : List Period :=
  schedule.intervals.filterMap fun interval => do
    let start ← date.at? interval.startTime
    let stop ← date.at? interval.stopTime
    return ⟨start, stop⟩

/-- The report of a day (`day`, §10.5). -/
def day (agenda : Agenda) (date : Date) : SolarM Zone DayReport := do
  let schedule ← agenda.scheduleAt date
  return {
    date
    periods := periodsOf date schedule
    isPublicHoliday := agenda.holidays .publicHoliday date
    isSchoolHoliday := agenda.holidays .schoolHoliday date }

end Agenda

end Timetable
