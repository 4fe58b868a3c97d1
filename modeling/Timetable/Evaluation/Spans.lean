import Timetable.Rule.Basic
import Timetable.Schedule.Basic
import Timetable.Solar.Almanac

/-!
The minutes of a span of time on a day whose solar times are known.

`TimeSpan.mayEndNextDay` tells apart, without the solar times of the day, the spans that may last
past midnight: only they have to be looked at to know how a day goes on into the next one.
-/

namespace Timetable

/-- The clock time of a moment; seconds of solar times are dropped. -/
def Moment.resolve (record : SolarRecord) : Moment → ClockTime
  | .clock time => time
  | .solar event offset => (ClockTime.ofTimeOfDay (record.time event)).shift offset

/-- The latest clock time of an event that is moved by some minutes: an event happens before
24:00. -/
def latestMoment (offset : Int) : ClockTime := ClockTime.endOfDay.shift (offset - 1)

namespace TimeSpan

/-- The minutes of the span. An end before the beginning lies on the following day, and a span that
ends as it begins has no minute (`TimeSpan`, §3). -/
def resolve (record : SolarRecord) (span : TimeSpan) : Option Interval :=
  let start := span.beginning.resolve record
  let stop := span.ending.resolve record
  Interval.ofClock? start (if start ≤ stop then stop else stop.shift 1440)

/-- Whether the span may last past midnight, for some solar times. -/
def mayEndNextDay (span : TimeSpan) : Bool :=
  match span.beginning, span.ending with
  | .clock start, .clock stop => stop < start || ClockTime.endOfDay < stop
  | .solar start startOffset, .solar stop stopOffset =>
    if startOffset = 0 ∧ stopOffset = 0 then stop.index < start.index else true
  | .solar _ offset, .clock stop =>
    stop != ClockTime.startOfDay && (ClockTime.endOfDay < stop || stop < latestMoment offset)
  | .clock start, .solar _ offset =>
    start != ClockTime.startOfDay || ClockTime.endOfDay < latestMoment offset

/-- The minutes of several spans. -/
def resolveAll (record : SolarRecord) (spans : List TimeSpan) : Schedule :=
  Schedule.ofIntervals (spans.filterMap (resolve record))

end TimeSpan

end Timetable
