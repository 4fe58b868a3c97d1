import Timetable.Calendar.ClockTime

/-!
The moments at which a span of time begins and ends: a clock time, or an event of the sun moved by
some minutes.
-/

namespace Timetable

/-- An event of the sun that happens once a day. -/
inductive SolarEvent where
  | dawn | sunrise | sunset | dusk
  deriving DecidableEq, Repr, Inhabited

namespace SolarEvent

/-- The events in the order of the day. -/
def all : List SolarEvent := [dawn, sunrise, sunset, dusk]

/-- The place of an event in the order of the day. -/
def index : SolarEvent → Nat
  | dawn => 0 | sunrise => 1 | sunset => 2 | dusk => 3

/-- The word for the event in an expression. -/
def keyword : SolarEvent → String
  | dawn => "dawn" | sunrise => "sunrise" | sunset => "sunset" | dusk => "dusk"

end SolarEvent

/-- An end of a span of time (`Moment`, §3). -/
inductive Moment where
  /-- A time shown by the clock. -/
  | clock (time : ClockTime)
  /-- A number of minutes after an event of the sun, or before it if negative. -/
  | solar (event : SolarEvent) (offset : Int)
  deriving DecidableEq

namespace Moment

/-- Whether the moment depends on the sun. -/
def isSolar : Moment → Bool
  | clock _ => false
  | solar _ _ => true

/-- Whether the moment depends on an event of the sun. -/
def mentions (event : SolarEvent) : Moment → Bool
  | clock _ => false
  | solar other _ => other == event

/-- The sign of an offset, and its hours and minutes. -/
def offsetText (offset : Int) : String :=
  (if offset < 0 then "-" else "+") ++ Decimal.twoDigits (offset.natAbs / 60) ++ ":" ++
    Decimal.twoDigits (offset.natAbs % 60)

/-- The moment as an expression writes it; an event that is moved stands in parentheses. -/
def text : Moment → String
  | clock time => time.text
  | solar event offset =>
    if offset = 0 then event.keyword
    else "(" ++ event.keyword ++ offsetText offset ++ ")"

end Moment

/-- A span of time. An end before the beginning belongs to the following day (`TimeSpan`, §3). -/
structure TimeSpan where
  beginning : Moment
  ending : Moment
  deriving DecidableEq

namespace TimeSpan

/-- The span between two clock times. -/
def ofClock (beginning ending : ClockTime) : TimeSpan := ⟨.clock beginning, .clock ending⟩

/-- The whole day, 00:00-24:00. -/
def wholeDay : TimeSpan := ofClock .startOfDay .endOfDay

/-- Whether an end of the span depends on the sun. -/
def isSolar (span : TimeSpan) : Bool := span.beginning.isSolar || span.ending.isSolar

/-- Whether an end of the span depends on an event of the sun. -/
def mentions (event : SolarEvent) (span : TimeSpan) : Bool :=
  span.beginning.mentions event || span.ending.mentions event

/-- Beginning and end, joined by a hyphen. -/
def text (span : TimeSpan) : String := span.beginning.text ++ "-" ++ span.ending.text

end TimeSpan

end Timetable
