import Timetable.Evaluation.Matching
import Timetable.Evaluation.Spans

/-!
The rules in force on a date, and the schedule that they make by themselves.

The last matching rule that is not additional governs the date, and the additional rules that match
after it change what it says, one after the other.
-/

namespace Timetable

/-- The rules that decide about a date. -/
structure InForce where
  governing : Option Rule := none
  additional : List Rule := []

namespace InForce

/-- One more matching rule: it comes on top if it is additional, and else it starts anew. -/
def push (rules : InForce) (rule : Rule) : InForce :=
  if rule.additional then { rules with additional := rules.additional ++ [rule] }
  else { governing := some rule }

/-- The rules of an expression that are in force on a date (step (1) of §4.3). -/
def on (rules : List Rule) (holidays : HolidayCalendar) (date : Date) : InForce :=
  (rules.filter fun rule => rule.selector.holdsOn holidays date).foldl push {}

/-- The rule that is shown for the date: the governing one, or the first additional one. -/
def shown (rules : InForce) : Rule :=
  (rules.governing.or rules.additional.head?).getD Rule.alwaysClosed

/-- The rules whose spans are looked at: an open governing rule, and additional rules that open or
close. -/
def consulted (rules : InForce) : List Rule :=
  (rules.governing.toList.filter fun rule => rule.kind == .opened) ++
    rules.additional.filter fun rule => rule.kind != .unknown

/-- Whether the solar times of the date matter for the spans of a class. -/
def needsSolar (rules : InForce) (keep : TimeSpan → Bool) : Bool :=
  rules.consulted.any fun rule => (rule.spans.filter keep).any TimeSpan.isSolar

/-- What the governing rule says: its minutes, and whether what began on the day before goes on. -/
def governingSchedule (governing : Option Rule) (record : SolarRecord) (keep : TimeSpan → Bool) :
    Schedule × Bool :=
  match governing with
  | none => (.empty, true)
  | some rule =>
    match rule.kind with
    | .opened => (TimeSpan.resolveAll record (rule.spans.filter keep), true)
    | .closed | .unknown => (.empty, false)

/-- What an additional rule makes of what was said before: it opens its spans, closes them, or
closes the whole day if it has none. -/
def applyAdditional (record : SolarRecord) (keep : TimeSpan → Bool) (said : Schedule × Bool)
    (rule : Rule) : Schedule × Bool :=
  let spans := TimeSpan.resolveAll record (rule.spans.filter keep)
  match rule.kind with
  | .opened => (said.1.union spans, said.2)
  | .closed => if rule.spans.isEmpty then (.empty, false) else (said.1.diff spans, said.2)
  | .unknown => said

/-- The minutes that the rules open by their spans of a class, on the date and on the day after it,
and whether what began on the day before goes on. -/
def schedule (rules : InForce) (record : SolarRecord) (keep : TimeSpan → Bool) : Schedule × Bool :=
  rules.additional.foldl (applyAdditional record keep)
    (governingSchedule rules.governing record keep)

end InForce

end Timetable
