import Timetable.Evaluation.Agenda

/-!
The periods of opening between two bounds.

`Agenda.periodsBetween` evaluates all days and then puts the periods together. `PeriodCursor` finds
one period at a time and evaluates no day before it has to. Both give the same periods; if a day
fails, the cursor still gives those before it.
-/

namespace Timetable

variable {Zone : Type}

/-- A bound of an enumeration: a whole date, or an instant that cuts periods (`Boundary`, §10.6). -/
inductive Bound where
  | date (date : Date)
  | instant (instant : Instant)
  deriving DecidableEq

namespace Bound

/-- The date on which the bound lies. -/
def day : Bound → Date
  | date day => day
  | instant moment => moment.date

/-- The instant that cuts periods, if the bound is one. -/
def cut? : Bound → Option Instant
  | date _ => none
  | instant moment => some moment

end Bound

/-- A period without what lies before one instant and after another, if anything is left. -/
def Period.clip? (period : Period) (lower upper : Option Instant) : Option Period :=
  let start := match lower with
    | some bound => period.start.later bound
    | none => period.start
  let stop := match upper with
    | some bound => period.stop.earlier bound
    | none => period.stop
  if start < stop then some ⟨start, stop⟩ else none

/-- Joins each period to the one before it if it begins where that one ends. -/
def Period.mergeInto (current : Period) : List Period → List Period
  | [] => [current]
  | next :: rest =>
    if current.stop = next.start then mergeInto ⟨current.start, next.stop⟩ rest
    else current :: mergeInto next rest

/-- Joins periods that follow each other without a gap (`merge` of §4.5). -/
def Period.mergeAll : List Period → List Period
  | [] => []
  | first :: rest => first.mergeInto rest

namespace Agenda

/-- The periods of a date, cut at two instants. -/
def clippedPeriods (agenda : Agenda) (lower upper : Option Instant) (date : Date) :
    SolarM Zone (List Period) := do
  let schedule ← agenda.scheduleAt date
  return (periodsOf date schedule).filterMap (·.clip? lower upper)

/-- The periods of a number of dates, one after the other, as far as the calendar goes. -/
def periodsFrom (agenda : Agenda) (lower upper : Option Instant) :
    Nat → Date → SolarM Zone (List Period)
  | 0, _ => return []
  | count + 1, date => do
    let periods ← agenda.clippedPeriods lower upper date
    match date.next? with
    | none => return periods
    | some next => return periods ++ (← agenda.periodsFrom lower upper count next)

/-- The periods between two bounds. If they are merged, none of them begins where another ends. This
is `opening_periods_between` of §4.5. -/
def periodsBetween (agenda : Agenda) (start stop : Bound) (merge : Bool) :
    SolarM Zone (List Period) := do
  let days := (stop.day.number - start.day.number + 1).toNat
  let periods ← agenda.periodsFrom start.cut? stop.cut? days start.day
  return if merge then Period.mergeAll periods else periods

end Agenda

/-- A place in an enumeration of periods (`OpeningPeriods`, §10.6). -/
structure PeriodCursor where
  /-- The next date to evaluate; missing if there is none. -/
  day : Option Date
  /-- The last date to evaluate. -/
  last : Date
  lower : Option Instant
  upper : Option Instant
  merge : Bool
  /-- Periods of dates that were evaluated. -/
  queue : List Period := []
  /-- A period that the next one may still make longer. -/
  pending : Option Period := none
  /-- A failure that is still to be told. -/
  failure : Option SolarError := none

namespace PeriodCursor

/-- The enumeration of the periods between two bounds (`iter_periods`, §10.6). -/
def ofBounds (start stop : Bound) (merge : Bool) : PeriodCursor :=
  { day := if start.day ≤ stop.day then some start.day else none
    last := stop.day
    lower := start.cut?
    upper := stop.cut?
    merge }

/-- The number of dates that are still to be evaluated. -/
def daysLeft (cursor : PeriodCursor) : Nat :=
  match cursor.day with
  | some date => (cursor.last.number - date.number).toNat + 1
  | none => 0

/-- The date after another, unless it is after the last one. -/
def following? (cursor : PeriodCursor) (date : Date) : Option Date :=
  match date.next? with
  | some next => if next ≤ cursor.last then some next else none
  | none => none

/-- A cursor after the last period. -/
def finished (cursor : PeriodCursor) : PeriodCursor :=
  { cursor with day := none, queue := [], pending := none, failure := none }

/-- What the periods that are pending and queued give: a period with what is left of both, or
nothing but a pending period. -/
inductive Taken where
  | complete (period : Period) (pending : Option Period) (queue : List Period)
  | incomplete (pending : Option Period)
  deriving DecidableEq

/-- Takes a period from those that are pending and queued. When periods are merged, one is complete
only if it is known that the next one does not follow it at once. -/
def take (merge : Bool) : Option Period → List Period → Taken
  | pending, [] => .incomplete pending
  | pending, period :: rest =>
    if merge then
      match pending with
      | none => take merge (some period) rest
      | some before =>
        if before.stop = period.start then take merge (some ⟨before.start, period.stop⟩) rest
        else .complete before (some period) rest
    else .complete period pending rest

theorem daysLeft_following {cursor : PeriodCursor} {date : Date} (h : cursor.day = some date)
    (queue : List Period) (pending : Option Period) :
    daysLeft { cursor with day := cursor.following? date, queue, pending } < cursor.daysLeft := by
  simp only [daysLeft, following?, h]
  cases hnext : date.next? with
  | none => simp
  | some next =>
    have := Date.number_next? hnext
    by_cases hle : next ≤ cursor.last
    · have := Date.le_iff.1 hle
      simp only [hle, ↓reduceIte]
      omega
    · simp [hle]

/-- The next period, or a failure once the periods before it are told; nothing at the end, and then
for ever. -/
def next (agenda : Agenda) (cursor : PeriodCursor) :
    StateM (SolarHours Zone) (Option (Except SolarError Period) × PeriodCursor) :=
  match cursor.failure with
  | some error => return (some (.error error), cursor.finished)
  | none =>
    match take cursor.merge cursor.pending cursor.queue with
    | .complete period pending queue => return (some (.ok period), { cursor with pending, queue })
    | .incomplete pending =>
      match _h : cursor.day with
      | none => return (pending.map .ok, cursor.finished)
      | some date => do
        match ← (agenda.clippedPeriods cursor.lower cursor.upper date).run with
        | .ok queue => next agenda { cursor with day := cursor.following? date, queue, pending }
        | .error error =>
          match pending with
          | some period =>
            return (some (.ok period), { cursor.finished with failure := some error })
          | none => return (some (.error error), cursor.finished)
termination_by cursor.daysLeft
decreasing_by exact daysLeft_following _h _ _

/-- The first answers of the enumeration. -/
def nextTimes (agenda : Agenda) : Nat → PeriodCursor →
    StateM (SolarHours Zone) (List (Option (Except SolarError Period)))
  | 0, _ => return []
  | count + 1, cursor => do
    let (answer, later) ← cursor.next agenda
    return answer :: (← nextTimes agenda count later)

end PeriodCursor

end Timetable
