import Timetable.Grammar.Form
import Timetable.Reading.Error

/-!
From written forms to rules.

Each form is given its meaning, from left to right, and the first part that has none is reported: a
number out of bounds, or a part of the grammar that cannot be evaluated.
-/

namespace Timetable.Grammar

/-- The error for a part that cannot be evaluated. -/
def Fragment.refuse {α : Type} (fragment : Fragment) (feature : Unsupported) :
    Except ReadError α :=
  .error (.unsupported feature fragment.position (String.ofList fragment.text))

/-- Refuses a part if it is there. -/
def refuseIfPresent (feature : Unsupported) : Option Fragment → Except ReadError Unit
  | some fragment => fragment.refuse feature
  | none => .ok ()

/-! ### Spans of time -/

/-- The clock time, up to a full hour. -/
def ClockForm.interpret (form : ClockForm) (hours : Nat) : Except ReadError ClockTime :=
  let hour := Decimal.value form.hour
  let minute := Decimal.value form.minute
  match ClockTime.ofHourMinute? hour minute with
  | some time =>
    if time.minutes ≤ hours * 60 then .ok time
    else .error (.overflow (Decimal.twoDigits hour ++ ":" ++ Decimal.twoDigits minute)
      (.clockTime hours))
  | none =>
    .error (.overflow (Decimal.twoDigits hour ++ ":" ++ Decimal.twoDigits minute)
      (.clockTime hours))

/-- The moment; a clock time goes up to a full hour and an event is moved by a day at most. -/
def MomentForm.interpret (form : MomentForm) (hours : Nat) : Except ReadError Moment :=
  match form with
  | .clock written => do return .clock (← written.interpret hours)
  | .event kind => .ok (.solar kind 0)
  | .shifted kind later amount => do
    let time ← amount.interpret 24
    return .solar kind (if later then time.minutes else -time.minutes)

/-- The span, which has to have an end and no open one. -/
def SpanForm.interpret (form : SpanForm) : Except ReadError TimeSpan := do
  let beginning ← form.beginning.interpret 24
  match form.ending with
  | .missing => form.whole.refuse .pointInTime
  | .plus => form.whole.refuse .openEnd
  | .upTo moment plus =>
    let ending ← moment.interpret 48
    if plus then form.whole.refuse .openEnd else return ⟨beginning, ending⟩

/-! ### Days -/

/-- The weekdays, which may be neither numbered nor moved. -/
def WeekdayForm.interpret (form : WeekdayForm) : Except ReadError WeekdayRange := do
  refuseIfPresent .numberedWeekday form.occurrences
  refuseIfPresent .dayOffset form.offset
  return .days form.first (form.last.getD form.first)

/-- The holidays, which may not be moved. -/
def HolidayForm.interpret (form : HolidayForm) : Except ReadError Holiday := do
  refuseIfPresent .dayOffset form.offset
  return form.kind

/-- The conditions on weekdays, and the holidays that are demanded beside them. -/
def DaysForm.interpret : DaysForm → Except ReadError (List WeekdayRange × List Holiday)
  | .holidaysOnWeekdays holidays weekdays => do
    let kinds ← holidays.mapM HolidayForm.interpret
    let ranges ← weekdays.mapM WeekdayForm.interpret
    return (ranges, kinds)
  | .weekdaysThenHolidays weekdays holidays => do
    let ranges ← weekdays.mapM WeekdayForm.interpret
    let kinds ← holidays.mapM HolidayForm.interpret
    return (ranges ++ kinds.map .holiday, [])
  | .holidaysThenWeekdays holidays weekdays => do
    let kinds ← holidays.mapM HolidayForm.interpret
    let ranges ← weekdays.mapM WeekdayForm.interpret
    return (kinds.map .holiday ++ ranges, [])

/-! ### Weeks, dates and years -/

/-- A step between 1 and a greatest one, and 1 if none is written. -/
def interpretStep (digits : Option (List Char)) (greatest : Nat) (limit : Limit) :
    Except ReadError Nat :=
  match digits with
  | none => .ok 1
  | some digits =>
    let step := Decimal.value digits
    if UInt64.size ≤ step then .error (.overflow (String.ofList digits) .number)
    else if 1 ≤ step ∧ step ≤ greatest then .ok step
    else .error (.overflow (Decimal.natural step) limit)

/-- A week number between 1 and 53. -/
def interpretWeekNumber (digits : List Char) : Except ReadError Nat :=
  let week := Decimal.value digits
  if 1 ≤ week ∧ week ≤ 53 then .ok week
  else .error (.overflow (Decimal.natural week) .weekNumber)

/-- The weeks. -/
def WeekForm.interpret (form : WeekForm) : Except ReadError WeekRange := do
  let first ← interpretWeekNumber form.first
  let last ← match form.last with
    | some digits => interpretWeekNumber digits
    | none => pure first
  let step ← interpretStep form.step 255 .weekStep
  return ⟨first, last, step⟩

/-- The years; a plus sign stands for the last year of four digits. -/
def YearForm.interpret (form : YearForm) : Except ReadError YearRange := do
  let first := Decimal.value form.first
  match form.ending with
  | .missing => return ⟨first, first, 1⟩
  | .plus => return ⟨first, 9999, 1⟩
  | .upTo last step =>
    return ⟨first, Decimal.value last, ← interpretStep step 65535 .yearStep⟩

/-- A day number, which is moved into 1 to 31. -/
def interpretDayNumber (digits : List Char) : Nat := max 1 (min (Decimal.value digits) 31)

/-- The day of the year. -/
def DayForm.interpret : DayForm → AnnualDay
  | .fixed year month day => .fixed (year.map Decimal.value) month (interpretDayNumber day)
  | .easter year => .easter (year.map Decimal.value)

/-- The last day of a range. A lone day number lies in the month of the first day, or in the month
after it if the first day has a greater number. -/
def LastDayForm.interpret (form : LastDayForm) (first : AnnualDay) : Except ReadError AnnualDay :=
  match form with
  | .day written => .ok written.interpret
  | .number fragment =>
    match first with
    | .easter _ => fragment.refuse .dayAfterEaster
    | .fixed year month firstNumber =>
      let number := interpretDayNumber fragment.text
      if number < firstNumber then
        .ok (.fixed (if month = .december then year.map (· + 1) else year) month.next number)
      else .ok (.fixed year month number)

/-- The part of the year. A plus sign stands for the rest of the year, or for all later days if a
year is given. -/
def DateForm.interpret : DateForm → Except ReadError DateRange
  | .days first offset ending => do
    let firstDay := first.interpret
    refuseIfPresent .dayOffset offset
    match ending with
    | .missing => return .days firstDay firstDay
    | .plus => return .days firstDay (.fixed (firstDay.year?.map fun _ => 9999) .december 31)
    | .upTo last offset =>
      let lastDay ← last.interpret firstDay
      refuseIfPresent .dayOffset offset
      return .days firstDay lastDay
  | .months year first last => .ok (.months (year.map Decimal.value) first (last.getD first))

/-! ### Rules -/

/-- The selector without days, and no span yet. -/
def WideForm.interpret (form : WideForm) : Except ReadError Selector := do
  let years ← form.years.mapM YearForm.interpret
  let dates ← form.dates.mapM DateForm.interpret
  let weeks ← form.weeks.mapM WeekForm.interpret
  return { years, dates, weeks }

/-- The selector and the spans. -/
def TimesForm.interpret : TimesForm → Except ReadError (Selector × List TimeSpan)
  | .always => .ok ({}, [.wholeDay])
  | .times wide small => do
    let selector ← match wide with
      | some form => form.interpret
      | none => pure {}
    match small with
    | none => return (selector, [])
    | some form =>
      let (weekdays, holidays) ← match form.days with
        | some days => days.interpret
        | none => pure ([], [])
      let spans ← form.spans.mapM SpanForm.interpret
      return ({ selector with weekdays, holidays }, spans)

/-- The rule. Without a word for its kind it opens, unless a comment is all that it says beside the
dates; and an open rule without spans is open all day. -/
def RuleForm.interpret (form : RuleForm) (additional : Bool) : Except ReadError Rule := do
  let (selector, spans) ← match form.times with
    | some times => times.interpret
    | none => pure ({}, [])
  let comment := form.modifier.bind fun modifier => modifier.comment.map String.ofList
  let kind :=
    match form.modifier.bind ModifierForm.kind with
    | some kind => kind
    | none => if comment.isSome && spans.isEmpty then .unknown else .opened
  let spans := if kind = .opened && spans.isEmpty then [.wholeDay] else spans
  return { selector, spans, kind, comment, additional }

/-- Whether the rule after a separator adds to the one before it. -/
def SeparatorForm.interpret : SeparatorForm → Except ReadError Bool
  | .overriding => .ok false
  | .adding => .ok true
  | .fallback bars => bars.refuse .fallbackRule

/-- The rules in order. -/
def ExpressionForm.interpret (form : ExpressionForm) : Except ReadError (List Rule) := do
  let first ← form.first.interpret false
  let rest ← form.rest.mapM fun part => do
    let additional ← part.1.interpret
    part.2.interpret additional
  return first :: rest

end Timetable.Grammar
