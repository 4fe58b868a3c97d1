import Timetable.Grammar.Peg
import Timetable.Rule.Basic

/-!
Written forms: the parts of an expression as the grammar tells them apart.

A form keeps what was written, also where it has no meaning among the rules: numbers are rows of
digits that may be too large, and parts that cannot be evaluated (an open end, a day offset, a
numbered weekday) are kept with their place, so that they can be reported.
-/

namespace Timetable.Grammar

/-- A clock time: the digits of the hour and of the minute. -/
structure ClockForm where
  hour : List Char
  minute : List Char
  deriving DecidableEq

/-- A beginning or an end of a span of time. -/
inductive MomentForm where
  | clock (time : ClockForm)
  | event (event : SolarEvent)
  /-- An event, whether it is moved to a later time, and by how much. -/
  | shifted (event : SolarEvent) (later : Bool) (amount : ClockForm)
  deriving DecidableEq

/-- What follows the beginning of a span. -/
inductive SpanEndForm where
  /-- Nothing. -/
  | missing
  /-- A plus sign. -/
  | plus
  /-- An end, and whether a plus sign follows it. -/
  | upTo (moment : MomentForm) (plus : Bool)
  deriving DecidableEq

/-- A span of time with the text that it was read from. -/
structure SpanForm where
  beginning : MomentForm
  ending : SpanEndForm
  whole : Fragment
  deriving DecidableEq

/-- Weekdays from one to another, with what may restrict or move them. -/
structure WeekdayForm where
  first : Weekday
  last : Option Weekday
  occurrences : Option Fragment
  offset : Option Fragment
  deriving DecidableEq

/-- A kind of holidays, with what may move it. -/
structure HolidayForm where
  kind : Holiday
  offset : Option Fragment
  deriving DecidableEq

/-- The days of a rule. -/
inductive DaysForm where
  /-- Holidays and weekdays, both of which are demanded. -/
  | holidaysOnWeekdays (holidays : List HolidayForm) (weekdays : List WeekdayForm)
  | weekdaysThenHolidays (weekdays : List WeekdayForm) (holidays : List HolidayForm)
  | holidaysThenWeekdays (holidays : List HolidayForm) (weekdays : List WeekdayForm)
  deriving DecidableEq

/-- A week or a range of weeks. -/
structure WeekForm where
  first : List Char
  last : Option (List Char)
  step : Option (List Char)
  deriving DecidableEq

/-- What follows the first year of a range. -/
inductive YearEndForm where
  | missing
  /-- A plus sign: all later years. -/
  | plus
  | upTo (last : List Char) (step : Option (List Char))
  deriving DecidableEq

/-- A year or a range of years. -/
structure YearForm where
  first : List Char
  ending : YearEndForm
  deriving DecidableEq

/-- A day of the year. -/
inductive DayForm where
  | fixed (year : Option (List Char)) (month : Month) (day : List Char)
  | easter (year : Option (List Char))
  deriving DecidableEq

/-- The last day of a range. -/
inductive LastDayForm where
  | day (day : DayForm)
  /-- The number of a day, whose month follows from the first day of the range. -/
  | number (day : Fragment)
  deriving DecidableEq

/-- What follows the first day of a range. -/
inductive DayEndForm where
  | missing
  /-- A plus sign: the rest of the year, or all later days if a year is given. -/
  | plus
  | upTo (last : LastDayForm) (offset : Option Fragment)
  deriving DecidableEq

/-- A part of the year. -/
inductive DateForm where
  | days (first : DayForm) (offset : Option Fragment) (ending : DayEndForm)
  | months (year : Option (List Char)) (first : Month) (last : Option Month)
  deriving DecidableEq

/-- The conditions on years, dates and weeks. -/
structure WideForm where
  years : List YearForm
  dates : List DateForm
  weeks : List WeekForm
  deriving DecidableEq

/-- The conditions on days, and the spans of time. -/
structure SmallForm where
  days : Option DaysForm
  spans : List SpanForm
  deriving DecidableEq

/-- When a rule applies. -/
inductive TimesForm where
  /-- The word for all day, every day. -/
  | always
  | times (wide : Option WideForm) (small : Option SmallForm)
  deriving DecidableEq

/-- What a rule says of the times: a word, a comment, or both. -/
structure ModifierForm where
  kind : Option RuleKind
  comment : Option (List Char)
  deriving DecidableEq

/-- A rule: times or a modifier, or both. -/
structure RuleForm where
  times : Option TimesForm
  modifier : Option ModifierForm
  deriving DecidableEq

/-- What stands between two rules. -/
inductive SeparatorForm where
  | overriding
  | adding
  /-- A rule for the case that the one before it does not know the state. -/
  | fallback (bars : Fragment)
  deriving DecidableEq

/-- A whole expression. -/
structure ExpressionForm where
  first : RuleForm
  rest : List (SeparatorForm × RuleForm)
  deriving DecidableEq

end Timetable.Grammar
