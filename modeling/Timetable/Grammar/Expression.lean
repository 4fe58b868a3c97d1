import Timetable.Grammar.Form

/-!
The grammar of opening hours expressions.

Each definition is one named part of the grammar, from the characters up to the whole text. Blanks
are read only where the grammar names them, and only U+0020 counts as one. The names of the
productions stand in parentheses where they differ.
-/

namespace Timetable.Grammar

open Peg

/-! ### Characters -/

/-- A space. -/
def space : Peg Unit := token [' ']

/-- Any number of spaces. -/
def spaces : Peg Unit := map (fun _ => ()) (many space)

/-- At least one space. -/
def someSpace : Peg Unit := space.andThen spaces

/-- A mark with any number of spaces on both sides. -/
def spaced (mark : String) : Peg Unit :=
  (spaces.andThen (token mark.toList)).followedBy spaces

/-- Between `least` and `most` digits. -/
def digits (least most : Nat) : Peg (List Char) := chars Char.isDigit least (some most)

/-- A number of any length (`positive_number`). -/
def number : Peg (List Char) := named (chars Char.isDigit 1 none)

/-- A sign, read as whether it is a plus (`plus_or_minus`). -/
def sign : Peg Bool := named (choice (word "+" true) (word "-" false))

/-- A plus sign that stands for something left open (`timespan_plus`, `monthday_range_plus`,
`year_range_plus`). -/
def plus : Peg Unit := named (token ['+'])

/-- The number of a year. -/
def year : Peg (List Char) := named ((digits 4 4).followedBy (notNext Char.isDigit))

/-- The number of a week (`weeknum`). -/
def weekNumber : Peg (List Char) := named ((digits 1 2).followedBy (notNext Char.isDigit))

/-- The number of a day, which is not the hour of a clock time (`daynum`). -/
def dayNumber : Peg (List Char) :=
  named ((digits 1 2).followedBy (notNext fun c => c.isDigit || c == ':'))

/-- The name of a month. -/
def month : Peg Month :=
  named (firstOf
    [word "Jan" .january, word "Feb" .february, word "Mar" .march, word "Apr" .april,
      word "May" .may, word "Jun" .june, word "Jul" .july, word "Aug" .august,
      word "Sep" .september, word "Oct" .october, word "Nov" .november, word "Dec" .december])

/-- The name of a weekday (`wday`). -/
def weekday : Peg Weekday :=
  named (firstOf
    [word "Mo" .monday, word "Tu" .tuesday, word "We" .wednesday, word "Th" .thursday,
      word "Fr" .friday, word "Sa" .saturday, word "Su" .sunday])

/-! ### Spans of time -/

/-- Hour and minute (`hour_minutes`, `extended_hour_minutes`). -/
def clock : Peg ClockForm :=
  named (map (fun both => ⟨both.1, both.2⟩)
    (seq ((named (digits 1 2)).followedBy (token [':'])) (named (digits 2 2))))

/-- An event of the sun. -/
def event : Peg SolarEvent :=
  named (firstOf
    [named (word "dawn" .dawn), named (word "sunrise" .sunrise), named (word "sunset" .sunset),
      named (word "dusk" .dusk)])

/-- An event between parentheses, with a sign and the amount by which it is moved. -/
def shiftedEvent : Peg MomentForm :=
  map (fun parts => .shifted parts.1 parts.2.1 parts.2.2)
    ((token ['(']).andThen (spaces.andThen
      (seq (event.followedBy spaces) (seq (sign.followedBy spaces)
        ((clock.followedBy spaces).followedBy (token [')']))))))

/-- An event, moved or not (`variable_time`). -/
def solarMoment : Peg MomentForm := named (choice (map .event event) shiftedEvent)

/-- A beginning or an end of a span (`time`, `extended_time`). -/
def moment : Peg MomentForm := named (choice (map .clock clock) solarMoment)

/-- What follows the beginning of a span. -/
def spanEnd : Peg SpanEndForm :=
  firstOf
    [map (fun parts => .upTo parts.1 parts.2.isSome)
        ((spaced "-").andThen (seq moment (optional plus))),
      map (fun _ => .plus) plus,
      pure .missing]

/-- A span of time (`timespan`). -/
def span : Peg SpanForm :=
  named (map (fun parts => ⟨parts.1.1, parts.1.2, parts.2⟩) (located (seq moment spanEnd)))

/-- Spans of time with commas between them (`time_selector`). -/
def spans : Peg (List SpanForm) := named (separatedBy span (spaced ","))

/-! ### Days -/

/-- A number of days by which another day is meant (`day_offset`). -/
def dayOffset : Peg Fragment :=
  map Prod.snd (located (named
    ((someSpace.andThen (seq sign number)).followedBy
      (someSpace.andThen (choice (token "days".toList) (token "day".toList))))))

/-- Numbers of weekdays in the month, between brackets (`nth_entries`). -/
def occurrences : Peg Fragment :=
  map Prod.snd (located (named
    ((token ['[']).andThen ((chars (· != ']') 0 none).followedBy (token [']'])))))

/-- A weekday or a range of weekdays (`weekday_range`). -/
def weekdayRange : Peg WeekdayForm :=
  named (map (fun parts => ⟨parts.1.1, parts.1.2, parts.2.1, parts.2.2⟩)
    (seq (seq weekday (optional ((token ['-']).andThen weekday)))
      (seq (optional occurrences) (optional dayOffset))))

/-- Weekdays with commas between them (`weekday_sequence`). -/
def weekdays : Peg (List WeekdayForm) := named (separatedBy weekdayRange (token [',']))

/-- A kind of holidays. -/
def holiday : Peg HolidayForm :=
  named (map (fun parts => ⟨parts.1, parts.2⟩)
    (seq (choice (named (word "PH" .publicHoliday)) (named (word "SH" .schoolHoliday)))
      (optional dayOffset)))

/-- Holidays with commas between them (`holiday_sequence`). -/
def holidays : Peg (List HolidayForm) := named (separatedBy holiday (token [',']))

/-- Holidays that are demanded beside the weekdays (`holiday_and_weekday`). -/
def holidaysOnWeekdays : Peg DaysForm :=
  named (map (fun parts => .holidaysOnWeekdays parts.1 parts.2)
    (seq (holidays.followedBy someSpace) weekdays))

/-- Elements after a comma, or none. -/
def afterComma {α : Type} (items : Peg (List α)) : Peg (List α) :=
  map (fun parts => parts.getD []) (optional ((token [',']).andThen items))

/-- The days of a rule (`weekday_selector`). -/
def days : Peg DaysForm :=
  named (firstOf
    [holidaysOnWeekdays,
      map (fun parts => .weekdaysThenHolidays parts.1 parts.2)
        (seq weekdays (afterComma holidays)),
      map (fun parts => .holidaysThenWeekdays parts.1 parts.2)
        (seq holidays (afterComma weekdays))])

/-! ### Weeks, dates and years -/

/-- A week or a range of weeks (`week`). -/
def weekRange : Peg WeekForm :=
  named (map (fun parts => ⟨parts.1, parts.2.map Prod.fst, parts.2.bind Prod.snd⟩)
    (seq weekNumber (optional
      (seq ((token ['-']).andThen weekNumber) (optional ((token ['/']).andThen number))))))

/-- The word for weeks, and weeks with commas between them (`week_selector`). -/
def weeks : Peg (List WeekForm) :=
  named (((token "week".toList).andThen someSpace).andThen
    (separatedBy weekRange (token [','])))

/-- A year before a part of that year. -/
def leadingYear : Peg (Option (List Char)) := optional (year.followedBy someSpace)

/-- A day of the year (`date_from`). -/
def day : Peg DayForm :=
  named (map
    (fun parts =>
      match parts.2 with
      | some fixed => .fixed parts.1 fixed.1 fixed.2
      | none => .easter parts.1)
    (seq leadingYear
      (choice (map some (seq (month.followedBy someSpace) dayNumber))
        (named (word "easter" none)))))

/-- The last day of a range (`date_to`). -/
def lastDay : Peg LastDayForm :=
  named (choice (map .day day) (map (fun parts => .number parts.2) (located dayNumber)))

/-- What follows the first day of a range. -/
def dayEnd : Peg DayEndForm :=
  firstOf
    [map (fun parts => .upTo parts.1 parts.2)
        ((spaced "-").andThen (seq lastDay (optional dayOffset))),
      map (fun _ => .plus) plus,
      pure .missing]

/-- A part of the year (`monthday_range`). -/
def dateRange : Peg DateForm :=
  named (choice
    (map (fun parts => .days parts.1 parts.2.1 parts.2.2)
      (seq day (seq (optional dayOffset) dayEnd)))
    (map (fun parts => .months parts.1 parts.2.1 parts.2.2)
      (seq leadingYear (seq month (optional ((token ['-']).andThen month))))))

/-- Parts of the year with commas between them (`monthday_selector`). -/
def dates : Peg (List DateForm) := named (separatedBy dateRange (token [',']))

/-- A year or a range of years (`year_range`). -/
def yearRange : Peg YearForm :=
  named (map (fun parts => ⟨parts.1, parts.2⟩)
    (seq year (firstOf
      [map (fun parts => .upTo parts.1 parts.2)
          (seq ((token ['-']).andThen year) (optional ((token ['/']).andThen number))),
        map (fun _ => .plus) plus,
        pure .missing])))

/-- Years with commas between them (`year_selector`). -/
def years : Peg (List YearForm) := named (separatedBy yearRange (token [',']))

/-! ### Rules -/

/-- The conditions on years, dates and weeks (`wide_range_selectors`). -/
def wide : Peg WideForm :=
  named (choice
    (map (fun parts => ⟨parts.1.1, parts.1.2, parts.2.getD []⟩)
      (seq
        (choice (map (fun dates => ([], dates)) dates)
          (map (fun parts => (parts.1, parts.2.getD []))
            (seq years (optional (someSpace.andThen dates)))))
        (optional (someSpace.andThen weeks))))
    (map (fun weeks => ⟨[], [], weeks⟩) weeks))

/-- The conditions on days, and the spans of time (`small_range_selectors`). -/
def small : Peg SmallForm :=
  named (choice
    (map (fun parts => ⟨some parts.1, parts.2.getD []⟩)
      (seq days (optional (someSpace.andThen spans))))
    (map (fun spans => ⟨none, spans⟩) spans))

/-- What stands between the wide and the small conditions (`selector_separator`). -/
def conditionSeparator : Peg Unit := choice (spaced ":") someSpace

/-- When a rule applies (`selector_sequence`). -/
def times : Peg TimesForm :=
  named (firstOf
    [named (word "24/7" .always),
      map (fun parts => .times (some parts.1) parts.2)
        (seq wide (optional (conditionSeparator.andThen small))),
      map (fun small => .times none (some small)) small])

/-- The word for the kind of a rule (`rules_modifier_enum`). -/
def kind : Peg RuleKind :=
  named (firstOf
    [named (choice (word "closed" .closed) (word "off" .closed)), named (word "open" .opened),
      named (word "unknown" .unknown)])

/-- A comment between double quotes. -/
def comment : Peg (List Char) :=
  named ((token ['"']).andThen
    ((named (chars (· != '"') 0 none)).followedBy (token ['"'])))

/-- A word for the kind with an optional comment, or a comment alone (`rules_modifier`). -/
def modifier : Peg ModifierForm :=
  named (choice
    (map (fun parts => ⟨some parts.1, parts.2⟩)
      (seq kind (optional (someSpace.andThen comment))))
    (map (fun comment => ⟨none, some comment⟩) comment))

/-- A rule (`rule_sequence`). -/
def rule : Peg RuleForm :=
  named (choice
    (map (fun parts => ⟨some parts.1, parts.2⟩)
      (seq times (optional (someSpace.andThen modifier))))
    (map (fun modifier => ⟨none, some modifier⟩) modifier))

/-- What stands between two rules (`any_rule_separator`). -/
def separator : Peg SeparatorForm :=
  named (firstOf
    [map (fun _ => .overriding) (named (spaced ";")),
      map (fun parts => .fallback parts.2) (located (named (spaced "||"))),
      map (fun _ => .adding) (named (spaced ","))])

/-- Rules with separators between them, and perhaps a semicolon after the last one
(`opening_hours`). -/
def expression : Peg ExpressionForm :=
  named ((map (fun parts => ⟨parts.1, parts.2⟩) (seq rule (many (seq separator rule)))).followedBy
    (optional (spaces.andThen (token [';']))))

/-- An expression with spaces around it, up to the end of the text (`input_opening_hours`). -/
def wholeText : Peg ExpressionForm :=
  (((spaces.andThen expression).followedBy spaces).followedBy (named endOfText))

end Timetable.Grammar
