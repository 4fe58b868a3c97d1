import Timetable.Grammar.Expression

/-!
The grammar with trees as values.

A tree keeps which part of the grammar was read, its text, and the trees of the named parts within
it, and nothing else: what may stand where is not seen from its type. Each definition is one named
part of the grammar. It has the characters of its namesake among the forms, and leaves every
meaning to those who look at the trees.
-/

namespace Timetable.Grammar

/-- The named parts of the grammar. -/
inductive Symbol where
  | expression | rule
  | separator | overriding | fallback | adding
  | modifier | kind | closed | opened | unknown
  | times | always | wide | small
  | spans | span | spanPlus | moment | lateMoment | solarMoment
  | event | dawn | sunrise | sunset | dusk
  | days | holidaysOnWeekdays | weekdays | weekdayRange | occurrences
  | holidays | holiday | publicHoliday | schoolHoliday | dayOffset
  | weeks | weekRange
  | dates | dateRange | datePlus | day | lastDay | easter
  | years | yearRange | yearPlus
  | sign | clock | lateClock | hour | lateHour | minute
  | weekday | dayNumber | weekNumber | year | number | month
  | comment | commentText | endOfText
  deriving DecidableEq

/-- A part that was read: its name, its text, and the parts within it. -/
inductive Tree where
  | mk (symbol : Symbol) (whole : Fragment) (children : List Tree)

namespace Tree

open Peg

/-- The name of the part. -/
def symbol : Tree → Symbol
  | mk symbol _ _ => symbol

/-- The text of the part and its place. -/
def whole : Tree → Fragment
  | mk _ whole _ => whole

/-- The characters of the part. -/
def text (tree : Tree) : List Char := tree.whole.text

/-- The named parts within the part. -/
def children : Tree → List Tree
  | mk _ _ children => children

/-! ### How trees are put together -/

/-- Something without a name of its own. -/
def silent {α : Type} (inner : Peg α) : Peg (List Tree) := map (fun _ => []) inner

/-- A named part, and what is named within it. -/
def branch (symbol : Symbol) (inner : Peg (List Tree)) : Peg (List Tree) :=
  named (map (fun read => [mk symbol read.2 read.1]) (located inner))

/-- A named part in which nothing is named. -/
def leaf {α : Type} (symbol : Symbol) (inner : Peg α) : Peg (List Tree) :=
  branch symbol (silent inner)

/-- One after the other. -/
def both (first second : Peg (List Tree)) : Peg (List Tree) :=
  map (fun read => read.1 ++ read.2) (seq first second)

/-- Something that may be missing. -/
def maybe (inner : Peg (List Tree)) : Peg (List Tree) := choice inner (pure [])

/-- The same as often as it fits. -/
def repeated (inner : Peg (List Tree)) : Peg (List Tree) := map List.flatten (many inner)

/-- Something behind a mark. -/
def behind {α : Type} (mark : Peg α) (inner : Peg (List Tree)) : Peg (List Tree) :=
  both (silent mark) inner

/-- Something in front of a mark. -/
def before {α : Type} (inner : Peg (List Tree)) (mark : Peg α) : Peg (List Tree) :=
  both inner (silent mark)

/-- Elements with marks between them. -/
def listOf {α : Type} (item : Peg (List Tree)) (mark : Peg α) : Peg (List Tree) :=
  both item (repeated (behind mark item))

/-- One of several words. -/
def oneOf (words : List String) : Peg Unit := firstOf (words.map fun word => token word.toList)

/-! ### Characters -/

/-- A number of any length. -/
def number : Peg (List Tree) := leaf .number (chars Char.isDigit 1 none)

/-- A plus or a minus. -/
def sign : Peg (List Tree) := leaf .sign (choice (token ['+']) (token ['-']))

/-- The four digits of a year. -/
def year : Peg (List Tree) := leaf .year ((digits 4 4).followedBy (notNext Char.isDigit))

/-- The digits of a week. -/
def weekNumber : Peg (List Tree) :=
  leaf .weekNumber ((digits 1 2).followedBy (notNext Char.isDigit))

/-- The digits of a day, which are not the hour of a clock time. -/
def dayNumber : Peg (List Tree) :=
  leaf .dayNumber ((digits 1 2).followedBy (notNext fun c => c.isDigit || c == ':'))

/-- The name of a month. -/
def month : Peg (List Tree) :=
  leaf .month (oneOf
    ["Jan", "Feb", "Mar", "Apr", "May", "Jun", "Jul", "Aug", "Sep", "Oct", "Nov", "Dec"])

/-- The name of a weekday. -/
def weekday : Peg (List Tree) :=
  leaf .weekday (oneOf ["Mo", "Tu", "We", "Th", "Fr", "Sa", "Su"])

/-! ### Spans of time -/

/-- A clock time, with its hour and its minute. -/
def clock : Peg (List Tree) :=
  branch .clock
    (both (before (leaf .hour (digits 1 2)) (token [':'])) (leaf .minute (digits 2 2)))

/-- A clock time at the end of a span, which may be after midnight. -/
def lateClock : Peg (List Tree) :=
  branch .lateClock
    (both (before (leaf .lateHour (digits 1 2)) (token [':'])) (leaf .minute (digits 2 2)))

/-- An event of the sun, with its name. -/
def event : Peg (List Tree) :=
  branch .event (firstOf
    [leaf .dawn (token "dawn".toList), leaf .sunrise (token "sunrise".toList),
      leaf .sunset (token "sunset".toList), leaf .dusk (token "dusk".toList)])

/-- An event; behind it a sign and a clock time if it is moved. -/
def solarMoment : Peg (List Tree) :=
  branch .solarMoment (choice event
    (behind (token ['(']) (behind spaces
      (both (before event spaces) (both (before sign spaces)
        (before (before clock spaces) (token [')'])))))))

/-- A beginning of a span, with what it is given by. -/
def moment : Peg (List Tree) := branch .moment (choice clock solarMoment)

/-- An end of a span, with what it is given by. -/
def lateMoment : Peg (List Tree) := branch .lateMoment (choice lateClock solarMoment)

/-- The plus sign of a span that is left open. -/
def spanPlus : Peg (List Tree) := leaf .spanPlus (token ['+'])

/-- A span of time: its beginning, its end, and a plus sign if it is left open. -/
def span : Peg (List Tree) :=
  branch .span (both moment (firstOf
    [behind (spaced "-") (both lateMoment (maybe spanPlus)), spanPlus, pure []]))

/-- Spans of time with commas between them. -/
def spans : Peg (List Tree) := branch .spans (listOf span (spaced ","))

/-! ### Days -/

/-- A number of days with its sign, by which another day is meant. -/
def dayOffset : Peg (List Tree) :=
  branch .dayOffset (before (behind someSpace (both sign number))
    (someSpace.andThen (choice (token "days".toList) (token "day".toList))))

/-- Numbers of weekdays in the month, between brackets; they are not looked into. -/
def occurrences : Peg (List Tree) :=
  leaf .occurrences ((token ['[']).andThen ((chars (· != ']') 0 none).followedBy (token [']'])))

/-- A weekday or two, and what says more of them. -/
def weekdayRange : Peg (List Tree) :=
  branch .weekdayRange (both (both weekday (maybe (behind (token ['-']) weekday)))
    (both (maybe occurrences) (maybe dayOffset)))

/-- Weekdays with commas between them. -/
def weekdays : Peg (List Tree) := branch .weekdays (listOf weekdayRange (token [',']))

/-- A kind of holidays, and the days by which another day is meant. -/
def holiday : Peg (List Tree) :=
  branch .holiday (both
    (choice (leaf .publicHoliday (token "PH".toList)) (leaf .schoolHoliday (token "SH".toList)))
    (maybe dayOffset))

/-- Holidays with commas between them. -/
def holidays : Peg (List Tree) := branch .holidays (listOf holiday (token [',']))

/-- Holidays and weekdays that are demanded together. -/
def holidaysOnWeekdays : Peg (List Tree) :=
  branch .holidaysOnWeekdays (both (before holidays someSpace) weekdays)

/-- The days of a rule: weekdays and holidays, the one before the other. -/
def days : Peg (List Tree) :=
  branch .days (firstOf
    [holidaysOnWeekdays, both weekdays (maybe (behind (token [',']) holidays)),
      both holidays (maybe (behind (token [',']) weekdays))])

/-! ### Weeks, dates and years -/

/-- A week or two, and the number of weeks from one to the next. -/
def weekRange : Peg (List Tree) :=
  branch .weekRange (both weekNumber (maybe
    (both (behind (token ['-']) weekNumber) (maybe (behind (token ['/']) number)))))

/-- Weeks with commas between them, behind the word for weeks. -/
def weeks : Peg (List Tree) :=
  branch .weeks (behind ((token "week".toList).andThen someSpace)
    (listOf weekRange (token [','])))

/-- A year before a part of that year, or nothing. -/
def leadingYear : Peg (List Tree) := maybe (before year someSpace)

/-- A day of the year: a year if there is one, then a month and a number, or Easter. -/
def day : Peg (List Tree) :=
  branch .day (both leadingYear (choice (both (before month someSpace) dayNumber)
    (leaf .easter (token "easter".toList))))

/-- The last day of a range: a day, or the number of a day. -/
def lastDay : Peg (List Tree) := branch .lastDay (choice day dayNumber)

/-- The plus sign of a range of days that is left open. -/
def datePlus : Peg (List Tree) := leaf .datePlus (token ['+'])

/-- A part of the year: a day or two with the days by which others are meant, or a month or
two behind a year. -/
def dateRange : Peg (List Tree) :=
  branch .dateRange (choice
    (both day (both (maybe dayOffset) (firstOf
      [behind (spaced "-") (both lastDay (maybe dayOffset)), datePlus, pure []])))
    (both leadingYear (both month (maybe (behind (token ['-']) month)))))

/-- Parts of the year with commas between them. -/
def dates : Peg (List Tree) := branch .dates (listOf dateRange (token [',']))

/-- The plus sign of a range of years that is left open. -/
def yearPlus : Peg (List Tree) := leaf .yearPlus (token ['+'])

/-- A year or two, and the number of years from one to the next. -/
def yearRange : Peg (List Tree) :=
  branch .yearRange (both year (firstOf
    [both (behind (token ['-']) year) (maybe (behind (token ['/']) number)), yearPlus, pure []]))

/-- Years with commas between them. -/
def years : Peg (List Tree) := branch .years (listOf yearRange (token [',']))

/-! ### Rules -/

/-- The conditions on years, dates and weeks. -/
def wide : Peg (List Tree) :=
  branch .wide (choice
    (both (choice dates (both years (maybe (behind someSpace dates))))
      (maybe (behind someSpace weeks)))
    weeks)

/-- The conditions on days, and the spans of time. -/
def small : Peg (List Tree) :=
  branch .small (choice (both days (maybe (behind someSpace spans))) spans)

/-- When a rule applies: always, or under conditions. -/
def times : Peg (List Tree) :=
  branch .times (firstOf
    [leaf .always (token "24/7".toList),
      both wide (maybe (behind conditionSeparator small)), small])

/-- The word for the kind of a rule, with the kind that it stands for. -/
def kind : Peg (List Tree) :=
  branch .kind (firstOf
    [leaf .closed (choice (token "closed".toList) (token "off".toList)),
      leaf .opened (token "open".toList), leaf .unknown (token "unknown".toList)])

/-- A comment between double quotes, with its text. -/
def comment : Peg (List Tree) :=
  branch .comment (behind (token ['"'])
    (before (leaf .commentText (chars (· != '"') 0 none)) (token ['"'])))

/-- A word for the kind with an optional comment, or a comment alone. -/
def modifier : Peg (List Tree) :=
  branch .modifier (choice (both kind (maybe (behind someSpace comment))) comment)

/-- A rule: when it applies, and what else is said of it. -/
def rule : Peg (List Tree) :=
  branch .rule (choice (both times (maybe (behind someSpace modifier))) modifier)

/-- What stands between two rules, with its sort. -/
def separator : Peg (List Tree) :=
  branch .separator (firstOf
    [leaf .overriding (spaced ";"), leaf .fallback (spaced "||"), leaf .adding (spaced ",")])

/-- Rules with separators between them. -/
def expression : Peg (List Tree) :=
  branch .expression (before (both rule (repeated (both separator rule)))
    (optional (spaces.andThen (token [';']))))

/-- An expression with spaces around it, up to the end of the text. -/
def wholeText : Peg (List Tree) :=
  both (before (behind spaces expression) spaces) (leaf .endOfText endOfText)

end Tree

end Timetable.Grammar
