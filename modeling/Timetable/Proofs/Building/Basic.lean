import Mathlib.Algebra.Group.Nat.Defs
import Timetable.Proofs.Grammar.Tree
import Timetable.Reading.Basic

/-!
Rules from trees, with every assumption checked.

A tree may be anything, so whatever is built from one rests on assumptions: that a part has the name
that it should have, that a part stands where one is needed and no other one does, that digits give
a number of a machine integer's width, that a name is known, that a sum or product fits its width.
Here each of them is checked where it is made, and a `Fault` says which one was broken, apart from
the errors that a text is refused with.
-/

namespace Timetable.Grammar

/-- What is taken for granted of a tree. -/
inductive Assertion where
  /-- The part has the name that is expected. -/
  | named (expected found : Symbol)
  /-- There is one more part. -/
  | present (parent : Symbol)
  /-- A part may stand within another one. -/
  | allowed (found parent : Symbol)
  /-- A text is a number of so many bits. -/
  | numeral (bits : Nat) (text : List Char)
  /-- A text is one of the names of the language. -/
  | known (text : List Char)
  /-- The result of a calculation fits its width. -/
  | fits (result : Int)
  deriving DecidableEq

/-- Why nothing is built. -/
inductive Fault where
  /-- An assumption does not hold. -/
  | broken (assertion : Assertion)
  /-- The text is refused. -/
  | refused (error : ReadError)
  deriving DecidableEq

namespace Build

/-! ### Assumptions -/

/-- Asserts the name of a part. -/
def expect (tree : Tree) (symbol : Symbol) : Except Fault Unit :=
  if tree.symbol = symbol then .ok () else .error (.broken (.named symbol tree.symbol))

/-- The next part within another one, and the parts behind it. -/
def next (parent : Symbol) : List Tree → Except Fault (Tree × List Tree)
  | [] => .error (.broken (.present parent))
  | tree :: rest => .ok (tree, rest)

/-- A part that may not stand within another one. -/
def unexpected {α : Type} (tree : Tree) (parent : Symbol) : Except Fault α :=
  .error (.broken (.allowed tree.symbol parent))

/-- A part that cannot be evaluated. -/
def refuse {α : Type} (tree : Tree) (feature : Unsupported) : Except Fault α :=
  .error (.refused
    (.unsupported feature tree.whole.position (String.ofList tree.whole.text)))

/-- A number of so many bits without a sign, or with a plus sign. -/
def unsigned? (bits : Nat) (text : List Char) : Option Nat :=
  let digits := if text.head? = some '+' then text.tail else text
  if !digits.isEmpty && digits.all Char.isDigit && Decimal.value digits < 2 ^ bits then
    some (Decimal.value digits)
  else none

/-- Asserts that a part is a number of so many bits. -/
def numeral (bits : Nat) (tree : Tree) : Except Fault Nat :=
  match unsigned? bits tree.text with
  | some value => .ok value
  | none => .error (.broken (.numeral bits tree.text))

/-- Asserts that a result fits 16 bits without a sign. -/
def fitsUnsigned (result : Nat) : Except Fault Nat :=
  if result < 65536 then .ok result else .error (.broken (.fits result))

/-- Asserts that a result fits 16 bits with a sign. -/
def fitsSigned (result : Int) : Except Fault Int :=
  if -32768 ≤ result ∧ result < 32768 then .ok result else .error (.broken (.fits result))

/-! ### Elements -/

/-- Every part within a list. -/
def listOf {α : Type} (symbol : Symbol) (item : Tree → Except Fault α) (tree : Tree) :
    Except Fault (List α) := do
  expect tree symbol
  tree.children.mapM item

/-- The number of a year. -/
def year (tree : Tree) : Except Fault Nat := do
  expect tree .year
  numeral 16 tree

/-- A number of any length, which is refused if it takes more than 64 bits. -/
def number (tree : Tree) : Except Fault Nat := do
  expect tree .number
  match unsigned? 64 tree.text with
  | some value => return value
  | none => .error (.refused (.overflow (String.ofList tree.text) .number))

/-- The number that comes next, if there is one. -/
def number? : List Tree → Except Fault (Option Nat)
  | [] => .ok none
  | tree :: _ => do return some (← number tree)

/-- A step of so many bits, 1 if there is none. -/
def step (bits : Nat) (limit : Limit) (number? : Option Nat) : Except Fault Nat :=
  let value := number?.getD 1
  if value < 2 ^ bits ∧ 0 < value then .ok value
  else .error (.refused (.overflow (Decimal.natural value) limit))

/-- The month with a name. -/
def month (tree : Tree) : Except Fault Month := do
  expect tree .month
  match Month.ofAbbreviation? (String.ofList tree.text) with
  | some month => return month
  | none => .error (.broken (.known tree.text))

/-- The weekday with a name. -/
def weekday (tree : Tree) : Except Fault Weekday := do
  expect tree .weekday
  match Weekday.ofAbbreviation? (String.ofList tree.text) with
  | some day => return day
  | none => .error (.broken (.known tree.text))

/-- The number of a day, which is moved into 1 to 31. -/
def dayNumber (tree : Tree) : Except Fault Nat := do
  expect tree .dayNumber
  let day ← numeral 8 tree
  return if day = 0 then 1 else if 31 < day then 31 else day

/-- The number of a week, which is refused if no year has the week. -/
def weekNumber (tree : Tree) : Except Fault Nat := do
  expect tree .weekNumber
  let week ← numeral 8 tree
  if 1 ≤ week ∧ week ≤ 53 then return week
  else .error (.refused (.overflow (Decimal.natural week) .weekNumber))

/-- 1 or -1. -/
def sign (tree : Tree) : Except Fault Int := do
  expect tree .sign
  return if tree.text = ['-'] then -1 else 1

/-! ### Spans of time -/

/-- The clock time with an hour and a minute, if there is one. -/
def clockTime? (hour minute : Nat) : Except Fault (Option ClockTime) :=
  if 48 < hour ∨ 59 < minute ∨ (hour = 48 ∧ 0 < minute) then .ok none
  else do
    let hours ← fitsUnsigned (hour * 60)
    let minutes ← fitsUnsigned (hours + minute)
    return ClockTime.ofMinutes? minutes

/-- A clock time up to a full hour. -/
def clockUpTo (hours : Nat) (tree : Tree) : Except Fault ClockTime := do
  let (first, rest) ← next tree.symbol tree.children
  let hour ← numeral 8 first
  let (second, _) ← next tree.symbol rest
  let minute ← numeral 8 second
  let greatest := (← clockTime? hours 0).getD .endOfNextDay
  match ← clockTime? hour minute with
  | some time =>
    if time ≤ greatest then return time
    else .error (.refused (.overflow
      (Decimal.twoDigits hour ++ ":" ++ Decimal.twoDigits minute) (.clockTime hours)))
  | none =>
    .error (.refused (.overflow
      (Decimal.twoDigits hour ++ ":" ++ Decimal.twoDigits minute) (.clockTime hours)))

/-- A clock time up to 24:00. -/
def clock (tree : Tree) : Except Fault ClockTime := do
  expect tree .clock
  clockUpTo 24 tree

/-- A clock time up to 48:00. -/
def lateClock (tree : Tree) : Except Fault ClockTime := do
  expect tree .lateClock
  clockUpTo 48 tree

/-- The event of a name. -/
def event (tree : Tree) : Except Fault SolarEvent := do
  expect tree .event
  let (inner, _) ← next .event tree.children
  match inner.symbol with
  | .dawn => return .dawn
  | .sunrise => return .sunrise
  | .sunset => return .sunset
  | .dusk => return .dusk
  | _ => unexpected inner .event

/-- An event, and the minutes by which it is moved, as a number of 16 bits with a sign. -/
def solarMoment (tree : Tree) : Except Fault Moment := do
  expect tree .solarMoment
  let (first, rest) ← next .solarMoment tree.children
  let kind ← event first
  match rest with
  | [] => return .solar kind 0
  | second :: rest =>
    let (third, _) ← next .solarMoment rest
    let time ← clock third
    let minutes ← fitsSigned (← fitsUnsigned time.minutes)
    let direction ← sign second
    return .solar kind (← fitsSigned (direction * minutes))

/-- A beginning of a span. -/
def moment (tree : Tree) : Except Fault Moment := do
  expect tree .moment
  let (inner, _) ← next .moment tree.children
  match inner.symbol with
  | .clock => return .clock (← clock inner)
  | .solarMoment => solarMoment inner
  | _ => unexpected inner .moment

/-- An end of a span, which may be after midnight. -/
def lateMoment (tree : Tree) : Except Fault Moment := do
  expect tree .lateMoment
  let (inner, _) ← next .lateMoment tree.children
  match inner.symbol with
  | .lateClock => return .clock (← lateClock inner)
  | .solarMoment => solarMoment inner
  | _ => unexpected inner .lateMoment

/-- A span of time, which is refused if it has no end. -/
def span (tree : Tree) : Except Fault TimeSpan := do
  expect tree .span
  let (first, rest) ← next .span tree.children
  let beginning ← moment first
  match rest with
  | [] => refuse tree .pointInTime
  | second :: rest =>
    if second.symbol = .spanPlus then refuse tree .openEnd
    else do
      let ending ← lateMoment second
      if rest.isEmpty then return ⟨beginning, ending⟩ else refuse tree .openEnd

/-! ### Days -/

/-- The weekday that comes next, if there is one, or else the given one; and the parts behind
it. -/
def lastWeekday (first : Weekday) : List Tree → Except Fault (Weekday × List Tree)
  | [] => .ok (first, [])
  | tree :: rest =>
    if tree.symbol = .weekday then do return (← weekday tree, rest)
    else .ok (first, tree :: rest)

/-- The value, provided that nothing is left by which another day would be meant. -/
def unmoved {α : Type} (value : α) : List Tree → Except Fault α
  | [] => .ok value
  | offset :: _ => refuse offset .dayOffset

/-- A range of weekdays, which is refused if it is about other days or some of the month. -/
def weekdayRange (tree : Tree) : Except Fault WeekdayRange := do
  expect tree .weekdayRange
  let (first, rest) ← next .weekdayRange tree.children
  let start ← weekday first
  let (stop, rest) ← lastWeekday start rest
  match rest with
  | [] => return .days start stop
  | part :: rest =>
    if part.symbol = .occurrences then refuse part .numberedWeekday
    else unmoved (.days start stop) (part :: rest)

/-- A kind of holidays. -/
def holidayKind (tree : Tree) : Except Fault Holiday :=
  match tree.symbol with
  | .publicHoliday => .ok .publicHoliday
  | .schoolHoliday => .ok .schoolHoliday
  | _ => unexpected tree .holiday

/-- Holidays of a kind, which are refused if they are about other days. -/
def holiday (tree : Tree) : Except Fault Holiday := do
  expect tree .holiday
  let (first, rest) ← next .holiday tree.children
  unmoved (← holidayKind first) rest

/-- The days so far, with a part of those that are demanded together. -/
def addDemanded (found : List WeekdayRange × List Holiday) (tree : Tree) :
    Except Fault (List WeekdayRange × List Holiday) :=
  match tree.symbol with
  | .holidays => do return (found.1, ← listOf .holidays holiday tree)
  | .weekdays => do return (← listOf .weekdays weekdayRange tree, found.2)
  | _ => unexpected tree .holidaysOnWeekdays

/-- The days so far, with one more part. -/
def addDays (found : List WeekdayRange × List Holiday) (tree : Tree) :
    Except Fault (List WeekdayRange × List Holiday) :=
  match tree.symbol with
  | .holidaysOnWeekdays => tree.children.foldlM addDemanded found
  | .weekdays => do
    let ranges ← listOf .weekdays weekdayRange tree
    return (found.1 ++ ranges, found.2)
  | .holidays => do
    let kinds ← listOf .holidays holiday tree
    return (found.1 ++ kinds.map .holiday, found.2)
  | _ => unexpected tree .days

/-- The weekdays, and the holidays that are demanded beside them. -/
def days (tree : Tree) : Except Fault (List WeekdayRange × List Holiday) := do
  expect tree .days
  tree.children.foldlM addDays ([], [])

/-! ### Weeks, dates and years -/

/-- The week that comes next, if there is one, or else the given one; and the parts behind it. -/
def lastWeek (first : Nat) : List Tree → Except Fault (Nat × List Tree)
  | [] => .ok (first, [])
  | tree :: rest => do return (← weekNumber tree, rest)

/-- A range of weeks, every one of them if nothing is said of steps. -/
def weekRange (tree : Tree) : Except Fault WeekRange := do
  expect tree .weekRange
  let (opening, rest) ← next .weekRange tree.children
  let first ← weekNumber opening
  let (last, rest) ← lastWeek first rest
  let every ← number? rest >>= step 8 .weekStep
  return ⟨first, last, every⟩

/-- The year that comes next, if there is one, and the parts behind it. -/
def leadingYear : List Tree → Except Fault (Option Nat × List Tree)
  | [] => .ok (none, [])
  | tree :: rest =>
    if tree.symbol = .year then do return (some (← year tree), rest)
    else .ok (none, tree :: rest)

/-- A day of the year. -/
def day (tree : Tree) : Except Fault AnnualDay := do
  expect tree .day
  let (year?, rest) ← leadingYear tree.children
  let (first, rest) ← next .day rest
  match first.symbol with
  | .easter => return .easter year?
  | .month => do
    let name ← month first
    let (second, _) ← next .day rest
    return .fixed year? name (← dayNumber second)
  | _ => unexpected first .day

/-- The year after a year, which has to fit its width. -/
def nextYear? : Option Nat → Except Fault (Option Nat)
  | none => .ok none
  | some year => do return some (← fitsUnsigned (year + 1))

/-- The day with a number on or after another day. -/
def numberedDay (first : AnnualDay) (tree : Tree) : Except Fault AnnualDay := do
  let number ← dayNumber tree
  match first with
  | .easter _ => refuse tree .dayAfterEaster
  | .fixed year? month firstNumber =>
    if number < firstNumber then
      let year? ← if month.next = .january then nextYear? year? else pure year?
      return .fixed year? month.next number
    else return .fixed year? month number

/-- The last day of a range that begins with a day. -/
def lastDay (first : AnnualDay) (tree : Tree) : Except Fault AnnualDay := do
  expect tree .lastDay
  let (inner, _) ← next .lastDay tree.children
  match inner.symbol with
  | .day => day inner
  | .dayNumber => numberedDay first inner
  | _ => unexpected inner .lastDay

/-- The last day of a range that goes on. -/
def openEnd (first : AnnualDay) : AnnualDay :=
  if first.year?.isSome then .fixed (some 9999) .december 31 else .fixed none .december 31

/-- The last day of a range, from the parts behind the first one; and the parts behind it. -/
def dayEnd (first : AnnualDay) : List Tree → Except Fault (AnnualDay × List Tree)
  | [] => .ok (first, [])
  | tree :: rest =>
    match tree.symbol with
    | .lastDay => do return (← lastDay first tree, rest)
    | .datePlus => .ok (openEnd first, rest)
    | .dayOffset => refuse tree .dayOffset
    | _ => unexpected tree .dateRange

/-- The month that comes next, if there is one, or else the given one. -/
def lastMonth (first : Month) : List Tree → Except Fault Month
  | [] => .ok first
  | tree :: _ => month tree

/-- A part of the year, by its days or by its months. -/
def dateRange (tree : Tree) : Except Fault DateRange := do
  expect tree .dateRange
  let (opening, rest) ← next .dateRange tree.children
  if opening.symbol = .day then do
    let first ← day opening
    let (last, rest) ← dayEnd first rest
    unmoved (.days first last) rest
  else do
    let (year?, rest) ← leadingYear tree.children
    let (second, rest) ← next .dateRange rest
    let first ← month second
    return .months year? first (← lastMonth first rest)

/-- The last year of a range, from the parts behind the first one; and the parts behind it. -/
def yearEnd (first : Nat) : List Tree → Except Fault (Nat × List Tree)
  | [] => .ok (first, [])
  | tree :: rest =>
    match tree.symbol with
    | .year => do return (← year tree, rest)
    | .yearPlus => .ok (9999, rest)
    | _ => unexpected tree .yearRange

/-- A range of years, every one of them if nothing is said of steps. -/
def yearRange (tree : Tree) : Except Fault YearRange := do
  expect tree .yearRange
  let (opening, rest) ← next .yearRange tree.children
  let first ← year opening
  let (last, rest) ← yearEnd first rest
  let every ← number? rest >>= step 16 .yearStep
  return ⟨first, last, every⟩

/-! ### Rules -/

/-- The selector so far, with one more of the wide conditions. -/
def addWide (selector : Selector) (tree : Tree) : Except Fault Selector :=
  match tree.symbol with
  | .years => do return { selector with years := ← listOf .years yearRange tree }
  | .dates => do return { selector with dates := ← listOf .dates dateRange tree }
  | .weeks => do return { selector with weeks := ← listOf .weeks weekRange tree }
  | _ => unexpected tree .wide

/-- The selector with the conditions on years, dates and weeks. -/
def wide (selector : Selector) (tree : Tree) : Except Fault Selector := do
  expect tree .wide
  tree.children.foldlM addWide selector

/-- The selector and the spans so far, with one more of the small conditions. -/
def addSmall (found : Selector × List TimeSpan) (tree : Tree) :
    Except Fault (Selector × List TimeSpan) :=
  match tree.symbol with
  | .days => do
    let (weekdays, holidays) ← days tree
    return ({ found.1 with weekdays, holidays }, found.2)
  | .spans => do return (found.1, ← listOf .spans span tree)
  | _ => unexpected tree .small

/-- The selector with the conditions on days, and the spans of time. -/
def small (selector : Selector) (tree : Tree) : Except Fault (Selector × List TimeSpan) := do
  expect tree .small
  tree.children.foldlM addSmall (selector, [])

/-- The selector and the spans so far, with one more part. -/
def addTimes (found : Selector × List TimeSpan) (tree : Tree) :
    Except Fault (Selector × List TimeSpan) :=
  match tree.symbol with
  | .wide => do return (← wide found.1 tree, found.2)
  | .small => small found.1 tree
  | _ => unexpected tree .times

/-- The selector and the spans of a rule. -/
def times (tree : Tree) : Except Fault (Selector × List TimeSpan) := do
  expect tree .times
  let (first, _) ← next .times tree.children
  if first.symbol = .always then return ({}, [.wholeDay])
  else tree.children.foldlM addTimes ({}, [])

/-- The kind of a rule. -/
def kind (tree : Tree) : Except Fault RuleKind := do
  expect tree .kind
  let (inner, _) ← next .kind tree.children
  match inner.symbol with
  | .closed => return .closed
  | .opened => return .opened
  | .unknown => return .unknown
  | _ => unexpected inner .kind

/-- The text of a comment. -/
def comment (tree : Tree) : Except Fault String := do
  expect tree .comment
  let (inner, _) ← next .comment tree.children
  return String.ofList inner.text

/-- The comment that comes next, if there is one. -/
def comment? : List Tree → Except Fault (Option String)
  | [] => .ok none
  | tree :: _ => do return some (← comment tree)

/-- The kind and the comment of a rule, as far as they are given. -/
def modifier (tree : Tree) : Except Fault (Option RuleKind × Option String) := do
  expect tree .modifier
  let (first, behind) ← next .modifier tree.children
  if first.symbol = .kind then do
    let kind ← kind first
    return (some kind, ← comment? behind)
  else return (none, ← comment? tree.children)

/-- What a part says of a rule beside the times, if there is such a part. -/
def modifier? : Option Tree → Except Fault (Option RuleKind × Option String)
  | some tree => modifier tree
  | none => .ok (none, none)

/-- A rule from its selector, its spans, and the parts that say more of it. -/
def assemble (selector : Selector) (spans : List TimeSpan) (kind? : Option RuleKind)
    (comment : Option String) (additional : Bool) : Rule :=
  let kind := kind?.getD (if comment.isSome && spans.isEmpty then .unknown else .opened)
  let spans := if kind = .opened ∧ spans.isEmpty then spans ++ [.wholeDay] else spans
  { selector, spans, kind, comment, additional }

/-- A rule, given whether it adds to the one before it. -/
def rule (additional : Bool) (tree : Tree) : Except Fault Rule := do
  expect tree .rule
  let (first, rest) ← next .rule tree.children
  if first.symbol = .times then do
    let (selector, spans) ← times first
    let (kind?, comment) ← modifier? rest.head?
    return assemble selector spans kind? comment additional
  else do
    let (kind?, comment) ← modifier? (some first)
    return assemble {} [] kind? comment additional

/-- Whether the rule behind the separator adds to the one before it. -/
def separator (tree : Tree) : Except Fault Bool := do
  expect tree .separator
  let (inner, _) ← next .separator tree.children
  match inner.symbol with
  | .overriding => return false
  | .adding => return true
  | .fallback => refuse inner .fallbackRule
  | _ => unexpected inner .separator

/-- Rules and separators one after the other. -/
def rules : List Tree → Except Fault (List Rule)
  | [] => .ok []
  | tree :: rest =>
    match tree.symbol with
    | .rule => do
      let first ← rule false tree
      return first :: (← rules rest)
    | .separator => do
      let additional ← separator tree
      match rest with
      | [] => .error (.broken (.present .expression))
      | part :: rest =>
        let first ← rule additional part
        return first :: (← rules rest)
    | _ => unexpected tree .expression

/-- All rules. -/
def expression (tree : Tree) : Except Fault (List Rule) := do
  expect tree .expression
  rules tree.children

end Build

end Timetable.Grammar

namespace Timetable.Expression

open Grammar

/-- Reads the rules of a text by way of trees, with every assumption checked. -/
def readRulesChecked (text : List Char) : Except Fault (List Rule) :=
  let outcome := Tree.wholeText.run (Cursor.ofText text)
  match outcome.result with
  | some (trees, _) => do
    let (tree, _) ← Build.next .expression trees
    Build.expression tree
  | none =>
    match bareComment? text with
    | some comment => .error (.refused (.commentOnly (String.ofList comment)))
    | none => .error (.refused (.grammar outcome.furthest))

/-- Reads an expression from a text that was made from a given one, by way of trees. -/
def readFromChecked (given source : String) : Except Fault Expression := do
  let rules ← readRulesChecked source.toList
  let expression : Expression := { given, source, rules }
  match expression.loneComment? with
  | some comment =>
    .error (.refused (.commentOnly (String.ofList (trimBlanks comment.toList))))
  | none => return expression

/-- Reads an expression by way of trees. -/
def readChecked (text : String) : Except Fault Expression := readFromChecked text text

/-- Tidies a text and reads the result by way of trees. -/
def readTidiedChecked (text : String) : Except Fault Expression :=
  readFromChecked text (Tidy.tidy text)

end Timetable.Expression
