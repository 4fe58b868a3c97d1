import Timetable.Text.Decimal
import Timetable.Text.Quoted

/-!
Why a text is refused.
-/

namespace Timetable

/-- Parts of the grammar that are recognised but cannot be evaluated (§10.2). -/
inductive Unsupported where
  | fallbackRule
  | pointInTime
  | openEnd
  | numberedWeekday
  | dayOffset
  | dayAfterEaster
  deriving DecidableEq, Repr

/-- The name of the part in a message. -/
def Unsupported.text : Unsupported → String
  | fallbackRule => "fallback rule"
  | pointInTime => "point in time"
  | openEnd => "open end"
  | numberedWeekday => "numbered weekday occurrence"
  | dayOffset => "day offset"
  | dayAfterEaster => "easter followed by a day number"

/-- Limits that a number may exceed. -/
inductive Limit where
  /-- A clock time, up to a full hour. -/
  | clockTime (hours : Nat)
  | weekNumber
  | weekStep
  | yearStep
  /-- Any number, which has to fit into 64 bits. -/
  | number
  deriving DecidableEq, Repr

/-- What a message says was expected. -/
def Limit.text : Limit → String
  | clockTime hours => "a time between 00:00 and " ++ Decimal.twoDigits hours ++ ":00"
  | weekNumber => "a week number in [1, 53]"
  | weekStep => "an integer in [1, 255]"
  | yearStep => "an integer in [1, 2**16["
  | number => "a number between 0 and 2**64"

/-- Why a text is refused (`ParseError` and `CommentOnlyField`, §7). -/
inductive ReadError where
  /-- The grammar does not fit; the furthest place at which a part of it was looked for. -/
  | grammar (position : Nat)
  /-- A part that cannot be evaluated, with its place and its text. -/
  | unsupported (feature : Unsupported) (position : Nat) (fragment : String)
  /-- A number beyond a limit. -/
  | overflow (value : String) (limit : Limit)
  /-- There is nothing but a comment. -/
  | commentOnly (comment : String)
  deriving DecidableEq, Repr

namespace ReadError

/-- The byte offset at which the text is at fault, if it is known. -/
def position? : ReadError → Option Nat
  | grammar position => some position
  | unsupported _ position _ => some position
  | overflow _ _ => none
  | commentOnly _ => none

/-- The comment, if there is nothing else. -/
def comment? : ReadError → Option String
  | commentOnly comment => some comment
  | _ => none

/-- The error in words; for a misfit of the grammar the position says it all. -/
def message? : ReadError → Option String
  | grammar _ => none
  | unsupported feature position fragment =>
    some ("using an unsupported feature at position " ++ Decimal.natural position ++ ": " ++
      feature.text ++ " (\x60" ++ fragment ++ "\x60)")
  | overflow value limit => some (value ++ " is too large: expected " ++ limit.text)
  | commentOnly comment =>
    some ("the field only contains a comment: " ++ Quoted.quote comment)

end ReadError

end Timetable
