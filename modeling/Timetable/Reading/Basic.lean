import Timetable.Grammar.Expression
import Timetable.Reading.Interpret
import Timetable.Rule.Basic
import Timetable.Text.Alphanumeric
import Timetable.Text.Characters
import Timetable.Tidy.Basic

/-!
Reading an expression.

A text is refused if the grammar does not fit, if a part of it cannot be evaluated, or if it is
nothing but a comment; the latter also where the comment lacks its quotes.
-/

namespace Timetable

/-- The written form of a text, or the furthest place at which the grammar was looked for in
vain. -/
def Grammar.parse (text : List Char) : Except Nat Grammar.ExpressionForm :=
  let outcome := Grammar.wholeText.run (Grammar.Cursor.ofText text)
  match outcome.result with
  | some (form, _) => .ok form
  | none => .error outcome.furthest

/-- The text of a comment that is not between quotes. As it has no digit and no word of the
language, it cannot be meant for anything else. This is the free text of §10.2. -/
def bareComment? (text : List Char) : Option (List Char) :=
  let comment := trimBlanks (trimBy (fun c => c == '"' || c == ';') (trimBlanks text))
  if comment.isEmpty || comment.any Char.isDigit then none
  else if (runsOf isAlphanumeric comment).any fun word => keywords.any (·.toList == word) then none
  else some comment

namespace Expression

/-- Reads the rules of a text. -/
def readRules (text : List Char) : Except ReadError (List Rule) :=
  match Grammar.parse text with
  | .ok form => form.interpret
  | .error position =>
    match bareComment? text with
    | some comment => .error (.commentOnly (String.ofList comment))
    | none => .error (.grammar position)

/-- Reads an expression from a text that was made from a given one. -/
def readFrom (given source : String) : Except ReadError Expression := do
  let rules ← readRules source.toList
  let expression : Expression := { given, source, rules }
  match expression.loneComment? with
  | some comment => .error (.commentOnly (String.ofList (trimBlanks comment.toList)))
  | none => return expression

/-- Reads an expression (`parse`, §4.1). -/
def read (text : String) : Except ReadError Expression := readFrom text text

/-- Tidies a text and reads the result (`parse_raw`, §10.2). -/
def readTidied (text : String) : Except ReadError Expression := readFrom text (Tidy.tidy text)

/-- What comes of reading the canonical text of an expression again. -/
inductive Rereading where
  /-- The rules are those of the expression. -/
  | same
  /-- The text can be read, but its rules are others. -/
  | different
  /-- The text cannot be read. -/
  | refused (error : ReadError)
  deriving DecidableEq, Repr

/-- Reads the canonical text of an expression again and compares the rules. §10.2 promises an
equivalent list. -/
def reread (expression : Expression) : Rereading :=
  match read expression.text with
  | .ok again => if again.rules = expression.rules then .same else .different
  | .error error => .refused error

end Expression

end Timetable
