import Timetable.Rule.Moment
import Timetable.Rule.Selector

/-!
Rules and expressions.

An expression is a list of rules, in an order that matters: a rule overrides the rules before it on
the dates that it speaks of, except that an additional rule changes the result of the rule that it
follows.

Sections (§), here and in what follows, are those of the specification of the language and of its
evaluation, and names beside them are those that it has for the operation or for the data.
-/

namespace Timetable

/-- What a rule says of its spans (`RuleKind`, §3). -/
inductive RuleKind where
  | opened
  | closed
  /-- The state is not known, or a comment describes it. -/
  | unknown
  deriving DecidableEq, Repr, Inhabited

/-- A clause of an expression (`Rule`, §3). -/
structure Rule where
  selector : Selector := {}
  spans : List TimeSpan := []
  kind : RuleKind := .closed
  comment : Option String := none
  /-- Whether the rule adds to the rule before it, instead of overriding it. -/
  additional : Bool := false
  deriving DecidableEq

namespace Rule

/-- The rule in force where no rule matches. -/
def alwaysClosed : Rule := {}

instance : Inhabited Rule := ⟨alwaysClosed⟩

/-- Whether the rule opens all day, every day. -/
def isAlwaysOpen (rule : Rule) : Bool :=
  rule.kind == .opened && !rule.additional && rule.selector.isEveryDay &&
    rule.spans == [.wholeDay]

/-- The events of the sun that the spans depend on, in the order of the day. -/
def solarEvents (rule : Rule) : List SolarEvent :=
  SolarEvent.all.filter fun event => rule.spans.any (TimeSpan.mentions event)

/-- Whether a span depends on the sun. -/
def isSolar (rule : Rule) : Bool := rule.spans.any TimeSpan.isSolar

/-- Selector and spans, where the whole day without selector has a form of its own. -/
def bodyWords (rule : Rule) : List String :=
  if rule.selector.isEmpty && rule.spans == [.wholeDay] then ["24/7"]
  else
    (if rule.selector.isEmpty then [] else [rule.selector.text]) ++
      if rule.spans.isEmpty then [] else [String.intercalate "," (rule.spans.map TimeSpan.text)]

/-- The word for the kind: nothing for an open rule, nor where a comment alone says it all. -/
def kindWords (rule : Rule) : List String :=
  match rule.kind with
  | .opened => []
  | .closed => ["off"]
  | .unknown => if rule.comment.isNone || !rule.spans.isEmpty then ["unknown"] else []

/-- The comment between double quotes. -/
def commentWords (rule : Rule) : List String :=
  match rule.comment with
  | some comment => ["\"" ++ comment ++ "\""]
  | none => []

/-- The rule as an expression writes it. -/
def text (rule : Rule) : String :=
  String.intercalate " " (rule.bodyWords ++ rule.kindWords ++ rule.commentWords)

/-- The text of the rule if it is nothing but a comment: it has no date, no time and no state. -/
def loneComment? (rule : Rule) : Option String :=
  if rule.kind == .unknown && rule.selector.isEmpty && rule.spans.isEmpty then rule.comment
  else none

end Rule

/-- An opening hours expression: its rules, and the text that they were read from. This is the
`Field` of §3. -/
structure Expression where
  /-- The text as it was given. -/
  given : String
  /-- The text that was read, which may have been tidied before. -/
  source : String
  rules : List Rule
  deriving DecidableEq, Inhabited

namespace Expression

/-- Rules one after the other: a semicolon before a rule that overrides, a comma before one that
adds. -/
def rulesText : List Rule → String
  | [] => ""
  | first :: rest =>
    first.text ++ String.join (rest.map fun rule =>
      (if rule.additional then ", " else "; ") ++ rule.text)

/-- The canonical text of the expression. -/
def text (expression : Expression) : String := rulesText expression.rules

/-- Whether the only rule opens all day, every day. -/
def isAlwaysOpen (expression : Expression) : Bool :=
  match expression.rules with
  | [rule] => rule.isAlwaysOpen
  | _ => false

/-- The events of the sun that the rules depend on, in the order of the day. -/
def solarEvents (expression : Expression) : List SolarEvent :=
  SolarEvent.all.filter fun event =>
    expression.rules.any fun rule => rule.spans.any (TimeSpan.mentions event)

/-- The text of the only rule if it is nothing but a comment. -/
def loneComment? (expression : Expression) : Option String :=
  match expression.rules with
  | [rule] => rule.loneComment?
  | _ => none

/-- Whether a kind of holidays is a time of opening: the last rule that names it decides. This is
`holidays_status` of §10.5. -/
def holidayStatus? (expression : Expression) (kind : Holiday) : Option Bool :=
  (expression.rules.reverse.find? fun rule => rule.selector.mentionsHoliday kind).map
    fun rule => rule.kind == .opened

end Expression

/-- The words that have a meaning in an expression. -/
def keywords : List String :=
  ["Mo", "Tu", "We", "Th", "Fr", "Sa", "Su",
    "Jan", "Feb", "Mar", "Apr", "May", "Jun", "Jul", "Aug", "Sep", "Oct", "Nov", "Dec",
    "PH", "SH", "dawn", "sunrise", "sunset", "dusk", "easter", "week",
    "open", "off", "closed", "unknown"]

end Timetable
