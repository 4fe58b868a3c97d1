import Timetable.Tidy.Pattern

/-!
Tidying a text that was written by hand, so that more of it can be read.

Wrong case, the letter for hours, blanks around hyphens and commas, and the like are put right; what
stands between double quotes is a comment and stays as it is, save that blanks are collapsed.
-/

namespace Timetable.Tidy

/-- Texts between semicolons. A semicolon between double quotes does not count. The first argument
says whether the text begins between quotes and the second one holds, in reverse, what it
continues. -/
def splitAfter : Bool → List Char → List Char → List (List Char)
  | _, current, [] => [current.reverse]
  | quoted, current, c :: rest =>
    if c = '"' then splitAfter (!quoted) (c :: current) rest
    else if c = ';' && !quoted then current.reverse :: splitAfter quoted [] rest
    else splitAfter quoted (c :: current) rest

/-- The rules of a text, trimmed; those without any text are dropped. -/
def splitRules (text : List Char) : List (List Char) :=
  ((splitAfter false [] text).map trimBlanks).filter (!·.isEmpty)

/-- A stretch of a rule: plain text, or a comment with its quotes. -/
inductive Piece where
  | plain (text : List Char)
  | quoted (text : List Char)
  deriving DecidableEq

/-- The stretches of a rule in order. A comment that is not closed runs to the end. The first
argument says whether the text begins between quotes and the second one holds, in reverse, what it
continues. -/
def piecesAfter : Bool → List Char → List Char → List Piece
  | true, current, [] => [.quoted current.reverse]
  | false, current, [] => [.plain current.reverse]
  | quoted, current, c :: rest =>
    if c = '"' then
      if quoted then .quoted (c :: current).reverse :: piecesAfter false [] rest
      else .plain current.reverse :: piecesAfter true [c] rest
    else piecesAfter quoted (c :: current) rest

/-- Tidies text without any comment. The order matters: an hour gets its colon before it is padded,
and a span is tightened before its end is looked at. -/
def tidyPlain (text : List Char) : List Char :=
  let text := correct tightenComma text
  let text := correct hourLetterInside text
  let text := correct hourLetterAfter text
  let text := correct padHour text
  let text := correct tightenHyphen text
  let text := correctUntilStable endAtMidnight text
  let text := correct canonicalCase text
  correctUntilStable joinSpans text

/-- The stretch after tidying: a comment does not change. -/
def Piece.tidy : Piece → List Char
  | plain text => tidyPlain text
  | quoted text => text

/-- Ways to write that a place is always open: 24, 24 h, 24 hours, 24/7. -/
def saysAlwaysOpen (text : List Char) : Bool :=
  match word? "24" text with
  | none => false
  | some (_, rest) =>
    let rest := if rest.head? = some ' ' then rest.tail else rest
    rest.isEmpty || ["h", "hour", "hours", "/7"].any fun unit =>
      foldedWord? unit rest == some (rest, [])

/-- Tidies one rule. -/
def tidyRule (rule : List Char) : List Char :=
  let collapsed := correct collapseBlanks rule
  if saysAlwaysOpen collapsed then "24/7".toList
  else trimBlanks ((piecesAfter false [] collapsed).flatMap Piece.tidy)

/-- Tidies a text, rule by rule. -/
def tidyChars (text : List Char) : List Char :=
  List.intercalate [';', ' '] (((splitRules text).map tidyRule).filter (!·.isEmpty))

/-- Tidies a text (`normalize`, §10.3). -/
def tidy (text : String) : String := String.ofList (tidyChars text.toList)

end Timetable.Tidy
