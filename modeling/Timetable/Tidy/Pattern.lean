import Timetable.Rule.Basic
import Timetable.Text.Characters
import Timetable.Tidy.Correction

/-!
What is tidied in the text outside of comments.

The recognisers answer with the part of the text that they recognise at its beginning, and with the
rest. The corrections are made of them, one for each habit of writing.
-/

namespace Timetable.Tidy

/-! ### Recognisers -/

/-- What is recognised at the beginning of a text, and the rest of it. -/
abbrev Recogniser := List Char → Option (List Char × List Char)

/-- A character of a class. -/
def charOf? (accepts : Char → Bool) : Recogniser
  | c :: rest => if accepts c then some ([c], rest) else none
  | [] => none

/-- A number of decimal digits, of any script. -/
def digits? (count : Nat) : Recogniser := fun text =>
  if (text.take count).length = count ∧ (text.take count).all isDecimalDigit then
    some (text.take count, text.drop count)
  else none

/-- One or two decimal digits, two if there are as many. -/
def hourDigits? : Recogniser := fun text => (digits? 2 text).or (digits? 1 text)

/-- A given word. -/
def word? (word : String) : Recogniser := fun text =>
  if word.toList.isPrefixOf text then some (word.toList, text.drop word.length) else none

/-- One recogniser after another. -/
def both? (first second : Recogniser) : Recogniser := fun text => do
  let (a, rest) ← first text
  let (b, rest) ← second rest
  return (a ++ b, rest)

/-- The first of several recognisers that applies. -/
def anyOf? (recognisers : List Recogniser) : Recogniser := fun text =>
  recognisers.findSome? fun recogniser => recogniser text

/-- A clock time with two digits on both sides of the colon. -/
def clock? : Recogniser := both? (digits? 2) (both? (charOf? (· == ':')) (digits? 2))

/-- Whether a character is a small letter or one that case folding takes to it: the capital letter,
the long s for s, and the Kelvin sign for k. -/
def foldsTo (letter c : Char) : Bool :=
  c.toLower == letter || (letter == 's' && c == 'ſ') || (letter == 'k' && c.toNat == 0x212A)

/-- A word in small letters, in whatever case the text has it. -/
def foldedWord? (word : String) : Recogniser := fun text =>
  let front := text.take word.length
  if front.length = word.length ∧
      (word.toList.zip front).all (fun pair => foldsTo pair.1 pair.2) then
    some (front, text.drop word.length)
  else none

/-- The words for the events of the sun. -/
def eventWords : List String := ["sunrise", "sunset", "dawn", "dusk"]

/-- What a span may begin with, up to its last character: a clock time, an event or the closing
parenthesis of an event that is moved. -/
def beginning? (event? : String → Recogniser) : Recogniser :=
  anyOf? ([clock?] ++ eventWords.map event? ++ [charOf? (· == ')')])

/-- What a span may end with, from its first character on. -/
def ending? (event? : String → Recogniser) : Recogniser :=
  anyOf? ([clock?] ++ eventWords.map event? ++ [charOf? (· == '(')])

/-- Whether a character is a small ASCII letter. -/
def isSmallLetter (c : Char) : Bool := 'a' ≤ c && c ≤ 'z'

/-- At least one small letter. -/
def smallLetters? : Recogniser := fun text =>
  let letters := text.takeWhile isSmallLetter
  if letters.isEmpty then none else some (letters, text.dropWhile isSmallLetter)

/-- An event that is moved, without any blank. -/
def movedEvent? : Recogniser :=
  both? (charOf? (· == '(')) (both? smallLetters?
    (both? (charOf? fun c => c == '+' || c == '-') (both? clock? (charOf? (· == ')')))))

/-- The whole end of a span. -/
def wholeEnding? : Recogniser := anyOf? ([clock?] ++ eventWords.map word? ++ [movedEvent?])

/-! ### Corrections -/

/-- Several blanks become one space. -/
def collapseBlanks : Correction := fun _ text =>
  match text with
  | c :: rest => if isBlank c then some ([' '], rest.dropWhile isBlank) else none
  | [] => none

/-- Blanks around a comma are dropped. -/
def tightenComma : Correction := fun _ text =>
  match text.dropWhile isBlank with
  | ',' :: rest => some ([','], rest.dropWhile isBlank)
  | _ => none

/-- Whether a character is the letter for hours. -/
def isHourLetter (c : Char) : Bool := c == 'h' || c == 'H'

/-- An hour and minutes with the letter for hours between them get a colon instead. -/
def hourLetterInside : Correction := fun before text => do
  guard (!isWordChar? before)
  let (hour, rest) ← hourDigits? text
  let (_, rest) ← charOf? isHourLetter rest
  let (minute, rest) ← digits? 2 rest
  guard (!isWordChar? rest.head?)
  return (hour ++ ':' :: minute, rest)

/-- An hour with the letter for hours after it becomes a full hour. -/
def hourLetterAfter : Correction := fun before text => do
  guard (!isWordChar? before)
  let (hour, rest) ← hourDigits? text
  let (_, rest) ← charOf? isHourLetter rest
  guard (!isWordChar? rest.head?)
  return (hour ++ [':', '0', '0'], rest)

/-- An hour of one digit gets a zero before it. -/
def padHour : Correction := fun before text => do
  guard (!isWordChar? before)
  let (hour, rest) ← digits? 1 text
  let (_, rest) ← charOf? (· == ':') rest
  let (minute, rest) ← digits? 2 rest
  return ('0' :: hour ++ ':' :: minute, rest)

/-- Blanks around the hyphen of a span are dropped. -/
def tightenHyphen : Correction := fun _ text => do
  let (left, rest) ← beginning? foldedWord? text
  let (_, rest) ← charOf? (· == '-') (rest.dropWhile isBlank)
  let (right, rest) ← ending? foldedWord? (rest.dropWhile isBlank)
  return (left ++ '-' :: right, rest)

/-- A span that ends with the beginning of the day ends with the end of the day instead. -/
def endAtMidnight : Correction := fun _ text => do
  let (clock, rest) ← clock? text
  let (_, rest) ← word? "-00:00" rest
  guard (!isWordChar? rest.head?)
  return (clock ++ "-24:00".toList, rest)

/-- Whether a character is an ASCII letter. -/
def isLetter (c : Char) : Bool := isSmallLetter c || ('A' ≤ c && c ≤ 'Z')

/-- The keyword that a word is in another case, or the word itself. -/
def canonicalWord (word : List Char) : List Char :=
  match keywords.find? fun keyword => keyword.toList.map Char.toLower == word.map Char.toLower with
  | some keyword => keyword.toList
  | none => word

/-- Words get their canonical case. -/
def canonicalCase : Correction := fun _ text =>
  let word := text.takeWhile isLetter
  if word.isEmpty then none else some (canonicalWord word, text.dropWhile isLetter)

/-- A space between two spans becomes a comma. -/
def joinSpans : Correction := fun _ text => do
  let (first, rest) ← beginning? word? text
  let (_, rest) ← charOf? (· == '-') rest
  let (last, rest) ← wholeEnding? rest
  let (_, rest) ← charOf? (· == ' ') rest
  let (next, rest) ← ending? word? rest
  return (first ++ '-' :: last ++ ',' :: next, rest)

end Timetable.Tidy
