/-!
Correcting a text from left to right.

A `Correction` looks at the text from one place on and may replace its beginning. `correct` tries it
at each place in turn; what was replaced is not looked at again. `correctUntilStable` does so as
long as the text changes.
-/

namespace Timetable.Tidy

/-- Given the character before a place, if any, and the text after it: the replacement of the
beginning of that text, and the rest that stays. -/
abbrev Correction := Option Char → List Char → Option (List Char × List Char)

/-- Corrects a text from a place on, after skipping the characters that a replacement stands
for. -/
def correctFrom (correction : Correction) : Nat → Option Char → List Char → List Char
  | _, _, [] => []
  | skipped + 1, _, c :: rest => correctFrom correction skipped (some c) rest
  | 0, before, c :: rest =>
    match correction before (c :: rest) with
    | some (replacement, remaining) =>
      replacement ++ correctFrom correction (rest.length - remaining.length) (some c) rest
    | none => c :: correctFrom correction 0 (some c) rest

/-- Corrects a text at each place where the correction applies. -/
def correct (correction : Correction) (text : List Char) : List Char :=
  correctFrom correction 0 none text

/-- Corrects a text a number of times, or until it does not change. -/
def correctTimes (correction : Correction) : Nat → List Char → List Char
  | 0, text => text
  | count + 1, text =>
    let corrected := correct correction text
    if corrected = text then text else correctTimes correction count corrected

/-- Corrects a text until it does not change. Each round has to replace at least one of the
characters for good, so that there are no more rounds than characters. -/
def correctUntilStable (correction : Correction) (text : List Char) : List Char :=
  correctTimes correction text.length text

end Timetable.Tidy
