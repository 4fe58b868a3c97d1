/-!
The seven days of the week, counted from Monday, and their two-letter names.
-/

namespace Timetable

/-- A day of the week. -/
inductive Weekday where
  | monday | tuesday | wednesday | thursday | friday | saturday | sunday
  deriving DecidableEq, Repr, Inhabited

namespace Weekday

/-- The days in the order of the week. -/
def all : List Weekday := [monday, tuesday, wednesday, thursday, friday, saturday, sunday]

/-- Days since Monday. -/
def index : Weekday → Nat
  | monday => 0 | tuesday => 1 | wednesday => 2 | thursday => 3
  | friday => 4 | saturday => 5 | sunday => 6

/-- The day a number of days after a Monday. -/
def ofIndex (n : Nat) : Weekday :=
  match n % 7 with
  | 0 => monday | 1 => tuesday | 2 => wednesday | 3 => thursday
  | 4 => friday | 5 => saturday | _ => sunday

/-- The English name cut to two letters. -/
def abbreviation : Weekday → String
  | monday => "Mo" | tuesday => "Tu" | wednesday => "We" | thursday => "Th"
  | friday => "Fr" | saturday => "Sa" | sunday => "Su"

/-- Reads an abbreviation, in its exact case. -/
def ofAbbreviation? (name : String) : Option Weekday :=
  all.find? fun day => day.abbreviation == name

theorem ofIndex_index (day : Weekday) : ofIndex day.index = day := by
  cases day <;> rfl

theorem ofAbbreviation?_abbreviation (day : Weekday) :
    ofAbbreviation? day.abbreviation = some day := by
  cases day <;> decide

theorem index_lt (day : Weekday) : day.index < 7 := by cases day <;> decide

theorem index_ofIndex (n : Nat) : (ofIndex n).index = n % 7 := by
  have h : n % 7 = 0 ∨ n % 7 = 1 ∨ n % 7 = 2 ∨ n % 7 = 3 ∨ n % 7 = 4 ∨ n % 7 = 5 ∨ n % 7 = 6 := by
    omega
  rcases h with h | h | h | h | h | h | h <;> simp [ofIndex, index, h]

end Weekday

end Timetable
