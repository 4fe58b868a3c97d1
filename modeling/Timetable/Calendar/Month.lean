/-!
The twelve months: their numbers, their three-letter names and their lengths.

`Month.ofDayOfYear` finds the month that holds a day of the year, counted from zero. The months
of a year follow each other without a gap (`Month.daysBefore_next`), so that this day belongs to
exactly one of them.
-/

namespace Timetable

/-- A month of the year. -/
inductive Month where
  | january | february | march | april | may | june
  | july | august | september | october | november | december
  deriving DecidableEq, Repr, Inhabited

namespace Month

/-- The months in calendar order. -/
def all : List Month :=
  [january, february, march, april, may, june,
    july, august, september, october, november, december]

/-- January is 1 and December is 12. -/
def number : Month → Nat
  | january => 1 | february => 2 | march => 3 | april => 4 | may => 5 | june => 6
  | july => 7 | august => 8 | september => 9 | october => 10 | november => 11 | december => 12

/-- The month with a number, if it is one of 1 to 12. -/
def ofNumber? (n : Nat) : Option Month :=
  all.find? fun month => month.number == n

/-- The English name cut to three letters. -/
def abbreviation : Month → String
  | january => "Jan" | february => "Feb" | march => "Mar" | april => "Apr" | may => "May"
  | june => "Jun" | july => "Jul" | august => "Aug" | september => "Sep" | october => "Oct"
  | november => "Nov" | december => "Dec"

/-- Reads an abbreviation, in its exact case. -/
def ofAbbreviation? (name : String) : Option Month :=
  all.find? fun month => month.abbreviation == name

/-- The month after this one; January follows December. -/
def next : Month → Month
  | january => february | february => march | march => april | april => may | may => june
  | june => july | july => august | august => september | september => october
  | october => november | november => december | december => january

/-- The number of days of the month, given whether the year is a leap year. -/
def length (leap : Bool) : Month → Nat
  | january => 31 | february => if leap then 29 else 28 | march => 31 | april => 30 | may => 31
  | june => 30 | july => 31 | august => 31 | september => 30 | october => 31 | november => 30
  | december => 31

/-- The number of days of the year before the month begins. -/
def daysBefore (leap : Bool) : Month → Nat
  | january => 0
  | february => 31
  | march => if leap then 60 else 59
  | april => if leap then 91 else 90
  | may => if leap then 121 else 120
  | june => if leap then 152 else 151
  | july => if leap then 182 else 181
  | august => if leap then 213 else 212
  | september => if leap then 244 else 243
  | october => if leap then 274 else 273
  | november => if leap then 305 else 304
  | december => if leap then 335 else 334

/-- The month that holds a day of the year, the first day being 0: the last month that has begun. -/
def ofDayOfYear (leap : Bool) (day : Nat) : Month :=
  (all.reverse.find? fun month => month.daysBefore leap ≤ day).getD january

theorem daysBefore_next {leap : Bool} {month : Month} (h : month ≠ december) :
    month.next.daysBefore leap = month.daysBefore leap + month.length leap := by
  cases month <;> cases leap <;> simp_all [next, daysBefore, length]

theorem ofNumber?_number (month : Month) : ofNumber? month.number = some month := by
  cases month <;> rfl

theorem ofAbbreviation?_abbreviation (month : Month) :
    ofAbbreviation? month.abbreviation = some month := by
  cases month <;> decide

theorem one_le_number (month : Month) : 1 ≤ month.number := by cases month <;> decide

theorem number_le (month : Month) : month.number ≤ 12 := by cases month <;> decide

theorem number_injective {a b : Month} (h : a.number = b.number) : a = b := by
  have := ofNumber?_number a
  rw [h, ofNumber?_number b] at this
  exact (Option.some.inj this).symm

end Month

end Timetable
