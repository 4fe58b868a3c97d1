import Timetable.Text.Decimal

/-!
Times of a day, to the nanosecond.
-/

namespace Timetable

/-- A time of a day, in nanoseconds after midnight. -/
structure TimeOfDay where
  nanos : Nat
  nanos_lt : nanos < 86400000000000 := by decide
  deriving DecidableEq

namespace TimeOfDay

/-- The first instant of a day. -/
def midnight : TimeOfDay := ⟨0, by decide⟩

/-- The last instant of a day. -/
def last : TimeOfDay := ⟨86399999999999, by decide⟩

instance : Inhabited TimeOfDay := ⟨midnight⟩

/-- The time with a number of nanoseconds after midnight, if the day lasts that long. -/
def ofNanos? (nanos : Nat) : Option TimeOfDay :=
  if h : nanos < 86400000000000 then some ⟨nanos, h⟩ else none

/-- The time with an hour, a minute, a second and a fraction of it in nanoseconds. -/
def ofParts? (hour minute second fraction : Nat) : Option TimeOfDay :=
  if hour < 24 ∧ minute < 60 ∧ second < 60 ∧ fraction < 1000000000 then
    ofNanos? (((hour * 60 + minute) * 60 + second) * 1000000000 + fraction)
  else none

/-- The time a number of whole minutes after midnight, hours over 24 being dropped. -/
def ofMinutes (minutes : Nat) : TimeOfDay :=
  ⟨minutes % 1440 * 60000000000, by
    have := Nat.mod_lt minutes (show 1440 > 0 by decide)
    omega⟩

/-- Whole minutes after midnight; seconds are dropped. -/
def minutes (time : TimeOfDay) : Nat := time.nanos / 60000000000

theorem minutes_lt (time : TimeOfDay) : time.minutes < 1440 := by
  have := time.nanos_lt
  simp only [minutes]
  omega

theorem minutes_ofMinutes (minutes : Nat) : (ofMinutes minutes).minutes = minutes % 1440 := by
  simp only [ofMinutes, TimeOfDay.minutes]
  omega

/-- A fraction of a second: nothing if it is zero, else a point and the fewest of three, six or
nine digits that write it exactly. -/
def fractionText (nanos : Nat) : String :=
  if nanos = 0 then ""
  else if nanos % 1000000 = 0 then "." ++ Decimal.padded 3 (nanos / 1000000)
  else if nanos % 1000 = 0 then "." ++ Decimal.padded 6 (nanos / 1000)
  else "." ++ Decimal.padded 9 nanos

/-- Hours, minutes and seconds, and a fraction of a second if there is one. -/
def text (time : TimeOfDay) : String :=
  let seconds := time.nanos / 1000000000
  Decimal.twoDigits (seconds / 3600) ++ ":" ++ Decimal.twoDigits (seconds / 60 % 60) ++ ":" ++
    Decimal.twoDigits (seconds % 60) ++ fractionText (time.nanos % 1000000000)

end TimeOfDay

end Timetable
