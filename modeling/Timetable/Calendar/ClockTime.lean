import Timetable.Calendar.TimeOfDay

/-!
Clock times from 00:00 to 48:00, by the minute.

The hours from 24:00 on belong to the following day: a span of time that begins in the evening may
end there.
-/

namespace Timetable

/-- A number of minutes after the midnight that begins a day, two days at most. -/
structure ClockTime where
  minutes : Nat
  minutes_le : minutes ≤ 2880 := by decide
  deriving DecidableEq

namespace ClockTime

/-- The beginning of the day, 00:00. -/
def startOfDay : ClockTime := ⟨0, by decide⟩

/-- The end of the day, 24:00. -/
def endOfDay : ClockTime := ⟨1440, by decide⟩

/-- The end of the following day, 48:00. -/
def endOfNextDay : ClockTime := ⟨2880, by decide⟩

instance : Inhabited ClockTime := ⟨startOfDay⟩

instance : LT ClockTime := ⟨fun a b => a.minutes < b.minutes⟩

instance : LE ClockTime := ⟨fun a b => a.minutes ≤ b.minutes⟩

instance (a b : ClockTime) : Decidable (a < b) :=
  inferInstanceAs (Decidable (a.minutes < b.minutes))

instance (a b : ClockTime) : Decidable (a ≤ b) :=
  inferInstanceAs (Decidable (a.minutes ≤ b.minutes))

/-- The clock time with a number of minutes, if it is not past 48:00. -/
def ofMinutes? (minutes : Nat) : Option ClockTime :=
  if h : minutes ≤ 2880 then some ⟨minutes, h⟩ else none

/-- The clock time with an hour and a minute of that hour, if it is not past 48:00. -/
def ofHourMinute? (hour minute : Nat) : Option ClockTime :=
  if minute ≤ 59 then ofMinutes? (hour * 60 + minute) else none

/-- A time of the day, seconds dropped. -/
def ofTimeOfDay (time : TimeOfDay) : ClockTime :=
  ⟨time.minutes, by have := time.minutes_lt; omega⟩

/-- Full hours. -/
def hour (time : ClockTime) : Nat := time.minutes / 60

/-- Minutes of the hour. -/
def minute (time : ClockTime) : Nat := time.minutes % 60

/-- Moves by a signed number of minutes, if the result is a clock time. -/
def shift? (time : ClockTime) (minutes : Int) : Option ClockTime :=
  if 0 ≤ time.minutes + minutes then ofMinutes? (time.minutes + minutes).toNat else none

/-- Moves by a signed number of minutes and stops at 00:00 and at 48:00. -/
def shift (time : ClockTime) (minutes : Int) : ClockTime :=
  ⟨min (time.minutes + minutes).toNat 2880, Nat.min_le_right _ _⟩

/-- Whether the time belongs to the following day. -/
def isNextDay (time : ClockTime) : Bool := endOfDay ≤ time

/-- The time of the day, which a time of the following day is not. -/
def timeOfDay? (time : ClockTime) : Option TimeOfDay :=
  if time.isNextDay then none else some (TimeOfDay.ofMinutes time.minutes)

/-- Hours and minutes, two digits each. -/
def text (time : ClockTime) : String :=
  Decimal.twoDigits time.hour ++ ":" ++ Decimal.twoDigits time.minute

theorem lt_iff {a b : ClockTime} : a < b ↔ a.minutes < b.minutes := Iff.rfl

theorem le_iff {a b : ClockTime} : a ≤ b ↔ a.minutes ≤ b.minutes := Iff.rfl

theorem ext {a b : ClockTime} (h : a.minutes = b.minutes) : a = b := by
  cases a; cases b; simp_all

theorem shift?_eq_some_iff {time moved : ClockTime} {minutes : Int} :
    time.shift? minutes = some moved ↔ (moved.minutes : Int) = time.minutes + minutes := by
  have := moved.minutes_le
  simp only [shift?, ofMinutes?]
  split
  · split
    · rw [Option.some.injEq]
      exact ⟨fun h => by rw [← h]; simp only; omega, fun h => ext (by simp only; omega)⟩
    · simp only [reduceCtorEq, false_iff]; omega
  · simp only [reduceCtorEq, false_iff]; omega

theorem minutes_shift (time : ClockTime) (minutes : Int) :
    ((time.shift minutes).minutes : Int) = max 0 (min (time.minutes + minutes) 2880) := by
  simp only [shift]
  omega

end ClockTime

end Timetable
