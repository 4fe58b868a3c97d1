import Timetable.Calendar.Date
import Timetable.Calendar.ClockTime

/-!
Instants: a date and a time of that day. They are ordered by the nanoseconds that have passed
since the beginning of year 1.
-/

namespace Timetable

/-- A date with a time of the day, as a local clock shows them. -/
structure Instant where
  date : Date
  time : TimeOfDay
  deriving DecidableEq, Inhabited

namespace Instant

/-- Nanoseconds since the beginning of year 1. -/
def stamp (instant : Instant) : Int := instant.date.number * 86400000000000 + instant.time.nanos

instance : LT Instant := ⟨fun a b => a.stamp < b.stamp⟩

instance : LE Instant := ⟨fun a b => a.stamp ≤ b.stamp⟩

instance (a b : Instant) : Decidable (a < b) := inferInstanceAs (Decidable (a.stamp < b.stamp))

instance (a b : Instant) : Decidable (a ≤ b) := inferInstanceAs (Decidable (a.stamp ≤ b.stamp))

/-- The later of two instants. -/
def later (a b : Instant) : Instant := if a ≤ b then b else a

/-- The earlier of two instants. -/
def earlier (a b : Instant) : Instant := if a ≤ b then a else b

/-- Nanoseconds from one instant to another. -/
def durationTo (a b : Instant) : Int := b.stamp - a.stamp

/-- The minute of the day that holds the instant. -/
def clockTime (instant : Instant) : ClockTime := ClockTime.ofTimeOfDay instant.time

/-- Date and time, with a separator between them. -/
def textWith (separator : String) (instant : Instant) : String :=
  instant.date.text ++ separator ++ instant.time.text

theorem lt_iff {a b : Instant} : a < b ↔ a.stamp < b.stamp := Iff.rfl

theorem le_iff {a b : Instant} : a ≤ b ↔ a.stamp ≤ b.stamp := Iff.rfl

theorem stamp_injective {a b : Instant} (h : a.stamp = b.stamp) : a = b := by
  obtain ⟨d, t⟩ := a
  obtain ⟨e, u⟩ := b
  have := t.nanos_lt
  have := u.nanos_lt
  simp only [stamp] at h
  have hd : d = e := Date.ext (by omega)
  subst hd
  have ht : t.nanos = u.nanos := by omega
  cases t; cases u; simp_all

end Instant

namespace Date

/-- The first instant of a date. -/
def midnight (date : Date) : Instant := ⟨date, TimeOfDay.midnight⟩

/-- The last instant of a date (the sentinel of §10.5). -/
def lastInstant (date : Date) : Instant := ⟨date, TimeOfDay.last⟩

/-- The instant at which a clock that was set at the beginning of a date shows a time. From 24:00
on it lies on a later date, which the end of the calendar may lack. -/
def at? (date : Date) (time : ClockTime) : Option Instant :=
  (ofNumber? (date.number + (time.minutes / 1440 : Nat))).map fun day =>
    ⟨day, TimeOfDay.ofMinutes time.minutes⟩

theorem stamp_at? {date : Date} {time : ClockTime} {instant : Instant}
    (h : date.at? time = some instant) :
    instant.stamp = date.midnight.stamp + time.minutes * 60000000000 := by
  obtain ⟨day, hday, rfl⟩ := Option.map_eq_some_iff.1 h
  have := number_ofNumber? hday
  simp only [Instant.stamp, midnight, TimeOfDay.midnight, TimeOfDay.ofMinutes]
  omega

end Date

end Timetable
