import Timetable.Calendar.Instant

/-!
Instants in order, and their dates.

Instants are compared by their stamps; here they are compared by their dates and then by their
times, so that an instant lies on a date if it lies between two midnights (`Date.midnight_le_iff`,
`Date.lt_midnight_iff`), and before a minute of its date if its own minute does
(`Date.lt_atMinute_iff`).
-/

namespace Timetable

theorem Instant.le_refl (instant : Instant) : instant ≤ instant := Int.le_refl _

theorem Instant.lt_irrefl (instant : Instant) : ¬ instant < instant := Int.lt_irrefl _

theorem Instant.lt_iff_date_time {a b : Instant} :
    a < b ↔ a.date < b.date ∨ a.date = b.date ∧ a.time.nanos < b.time.nanos := by
  have ha := a.time.nanos_lt
  have hb := b.time.nanos_lt
  rw [Instant.lt_iff, Instant.stamp, Instant.stamp, Date.lt_iff]
  constructor
  · intro h
    by_cases hdate : a.date.number < b.date.number
    · exact .inl hdate
    · exact .inr ⟨Date.ext (by omega), by omega⟩
  · rintro (h | ⟨hdate, h⟩)
    · omega
    · rw [hdate]
      omega

theorem Instant.date_le_of_le {a b : Instant} (h : a ≤ b) : a.date ≤ b.date := by
  have ha := a.time.nanos_lt
  have hb := b.time.nanos_lt
  rw [Instant.le_iff, Instant.stamp, Instant.stamp] at h
  rw [Date.le_iff]
  omega

@[simp] theorem Date.stamp_midnight (date : Date) :
    date.midnight.stamp = date.number * 86400000000000 := by
  simp [Instant.stamp, Date.midnight, TimeOfDay.midnight]

theorem Date.midnight_le_iff {date : Date} {instant : Instant} :
    date.midnight ≤ instant ↔ date ≤ instant.date := by
  have := instant.time.nanos_lt
  rw [Instant.le_iff, Date.le_iff, Instant.stamp, Instant.stamp, Date.midnight, TimeOfDay.midnight]
  dsimp only
  omega

theorem Date.lt_midnight_iff {date : Date} {instant : Instant} :
    instant < date.midnight ↔ instant.date < date := by
  have hmidnight := @Date.midnight_le_iff date instant
  rw [Instant.le_iff, Date.le_iff] at hmidnight
  rw [Instant.lt_iff, Date.lt_iff]
  omega

theorem Date.le_lastInstant_iff {date : Date} {instant : Instant} :
    instant ≤ date.lastInstant ↔ instant.date ≤ date := by
  have := instant.time.nanos_lt
  rw [Instant.le_iff, Date.le_iff, Instant.stamp, Instant.stamp, Date.lastInstant, TimeOfDay.last]
  dsimp only
  omega

/-! ### Minutes of a date -/

/-- The instant at which a minute of a date begins. -/
def Date.atMinute (date : Date) (minute : Nat) : Instant := ⟨date, TimeOfDay.ofMinutes minute⟩

theorem Date.minutes_atMinute (date : Date) {minute : Nat} (h : minute < 1440) :
    (date.atMinute minute).clockTime.minutes = minute := by
  change (TimeOfDay.ofMinutes minute).minutes = minute
  rw [TimeOfDay.minutes_ofMinutes, Nat.mod_eq_of_lt h]

theorem Date.at?_eq_atMinute (date : Date) {time : ClockTime} (h : time.minutes < 1440) :
    date.at? time = some (date.atMinute time.minutes) := by
  have hday : date.number + ((time.minutes / 1440 : Nat) : Int) = date.number := by omega
  rw [Date.at?, hday, Date.ofNumber?_number]
  rfl

/-- An instant of a date comes before the beginning of a minute if its own minute does. -/
theorem Date.lt_atMinute_iff {date : Date} {minute : Nat} {instant : Instant} (h : minute < 1440)
    (hdate : instant.date = date) :
    instant < date.atMinute minute ↔ instant.clockTime.minutes < minute := by
  rw [Instant.lt_iff_date_time, hdate]
  simp only [Date.atMinute, TimeOfDay.ofMinutes, Date.lt_iff, Nat.mod_eq_of_lt h, Int.lt_irrefl,
    true_and, false_or]
  change _ ↔ instant.time.nanos / 60000000000 < minute
  omega

end Timetable
