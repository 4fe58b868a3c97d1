import Timetable.Calendar.ClockTime

/-!
Half-open intervals of minutes within two days.

An interval contains its first minute and not its last bound, and it is never empty: an operation
that may leave nothing answers with an `Option`. Each operation is stated by the minutes that its
result contains.
-/

namespace Timetable

/-- The minutes from `start` to `stop`, the latter excluded. -/
structure Interval where
  start : Nat
  stop : Nat
  start_lt_stop : start < stop
  stop_le : stop ≤ 2880

namespace Interval

/-- Whether a minute lies in the interval. -/
def Contains (interval : Interval) (minute : Nat) : Prop :=
  interval.start ≤ minute ∧ minute < interval.stop

instance (interval : Interval) (minute : Nat) : Decidable (interval.Contains minute) :=
  inferInstanceAs (Decidable (_ ∧ _))

/-- The interval between two bounds, if there is a minute between them. -/
def between? (start stop : Nat) : Option Interval :=
  if h : start < stop ∧ stop ≤ 2880 then some ⟨start, stop, h.1, h.2⟩ else none

/-- The interval between two clock times, if the first is before the second. -/
def ofClock? (start stop : ClockTime) : Option Interval := between? start.minutes stop.minutes

/-- The smallest interval that covers two others. -/
def join (a b : Interval) : Interval :=
  ⟨min a.start b.start, max a.stop b.stop,
    by have := a.start_lt_stop; omega,
    by have := a.stop_le; have := b.stop_le; omega⟩

/-- The part of an interval between two bounds. -/
def clip? (interval : Interval) (start stop : Nat) : Option Interval :=
  between? (max interval.start start) (min interval.stop stop)

/-- What is left of an interval before and after another one. -/
def without (interval removed : Interval) : List Interval :=
  (between? interval.start (min interval.stop removed.start)).toList ++
    (between? (max interval.start removed.stop) interval.stop).toList

/-- The part of an interval after 24:00, counted from there. -/
def nextDay? (interval : Interval) : Option Interval :=
  between? (max interval.start 1440 - 1440) (interval.stop - 1440)

/-- The clock time at which the interval begins. -/
def startTime (interval : Interval) : ClockTime :=
  ⟨interval.start, by have := interval.start_lt_stop; have := interval.stop_le; omega⟩

/-- The clock time at which the interval ends. -/
def stopTime (interval : Interval) : ClockTime := ⟨interval.stop, interval.stop_le⟩

theorem ext {a b : Interval} (hstart : a.start = b.start) (hstop : a.stop = b.stop) : a = b := by
  cases a; cases b; simp_all

instance : DecidableEq Interval := fun a b =>
  decidable_of_iff (a.start = b.start ∧ a.stop = b.stop)
    ⟨fun h => Interval.ext h.1 h.2, fun h => h ▸ ⟨rfl, rfl⟩⟩

theorem between?_eq_some_iff {start stop : Nat} {interval : Interval} :
    between? start stop = some interval ↔ interval.start = start ∧ interval.stop = stop := by
  have := interval.start_lt_stop
  have := interval.stop_le
  simp only [between?]
  split
  · rw [Option.some.injEq]
    exact ⟨fun h => by rw [← h]; exact ⟨rfl, rfl⟩, fun h => ext h.1.symm h.2.symm⟩
  · simp only [reduceCtorEq, false_iff]; omega

/-- An interval between two bounds contains the minutes from the one to the other. -/
theorem exists_between?_iff {start stop minute : Nat} (h : stop ≤ 2880) :
    (∃ interval, between? start stop = some interval ∧ interval.Contains minute) ↔
      start ≤ minute ∧ minute < stop := by
  constructor
  · rintro ⟨interval, hbetween, hin⟩
    obtain ⟨rfl, rfl⟩ := between?_eq_some_iff.1 hbetween
    exact hin
  · intro hin
    exact ⟨⟨start, stop, by omega, h⟩, between?_eq_some_iff.2 ⟨rfl, rfl⟩, hin⟩

theorem contains_join {a b : Interval} (hab : a.start ≤ b.stop) (hba : b.start ≤ a.stop)
    (minute : Nat) : (a.join b).Contains minute ↔ a.Contains minute ∨ b.Contains minute := by
  simp only [join, Contains]
  omega

theorem contains_clip? (interval : Interval) (start stop minute : Nat) :
    (∃ part, interval.clip? start stop = some part ∧ part.Contains minute) ↔
      interval.Contains minute ∧ start ≤ minute ∧ minute < stop := by
  have := interval.stop_le
  rw [clip?, exists_between?_iff (by omega)]
  simp only [Contains]
  omega

theorem contains_without (interval removed : Interval) (minute : Nat) :
    (∃ part ∈ interval.without removed, part.Contains minute) ↔
      interval.Contains minute ∧ ¬ removed.Contains minute := by
  have := interval.stop_le
  have := removed.start_lt_stop
  simp only [without, List.mem_append, Option.mem_toList, or_and_right, exists_or]
  rw [exists_between?_iff (by omega), exists_between?_iff (by omega)]
  simp only [Contains]
  omega

theorem contains_nextDay? (interval : Interval) (minute : Nat) :
    (∃ part, interval.nextDay? = some part ∧ part.Contains minute) ↔
      interval.Contains (minute + 1440) := by
  have := interval.stop_le
  rw [nextDay?, exists_between?_iff (by omega)]
  simp only [Contains]
  omega

end Interval

end Timetable
