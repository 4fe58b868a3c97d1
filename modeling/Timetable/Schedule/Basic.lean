import Timetable.Schedule.Interval

/-!
Schedules: sets of minutes of a day and of the day that follows.

A schedule is a list of intervals in increasing order, with at least one minute missing between an
interval and the next. Each bound is thus a change of state, and a set of minutes is written in one
way only. The operations are those of sets, and their statements say which minutes the result
contains.
-/

namespace Timetable

/-- A set of minutes, as intervals in order that neither overlap nor touch (`Schedule`, §10.5). -/
structure Schedule where
  intervals : List Interval
  separated : intervals.Pairwise fun a b => a.stop < b.start
  deriving DecidableEq

namespace Schedule

/-- Whether a minute belongs to the schedule. -/
def Contains (schedule : Schedule) (minute : Nat) : Prop :=
  ∃ interval ∈ schedule.intervals, interval.Contains minute

instance (schedule : Schedule) (minute : Nat) : Decidable (schedule.Contains minute) :=
  inferInstanceAs (Decidable (∃ interval ∈ schedule.intervals, interval.Contains minute))

/-- The schedule without any minute. -/
def empty : Schedule := ⟨[], List.Pairwise.nil⟩

instance : Inhabited Schedule := ⟨empty⟩

/-! ### Adding minutes -/

/-- Adds an interval to intervals in order, joining it with those that it overlaps or touches. -/
def insertInto (added : Interval) : List Interval → List Interval
  | [] => [added]
  | first :: rest =>
    if added.stop < first.start then added :: first :: rest
    else if first.stop < added.start then first :: insertInto added rest
    else insertInto (added.join first) rest

theorem lt_start_of_mem_insertInto {bound : Nat} :
    ∀ {intervals : List Interval} {added : Interval}, bound < added.start →
      (∀ interval ∈ intervals, bound < interval.start) →
      ∀ interval ∈ insertInto added intervals, bound < interval.start
  | [], added, hadded, _, interval, hmem => by
    rw [insertInto, List.mem_singleton] at hmem
    exact hmem ▸ hadded
  | first :: rest, added, hadded, hall, interval, hmem => by
    have hfirst := hall first List.mem_cons_self
    have hrest : ∀ interval ∈ rest, bound < interval.start :=
      fun i hi => hall i (List.mem_cons_of_mem _ hi)
    rw [insertInto] at hmem
    split at hmem
    · rcases List.mem_cons.1 hmem with rfl | hmem
      · exact hadded
      · exact hall _ hmem
    · split at hmem
      · rcases List.mem_cons.1 hmem with rfl | hmem
        · exact hfirst
        · exact lt_start_of_mem_insertInto hadded hrest _ hmem
      · exact lt_start_of_mem_insertInto (Nat.lt_min.2 ⟨hadded, hfirst⟩) hrest _ hmem

theorem separated_insertInto :
    ∀ {intervals : List Interval} (added : Interval),
      intervals.Pairwise (fun a b => a.stop < b.start) →
      (insertInto added intervals).Pairwise fun a b => a.stop < b.start
  | [], _, _ => List.pairwise_singleton _ _
  | first :: rest, added, hsep => by
    obtain ⟨hfirst, hrest⟩ := List.pairwise_cons.1 hsep
    have hlt := first.start_lt_stop
    rw [insertInto]
    split
    · rename_i hbefore
      refine List.pairwise_cons.2 ⟨fun interval hmem => ?_, hsep⟩
      rcases List.mem_cons.1 hmem with rfl | hmem
      · exact hbefore
      · have := hfirst _ hmem
        omega
    · split
      · rename_i hafter
        exact List.pairwise_cons.2
          ⟨lt_start_of_mem_insertInto hafter hfirst, separated_insertInto added hrest⟩
      · exact separated_insertInto _ hrest

theorem contains_insertInto (minute : Nat) :
    ∀ (intervals : List Interval) (added : Interval),
      (∃ interval ∈ insertInto added intervals, interval.Contains minute) ↔
        added.Contains minute ∨ ∃ interval ∈ intervals, interval.Contains minute
  | [], added => by simp [insertInto]
  | first :: rest, added => by
    have hfirst := first.start_lt_stop
    have hadded := added.start_lt_stop
    rw [insertInto]
    split
    · simp
    · split
      · simp only [List.mem_cons, exists_eq_or_imp, contains_insertInto minute rest]
        exact or_left_comm
      · rw [contains_insertInto minute rest,
          Interval.contains_join (by omega) (by omega)]
        simp only [List.mem_cons, exists_eq_or_imp, or_assoc]

/-- Adds an interval. -/
def insert (schedule : Schedule) (added : Interval) : Schedule :=
  ⟨insertInto added schedule.intervals, separated_insertInto added schedule.separated⟩

/-- The minutes of any of the intervals, which may overlap and come in any order. -/
def ofIntervals (intervals : List Interval) : Schedule := intervals.foldl insert empty

/-- The minutes between any of the pairs of bounds; a pair in the wrong order holds none. -/
def ofRanges (ranges : List (ClockTime × ClockTime)) : Schedule :=
  ofIntervals (ranges.filterMap fun range => Interval.ofClock? range.1 range.2)

/-- The minutes of either schedule. -/
def union (a b : Schedule) : Schedule := b.intervals.foldl insert a

theorem contains_insert (schedule : Schedule) (added : Interval) (minute : Nat) :
    (schedule.insert added).Contains minute ↔
      added.Contains minute ∨ schedule.Contains minute :=
  contains_insertInto minute schedule.intervals added

theorem contains_foldl_insert (minute : Nat) :
    ∀ (intervals : List Interval) (schedule : Schedule),
      (intervals.foldl insert schedule).Contains minute ↔
        schedule.Contains minute ∨ ∃ interval ∈ intervals, interval.Contains minute
  | [], schedule => by simp
  | first :: rest, schedule => by
    rw [List.foldl_cons, contains_foldl_insert minute rest, contains_insert]
    simp only [List.mem_cons, exists_eq_or_imp]
    rw [or_comm (a := first.Contains minute), or_assoc]

theorem not_contains_empty (minute : Nat) : ¬ empty.Contains minute := by
  rintro ⟨_, hmem, _⟩
  cases hmem

theorem contains_ofIntervals (intervals : List Interval) (minute : Nat) :
    (ofIntervals intervals).Contains minute ↔
      ∃ interval ∈ intervals, interval.Contains minute := by
  rw [ofIntervals, contains_foldl_insert]
  simp [not_contains_empty]

theorem contains_union (a b : Schedule) (minute : Nat) :
    (a.union b).Contains minute ↔ a.Contains minute ∨ b.Contains minute :=
  contains_foldl_insert minute b.intervals a

/-! ### Removing minutes -/

theorem start_le_of_mem_without {interval removed part : Interval}
    (h : part ∈ interval.without removed) :
    interval.start ≤ part.start ∧ part.stop ≤ interval.stop := by
  simp only [Interval.without, List.mem_append, Option.mem_toList,
    Interval.between?_eq_some_iff] at h
  omega

theorem separated_without {intervals : List Interval} (removed : Interval)
    (h : intervals.Pairwise fun a b => a.stop < b.start) :
    (intervals.flatMap fun interval => interval.without removed).Pairwise
      fun a b => a.stop < b.start := by
  have hremoved := removed.start_lt_stop
  rw [List.pairwise_flatMap]
  refine ⟨fun interval _ => ?_, h.imp fun {a b} hab x hx y hy => ?_⟩
  · rw [Interval.without, List.pairwise_append]
    refine ⟨?_, ?_, fun x hx y hy => ?_⟩
    · cases Interval.between? interval.start (min interval.stop removed.start) <;> simp
    · cases Interval.between? (max interval.start removed.stop) interval.stop <;> simp
    · simp only [Option.mem_toList, Interval.between?_eq_some_iff] at hx hy
      omega
  · have := start_le_of_mem_without hx
    have := start_le_of_mem_without hy
    omega

/-- Removes the minutes of an interval. -/
def erase (schedule : Schedule) (removed : Interval) : Schedule :=
  ⟨schedule.intervals.flatMap fun interval => interval.without removed,
    separated_without removed schedule.separated⟩

/-- The minutes of the first schedule that the second does not contain. -/
def diff (a b : Schedule) : Schedule := b.intervals.foldl erase a

theorem contains_erase (schedule : Schedule) (removed : Interval) (minute : Nat) :
    (schedule.erase removed).Contains minute ↔
      schedule.Contains minute ∧ ¬ removed.Contains minute := by
  simp only [Contains, erase, List.mem_flatMap]
  constructor
  · rintro ⟨part, ⟨interval, hmem, hpart⟩, hin⟩
    have := (Interval.contains_without interval removed minute).1 ⟨part, hpart, hin⟩
    exact ⟨⟨interval, hmem, this.1⟩, this.2⟩
  · rintro ⟨⟨interval, hmem, hin⟩, hout⟩
    obtain ⟨part, hpart, hin⟩ :=
      (Interval.contains_without interval removed minute).2 ⟨hin, hout⟩
    exact ⟨part, ⟨interval, hmem, hpart⟩, hin⟩

theorem contains_foldl_erase (minute : Nat) :
    ∀ (intervals : List Interval) (schedule : Schedule),
      (intervals.foldl erase schedule).Contains minute ↔
        schedule.Contains minute ∧ ¬ ∃ interval ∈ intervals, interval.Contains minute
  | [], schedule => by simp
  | first :: rest, schedule => by
    rw [List.foldl_cons, contains_foldl_erase minute rest, contains_erase]
    simp only [List.mem_cons, exists_eq_or_imp, not_or, and_assoc]

theorem contains_diff (a b : Schedule) (minute : Nat) :
    (a.diff b).Contains minute ↔ a.Contains minute ∧ ¬ b.Contains minute :=
  contains_foldl_erase minute b.intervals a

/-! ### Parts of a schedule -/

theorem separated_filterMap {intervals : List Interval} {part? : Interval → Option Interval}
    (h : intervals.Pairwise fun a b => a.stop < b.start)
    (hpart : ∀ {a b x y : Interval}, a.stop < b.start → part? a = some x → part? b = some y →
      x.stop < y.start) :
    (intervals.filterMap part?).Pairwise fun a b => a.stop < b.start := by
  rw [List.pairwise_filterMap]
  exact h.imp fun hab x hx y hy => hpart hab hx hy

/-- The minutes between two bounds. -/
def clip (schedule : Schedule) (start stop : Nat) : Schedule :=
  ⟨schedule.intervals.filterMap fun interval => interval.clip? start stop,
    separated_filterMap schedule.separated fun {a b x y} hab hx hy => by
      have := Interval.between?_eq_some_iff.1 hx
      have := Interval.between?_eq_some_iff.1 hy
      omega⟩

/-- The minutes before 24:00. -/
def withinDay (schedule : Schedule) : Schedule := schedule.clip 0 1440

/-- The minutes from 24:00 on, counted from there. -/
def nextDayPart (schedule : Schedule) : Schedule :=
  ⟨schedule.intervals.filterMap Interval.nextDay?,
    separated_filterMap schedule.separated fun {a b x y} hab hx hy => by
      have := Interval.between?_eq_some_iff.1 hx
      have := Interval.between?_eq_some_iff.1 hy
      have := x.start_lt_stop
      omega⟩

theorem contains_filterMap {intervals : List Interval} {part? : Interval → Option Interval}
    (minute : Nat) :
    (∃ part ∈ intervals.filterMap part?, part.Contains minute) ↔
      ∃ interval ∈ intervals, ∃ part, part? interval = some part ∧ part.Contains minute := by
  simp only [List.mem_filterMap]
  exact ⟨fun ⟨part, ⟨i, hi, hpart⟩, hin⟩ => ⟨i, hi, part, hpart, hin⟩,
    fun ⟨i, hi, part, hpart, hin⟩ => ⟨part, ⟨i, hi, hpart⟩, hin⟩⟩

theorem contains_clip (schedule : Schedule) (start stop minute : Nat) :
    (schedule.clip start stop).Contains minute ↔
      schedule.Contains minute ∧ start ≤ minute ∧ minute < stop := by
  simp only [Contains, clip, contains_filterMap, Interval.contains_clip?]
  exact ⟨fun ⟨i, hi, hin, hbounds⟩ => ⟨⟨i, hi, hin⟩, hbounds⟩,
    fun ⟨⟨i, hi, hin⟩, hbounds⟩ => ⟨i, hi, hin, hbounds⟩⟩

theorem contains_withinDay (schedule : Schedule) (minute : Nat) :
    schedule.withinDay.Contains minute ↔ schedule.Contains minute ∧ minute < 1440 := by
  rw [withinDay, contains_clip]
  simp

theorem contains_nextDayPart (schedule : Schedule) (minute : Nat) :
    schedule.nextDayPart.Contains minute ↔ schedule.Contains (minute + 1440) := by
  simp only [Contains, nextDayPart, contains_filterMap, Interval.contains_nextDay?]

/-! ### The state at the ends of the day -/

/-- Whether the schedule has no minute. -/
def isEmpty (schedule : Schedule) : Bool := schedule.intervals.isEmpty

/-- Whether the first minute of the day belongs to the schedule. -/
def startsOpen (schedule : Schedule) : Bool :=
  match schedule.intervals.head? with
  | some first => first.start == 0
  | none => false

/-- Whether the schedule lasts until 24:00 or longer. -/
def endsOpen (schedule : Schedule) : Bool :=
  match schedule.intervals.getLast? with
  | some last => 1440 ≤ last.stop
  | none => false

/-- The times at which the state changes, in order, except the two midnights of the day. -/
def innerBounds (schedule : Schedule) : List ClockTime :=
  (schedule.intervals.flatMap fun interval => [interval.startTime, interval.stopTime]).filter
    fun time => time.minutes != 0 && time.minutes != 1440

end Schedule

end Timetable
