import Mathlib.Data.List.Sort
import Timetable.Proofs.Schedule.Canonical

/-!
Schedules as an algebra of sets of minutes.

Every schedule is a list of non-empty intervals with a gap before each next one (`InOrder`), and
each operation is determined by the minutes that its result contains. As two schedules with the same
minutes are equal, the laws of sets hold as equalities of schedules (`setAlgebra`).

Adding intervals one by one is one way to come to this form. Sorting them by their beginning, in
whatever order where beginnings are equal, and joining neighbours is another, and gives the same
(`joinSorted_eq_intervals`).
-/

namespace Timetable

namespace Schedule

/-! ### Sorting and joining -/

/-- Joins an interval with the intervals behind it as long as there is no gap, and goes on with the
first one behind a gap. -/
def joinFrom (current : Interval) : List Interval → List Interval
  | [] => [current]
  | next :: rest =>
    if next.start ≤ current.stop then joinFrom (current.join next) rest
    else current :: joinFrom next rest

/-- Joins neighbours in a list that is sorted by the beginnings of the intervals. -/
def joinSorted : List Interval → List Interval
  | [] => []
  | first :: rest => joinFrom first rest

/-- The intervals begin one after the other, or together. -/
def SortedByStart (intervals : List Interval) : Prop :=
  intervals.Pairwise fun a b => a.start ≤ b.start

section Join

variable {current next : Interval} {rest : List Interval}

/-- A join begins with the first of two sorted intervals, and so takes its place. -/
theorem SortedByStart.join (h : SortedByStart (current :: next :: rest)) :
    SortedByStart (current.join next :: rest) := by
  obtain ⟨hfirst, htail⟩ := List.pairwise_cons.1 h
  refine List.pairwise_cons.2 ⟨fun later hmem => ?_, (List.pairwise_cons.1 htail).2⟩
  exact Nat.le_trans (Nat.min_le_left _ _) (hfirst later (List.mem_cons_of_mem _ hmem))

theorem covers_joinFrom (h : SortedByStart (current :: rest)) (minute : Nat) :
    Covers (joinFrom current rest) minute ↔ Covers (current :: rest) minute := by
  induction rest generalizing current with
  | nil => exact Iff.rfl
  | cons next rest ih =>
    have hstart := (List.pairwise_cons.1 h).1 next List.mem_cons_self
    have hlt := next.start_lt_stop
    rw [joinFrom]
    split
    · rename_i htouch
      rw [ih h.join, covers_cons, Interval.contains_join (by omega) htouch, or_assoc,
        covers_cons, covers_cons]
    · have htail := ih (List.pairwise_cons.1 h).2
      exact (covers_cons minute).trans ((or_congr_right htail).trans (covers_cons minute).symm)

theorem start_le_of_mem_joinFrom (h : SortedByStart (current :: rest)) :
    ∀ interval ∈ joinFrom current rest, current.start ≤ interval.start := by
  induction rest generalizing current with
  | nil =>
    intro interval hmem
    rw [joinFrom, List.mem_singleton] at hmem
    exact hmem ▸ Nat.le_refl _
  | cons next rest ih =>
    have hstart := (List.pairwise_cons.1 h).1 next List.mem_cons_self
    intro interval hmem
    rw [joinFrom] at hmem
    split at hmem
    · have hjoin : (current.join next).start = current.start := Nat.min_eq_left hstart
      exact hjoin ▸ ih h.join interval hmem
    · rcases List.mem_cons.1 hmem with rfl | hmem
      · exact Nat.le_refl _
      · exact Nat.le_trans hstart (ih (List.pairwise_cons.1 h).2 interval hmem)

theorem separated_joinFrom (h : SortedByStart (current :: rest)) :
    (joinFrom current rest).Pairwise fun a b => a.stop < b.start := by
  induction rest generalizing current with
  | nil => exact List.pairwise_singleton _ _
  | cons next rest ih =>
    rw [joinFrom]
    split
    · exact ih h.join
    · rename_i hgap
      have htail := (List.pairwise_cons.1 h).2
      refine List.pairwise_cons.2 ⟨fun interval hmem => ?_, ih htail⟩
      exact Nat.lt_of_lt_of_le (Nat.lt_of_not_le hgap) (start_le_of_mem_joinFrom htail _ hmem)

end Join

/-- Sorted intervals that are joined are the intervals of the schedule. -/
theorem joinSorted_eq_intervals {sorted intervals : List Interval} (hperm : sorted.Perm intervals)
    (hsorted : SortedByStart sorted) : joinSorted sorted = (ofIntervals intervals).intervals := by
  have hcovers : ∀ minute, (ofIntervals intervals).Contains minute ↔ Covers sorted minute := by
    intro minute
    rw [contains_ofIntervals]
    exact exists_congr fun interval => and_congr_left fun _ => hperm.mem_iff.symm
  cases sorted with
  | nil =>
    exact eq_of_covers_iff List.Pairwise.nil (ofIntervals intervals).separated
      fun minute => (hcovers minute).symm
  | cons first rest =>
    exact eq_of_covers_iff (separated_joinFrom hsorted) (ofIntervals intervals).separated
      fun minute => (covers_joinFrom hsorted minute).trans (hcovers minute).symm

/-- The ranges that are not empty, sorted and joined, are the schedule of the ranges. -/
theorem intervals_ofRanges (ranges : List (ClockTime × ClockTime)) :
    (ofRanges ranges).intervals =
      joinSorted ((ranges.filterMap fun range => Interval.ofClock? range.1 range.2).mergeSort
        fun a b => decide (a.start ≤ b.start)) := by
  have htrans : ∀ a b c : Interval, decide (a.start ≤ b.start) = true →
      decide (b.start ≤ c.start) = true → decide (a.start ≤ c.start) = true := fun _ _ _ hab hbc =>
    decide_eq_true (Nat.le_trans (of_decide_eq_true hab) (of_decide_eq_true hbc))
  have htotal : ∀ a b : Interval,
      (decide (a.start ≤ b.start) || decide (b.start ≤ a.start)) = true :=
    fun a b => by simpa using Nat.le_total a.start b.start
  have hpairwise := List.pairwise_mergeSort htrans htotal
    (ranges.filterMap fun range => Interval.ofClock? range.1 range.2)
  exact (joinSorted_eq_intervals (List.mergeSort_perm _ _)
    (hpairwise.imp of_decide_eq_true)).symm

/-- To add a schedule is to put the intervals of both together. -/
theorem union_eq_ofIntervals (a b : Schedule) :
    a.union b = ofIntervals (a.intervals ++ b.intervals) := by
  refine ext_contains fun minute => ?_
  rw [contains_union, contains_ofIntervals]
  simp only [List.mem_append, or_and_right, exists_or]
  rfl

/-! ### Sets of minutes -/

/-- The intervals are not empty, stay within two days, and each one ends before the next begins. -/
def InOrder (schedule : Schedule) : Prop :=
  (∀ interval ∈ schedule.intervals, interval.start < interval.stop ∧ interval.stop ≤ 2880) ∧
    schedule.intervals.Pairwise fun a b => a.stop < b.start

theorem inOrder (schedule : Schedule) : schedule.InOrder :=
  ⟨fun interval _ => ⟨interval.start_lt_stop, interval.stop_le⟩, schedule.separated⟩

/-- A pair of bounds holds the minutes from the first one to the second. -/
theorem contains_ofRanges (ranges : List (ClockTime × ClockTime)) (minute : Nat) :
    (ofRanges ranges).Contains minute ↔
      ∃ range ∈ ranges, range.1.minutes ≤ minute ∧ minute < range.2.minutes := by
  rw [ofRanges, contains_ofIntervals]
  simp only [List.mem_filterMap]
  constructor
  · rintro ⟨interval, ⟨range, hmem, hrange⟩, hin⟩
    exact ⟨range, hmem, (Interval.exists_between?_iff range.2.minutes_le).1 ⟨interval, hrange, hin⟩⟩
  · rintro ⟨range, hmem, hin⟩
    obtain ⟨interval, hrange, hin⟩ := (Interval.exists_between?_iff range.2.minutes_le).2 hin
    exact ⟨interval, ⟨range, hmem, hrange⟩, hin⟩

theorem eq_iff_contains {a b : Schedule} :
    a = b ↔ ∀ minute, a.Contains minute ↔ b.Contains minute :=
  ⟨fun h _ => h ▸ Iff.rfl, ext_contains⟩

theorem union_comm (a b : Schedule) : a.union b = b.union a :=
  ext_contains fun minute => by
    rw [contains_union, contains_union, or_comm]

theorem union_assoc (a b c : Schedule) : (a.union b).union c = a.union (b.union c) :=
  ext_contains fun minute => by
    rw [contains_union, contains_union, contains_union, contains_union, or_assoc]

theorem union_self (a : Schedule) : a.union a = a :=
  ext_contains fun minute => by
    rw [contains_union, or_self]

/-- To remove one schedule after the other is to remove both together. -/
theorem diff_diff (a b c : Schedule) : (a.diff b).diff c = a.diff (b.union c) :=
  ext_contains fun minute => by
    rw [contains_diff, contains_diff, contains_diff, contains_union, not_or, and_assoc]

/-- Schedules are the sets of minutes of two days, each in the one form that it has: from ranges,
by addition and by removal, cut to bounds or to one of the days. Hence addition is commutative,
associative and idempotent, and to remove twice is to remove what was added. -/
theorem setAlgebra :
    (∀ ranges, (ofRanges ranges).InOrder ∧ ∀ minute, (ofRanges ranges).Contains minute ↔
      ∃ range ∈ ranges, range.1.minutes ≤ minute ∧ minute < range.2.minutes) ∧
    (∀ a b : Schedule, (a.union b).InOrder ∧ ∀ minute, (a.union b).Contains minute ↔
      a.Contains minute ∨ b.Contains minute) ∧
    (∀ a b : Schedule, (a.diff b).InOrder ∧ ∀ minute, (a.diff b).Contains minute ↔
      a.Contains minute ∧ ¬ b.Contains minute) ∧
    (∀ (a : Schedule) (start stop : Nat), (a.clip start stop).InOrder ∧
      ∀ minute, (a.clip start stop).Contains minute ↔
        a.Contains minute ∧ start ≤ minute ∧ minute < stop) ∧
    (∀ a : Schedule, a.withinDay.InOrder ∧ ∀ minute, a.withinDay.Contains minute ↔
      a.Contains minute ∧ minute < 1440) ∧
    (∀ a : Schedule, a.nextDayPart.InOrder ∧ ∀ minute, a.nextDayPart.Contains minute ↔
      minute < 1440 ∧ a.Contains (minute + 1440)) ∧
    (∀ a b : Schedule, a = b ↔ ∀ minute, a.Contains minute ↔ b.Contains minute) ∧
    (∀ a b : Schedule, a.union b = b.union a) ∧
    (∀ a b c : Schedule, (a.union b).union c = a.union (b.union c)) ∧
    (∀ a : Schedule, a.union a = a) ∧
    ∀ a b c : Schedule, (a.diff b).diff c = a.diff (b.union c) := by
  have hnext (a : Schedule) (minute : Nat) :
      a.nextDayPart.Contains minute ↔ minute < 1440 ∧ a.Contains (minute + 1440) :=
    ⟨fun h => ⟨withinDay_nextDayPart a minute h, (contains_nextDayPart a minute).1 h⟩,
      fun h => (contains_nextDayPart a minute).2 h.2⟩
  exact ⟨fun ranges => ⟨inOrder _, contains_ofRanges ranges⟩,
    fun a b => ⟨inOrder _, contains_union a b⟩,
    fun a b => ⟨inOrder _, contains_diff a b⟩,
    fun a start stop => ⟨inOrder _, contains_clip a start stop⟩,
    fun a => ⟨inOrder _, contains_withinDay a⟩,
    fun a => ⟨inOrder _, hnext a⟩,
    fun _ _ => eq_iff_contains, union_comm, union_assoc, union_self, diff_diff⟩

end Schedule

end Timetable
