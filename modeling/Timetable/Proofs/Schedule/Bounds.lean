import Mathlib.Data.List.Pairwise
import Timetable.Schedule.Basic

/-!
The bounds of a schedule are the changes of state of a day.

For a schedule that stays within its day, the state at the two ends is the state of the first and of
the last minute (`startsOpen_iff`, `endsOpen_iff`), and the first bound after a minute is the first
minute whose state differs (`nextBound?_eq_some`, `nextBound?_eq_none`). All three rest on intervals
being in order with a gap between them.
-/

namespace Timetable

/-- Of two members of a list, one comes before the other one, unless they are the same. -/
theorem eq_or_related {α : Type} {R : α → α → Prop} {members : List α} (h : members.Pairwise R)
    {a b : α} (ha : a ∈ members) (hb : b ∈ members) : a = b ∨ R a b ∨ R b a := by
  have hsymm : Std.Symm fun a b => R a b ∨ R b a := ⟨fun _ _ => Or.symm⟩
  have heither : members.Pairwise fun a b => R a b ∨ R b a := h.imp Or.inl
  by_cases heq : a = b
  · exact .inl heq
  · exact .inr (heither.forall ha hb heq)

namespace Schedule

/-- Whether no minute of the schedule belongs to the following day. -/
def WithinDay (schedule : Schedule) : Prop := ∀ minute, schedule.Contains minute → minute < 1440

theorem WithinDay.stop_le {schedule : Schedule} (h : schedule.WithinDay) :
    ∀ interval ∈ schedule.intervals, interval.stop ≤ 1440 := by
  intro interval hmem
  have hlt := interval.start_lt_stop
  have := h (interval.stop - 1) ⟨interval, hmem, by unfold Interval.Contains; omega⟩
  omega

/-- At the end of an interval, the schedule is interrupted. -/
theorem not_contains_stop {schedule : Schedule} {interval : Interval}
    (h : interval ∈ schedule.intervals) : ¬ schedule.Contains interval.stop := by
  rintro ⟨other, hother, hstart, hstop⟩
  have hlt := interval.start_lt_stop
  rcases eq_or_related schedule.separated h hother with rfl | hbefore | hafter
  · exact Nat.lt_irrefl _ hstop
  · omega
  · omega

theorem withinDay_withinDay (schedule : Schedule) : schedule.withinDay.WithinDay :=
  fun minute h => ((contains_withinDay schedule minute).1 h).2

/-- What goes on into the next day ends there, as no schedule lasts longer than two days. -/
theorem withinDay_nextDayPart (schedule : Schedule) : schedule.nextDayPart.WithinDay := by
  intro minute h
  obtain ⟨interval, -, -, hstop⟩ := (contains_nextDayPart schedule minute).1 h
  have := interval.stop_le
  omega

theorem withinDay_union {a b : Schedule} (ha : a.WithinDay) (hb : b.WithinDay) :
    (a.union b).WithinDay := by
  intro minute h
  rcases (contains_union a b minute).1 h with h | h
  · exact ha minute h
  · exact hb minute h

/-! ### The ends of the day -/

theorem startsOpen_iff (schedule : Schedule) :
    schedule.startsOpen = true ↔ schedule.Contains 0 := by
  obtain ⟨intervals, hsep⟩ := schedule
  simp only [startsOpen, Contains, Interval.Contains]
  cases intervals with
  | nil => simp
  | cons first rest =>
    simp only [List.head?_cons, beq_iff_eq]
    constructor
    · intro hstart
      have := first.start_lt_stop
      exact ⟨first, List.mem_cons_self, by omega⟩
    · rintro ⟨interval, hmem, hin⟩
      rcases List.mem_cons.1 hmem with rfl | hmem
      · omega
      · -- An interval behind the first one begins later than 00:00.
        have := (List.pairwise_cons.1 hsep).1 interval hmem
        omega

theorem endsOpen_iff {schedule : Schedule} (h : schedule.WithinDay) :
    schedule.endsOpen = true ↔ schedule.Contains 1439 := by
  have hle := h.stop_le
  obtain ⟨intervals, hsep⟩ := schedule
  simp only [endsOpen, Contains, Interval.Contains]
  rcases List.eq_nil_or_concat intervals with rfl | ⟨earlier, last, rfl⟩
  · simp
  · simp only [List.concat_eq_append, List.getLast?_append, List.getLast?_singleton, Option.some_or,
      decide_eq_true_eq] at hle hsep ⊢
    have hlast := last.start_lt_stop
    have hlastle := hle last (by simp)
    constructor
    · intro hstop
      exact ⟨last, by simp, by omega, by omega⟩
    · rintro ⟨interval, hmem, hin⟩
      rcases List.mem_append.1 hmem with hmem | hmem
      · -- Before the last interval there is a gap, which 24:00 cannot be.
        have := (List.pairwise_append.1 hsep).2.2 interval hmem last (by simp)
        omega
      · obtain rfl := List.mem_singleton.1 hmem
        omega

/-! ### The first change after a minute -/

/-- From a minute on, membership stays the same up to a later one. -/
def ConstantFrom (holds : Nat → Prop) (first last : Nat) : Prop :=
  ∀ minute, first ≤ minute → minute < last → (holds minute ↔ holds first)

/-- The first minute of the day after a given one at which membership is another. -/
structure FirstChange (holds : Nat → Prop) (first change : Nat) : Prop where
  lt : first < change
  lt_day : change < 1440
  constant : ConstantFrom holds first change
  flips : holds change ↔ ¬ holds first

/-- Only the minutes from the first one on matter. -/
theorem FirstChange.congr {holds holds' : Nat → Prop} {first change : Nat}
    (h : FirstChange holds first change)
    (heq : ∀ minute, first ≤ minute → (holds' minute ↔ holds minute)) :
    FirstChange holds' first change := by
  have hfirst := heq first (Nat.le_refl first)
  refine ⟨h.lt, h.lt_day, fun minute hle hlt => ?_, ?_⟩
  · rw [heq minute hle, hfirst]
    exact h.constant minute hle hlt
  · rw [heq change (Nat.le_of_lt h.lt), hfirst]
    exact h.flips

section FirstInterval

variable {interval : Interval} {rest : List Interval} {first : Nat}

/-- Whether a minute lies in one of some intervals. -/
def Covers (intervals : List Interval) (minute : Nat) : Prop :=
  ∃ interval ∈ intervals, interval.Contains minute

theorem covers_cons (minute : Nat) :
    Covers (interval :: rest) minute ↔ interval.Contains minute ∨ Covers rest minute := by
  simp only [Covers, List.mem_cons, exists_eq_or_imp]

/-- No later interval holds a minute up to the end of the first one. -/
theorem not_covers_of_le_stop (hgap : ∀ later ∈ rest, interval.stop < later.start) (minute : Nat)
    (h : minute ≤ interval.stop) : ¬ Covers rest minute := by
  rintro ⟨later, hmem, hin⟩
  have := hgap later hmem
  have := hin.1
  omega

theorem firstChange_start (hgap : ∀ later ∈ rest, interval.stop < later.start)
    (hday : interval.stop ≤ 1440) (h : first < interval.start) :
    FirstChange (Covers (interval :: rest)) first interval.start := by
  have hlt := interval.start_lt_stop
  have hfirst := not_covers_of_le_stop hgap first (by omega)
  refine ⟨h, by omega, fun minute hle hminute => ?_, ?_⟩
  · have := not_covers_of_le_stop hgap minute (by omega)
    simp only [covers_cons, Interval.Contains, this, hfirst, or_false]
    omega
  · have := not_covers_of_le_stop hgap interval.start (by omega)
    simp only [covers_cons, Interval.Contains, this, hfirst, or_false]
    omega

theorem firstChange_stop (hgap : ∀ later ∈ rest, interval.stop < later.start)
    (hday : interval.stop < 1440) (hstart : interval.start ≤ first) (h : first < interval.stop) :
    FirstChange (Covers (interval :: rest)) first interval.stop := by
  have hfirst := not_covers_of_le_stop hgap first (by omega)
  refine ⟨h, hday, fun minute hle hminute => ?_, ?_⟩
  · have := not_covers_of_le_stop hgap minute (by omega)
    simp only [covers_cons, Interval.Contains, this, hfirst, or_false]
    omega
  · have := not_covers_of_le_stop hgap interval.stop (Nat.le_refl _)
    simp only [covers_cons, Interval.Contains, this, hfirst, or_false]
    omega

theorem constantFrom_of_stop_eq (hgap : ∀ later ∈ rest, interval.stop < later.start)
    (hday : interval.stop = 1440) (hstart : interval.start ≤ first) (h : first < interval.stop) :
    ConstantFrom (Covers (interval :: rest)) first 1440 := by
  have hfirst := not_covers_of_le_stop hgap first (by omega)
  intro minute hle hminute
  have := not_covers_of_le_stop hgap minute (by omega)
  simp only [covers_cons, Interval.Contains, this, hfirst, or_false]
  omega

/-- After an interval that lasts to the end of the day, the later ones change nothing within it. -/
theorem not_firstChange_of_stop_eq (hgap : ∀ later ∈ rest, interval.stop < later.start)
    (hday : interval.stop = 1440) (h : first < interval.stop) (change : Nat) :
    ¬ FirstChange (Covers rest) first change := by
  intro hchange
  have hlt := hchange.lt_day
  have hfirst := not_covers_of_le_stop hgap first (by omega)
  have hthere := not_covers_of_le_stop hgap change (by omega)
  exact hthere (hchange.flips.2 hfirst)

/-- Once an interval is over, only the later ones matter. -/
theorem covers_cons_of_stop_le {minute : Nat} (h : interval.stop ≤ minute) :
    Covers (interval :: rest) minute ↔ Covers rest minute := by
  rw [covers_cons, or_iff_right]
  intro hin
  exact absurd hin.2 (by omega)

end FirstInterval

/-- Whether a bound is a change of state after a minute: 24:00 belongs to the next day. -/
def isChangeAfter (first : Nat) (time : ClockTime) : Bool :=
  decide (first < time.minutes) && time.minutes != 1440

theorem isChangeAfter_iff {first : Nat} {time : ClockTime} :
    isChangeAfter first time = true ↔ first < time.minutes ∧ time.minutes ≠ 1440 := by
  simp [isChangeAfter]

/-- The bounds of some intervals, in order. -/
def boundsOf (intervals : List Interval) : List ClockTime :=
  intervals.flatMap fun interval => [interval.startTime, interval.stopTime]

theorem find?_boundsOf {first : Nat} {intervals : List Interval}
    (hsep : intervals.Pairwise fun a b => a.stop < b.start)
    (hday : ∀ interval ∈ intervals, interval.stop ≤ 1440) :
    (∀ bound, (boundsOf intervals).find? (isChangeAfter first) = some bound →
        FirstChange (Covers intervals) first bound.minutes) ∧
      ((boundsOf intervals).find? (isChangeAfter first) = none →
        ConstantFrom (Covers intervals) first 1440) := by
  induction intervals with
  | nil => simp [boundsOf, ConstantFrom, Covers]
  | cons interval rest ih =>
    obtain ⟨hgap, hrest⟩ := List.pairwise_cons.1 hsep
    have hlt := interval.start_lt_stop
    have hstop := hday interval List.mem_cons_self
    have ih := ih hrest fun i hi => hday i (List.mem_cons_of_mem _ hi)
    have hcons : boundsOf (interval :: rest) =
        interval.startTime :: interval.stopTime :: boundsOf rest := rfl
    rw [hcons, List.find?_cons, List.find?_cons]
    by_cases hbefore : first < interval.start
    · have hhit : isChangeAfter first interval.startTime = true :=
        isChangeAfter_iff.2 ⟨hbefore, by simp only [Interval.startTime]; omega⟩
      simp only [hhit]
      refine ⟨fun bound hbound => ?_, fun hnone => ?_⟩
      · cases hbound
        exact firstChange_start hgap hstop hbefore
      · cases hnone
    · have hskip : isChangeAfter first interval.startTime = false :=
        Bool.eq_false_iff.2 fun h => hbefore (isChangeAfter_iff.1 h).1
      simp only [hskip]
      by_cases hinside : first < interval.stop
      · by_cases hend : interval.stop = 1440
        · -- The interval lasts to the end of the day, where nothing is left of the others.
          have hskip' : isChangeAfter first interval.stopTime = false :=
            Bool.eq_false_iff.2 fun h => (isChangeAfter_iff.1 h).2 hend
          simp only [hskip']
          have hnone := not_firstChange_of_stop_eq hgap hend hinside
          have hconst := constantFrom_of_stop_eq hgap hend (by omega) hinside
          exact ⟨fun bound hbound => absurd (ih.1 bound hbound) (hnone _), fun _ => hconst⟩
        · have hhit : isChangeAfter first interval.stopTime = true :=
            isChangeAfter_iff.2 ⟨hinside, hend⟩
          simp only [hhit]
          refine ⟨fun bound hbound => ?_, fun hnone => ?_⟩
          · cases hbound
            exact firstChange_stop hgap (by omega) (by omega) hinside
          · cases hnone
      · have hskip' : isChangeAfter first interval.stopTime = false :=
          Bool.eq_false_iff.2 fun h => hinside (isChangeAfter_iff.1 h).1
        simp only [hskip']
        have hpast : ∀ minute, first ≤ minute →
            (Covers (interval :: rest) minute ↔ Covers rest minute) :=
          fun minute hle => covers_cons_of_stop_le (by omega)
        refine ⟨fun bound hbound => (ih.1 bound hbound).congr hpast, ?_⟩
        intro hnone minute hle hlt'
        rw [hpast minute hle, hpast first (Nat.le_refl first)]
        exact ih.2 hnone minute hle hlt'

/-- The first change within the day after a minute. -/
def nextBound? (schedule : Schedule) (minute : Nat) : Option ClockTime :=
  schedule.innerBounds.find? fun time => minute < time.minutes

theorem nextBound?_eq_find? (schedule : Schedule) (minute : Nat) :
    schedule.nextBound? minute = (boundsOf schedule.intervals).find? (isChangeAfter minute) := by
  rw [nextBound?, innerBounds, List.find?_filter]
  refine congrArg (fun p => List.find? p _) (funext fun time => ?_)
  rw [Bool.eq_iff_iff, isChangeAfter_iff]
  simp only [Bool.and_eq_true, bne_iff_ne, decide_eq_true_eq]
  omega

/-- The first bound after a minute is the first change of state after it. -/
theorem nextBound?_eq_some {schedule : Schedule} (h : schedule.WithinDay) {first : Nat}
    {bound : ClockTime} (hbound : schedule.nextBound? first = some bound) :
    FirstChange schedule.Contains first bound.minutes :=
  (find?_boundsOf schedule.separated h.stop_le).1 bound
    (schedule.nextBound?_eq_find? first ▸ hbound)

/-- If there is no bound after a minute, the state stays the same for the rest of the day. -/
theorem nextBound?_eq_none {schedule : Schedule} (h : schedule.WithinDay) {first : Nat}
    (hbound : schedule.nextBound? first = none) :
    ConstantFrom schedule.Contains first 1440 :=
  (find?_boundsOf schedule.separated h.stop_le).2 (schedule.nextBound?_eq_find? first ▸ hbound)

end Schedule

end Timetable
