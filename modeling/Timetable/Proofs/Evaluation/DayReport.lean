import Mathlib.Data.Nat.Count
import Mathlib.Order.Interval.Finset.Nat
import Timetable.Proofs.Evaluation.Coverage

/-!
The report of a day and the state at the minutes of the day.

A report is made of periods, and the state at an instant is asked of minutes. Periods of whole
minutes that come one after the other are as long as there are minutes in them
(`Period.foldl_duration`), and the periods of a date hold the minutes at which the place is open
(`Agenda.cover_periodsOf_atMinute`). On the last date of the calendar they lack the minutes of an
interval that lasts until 24:00, as no period can end there.
-/

namespace Timetable

variable {Zone : Type}

namespace Period

variable {date : Date} {period : Period} {periods : List Period} {first last minute : Nat}

instance (period : Period) (instant : Instant) : Decidable (period.Contains instant) :=
  inferInstanceAs (Decidable (_ ∧ _))

instance (periods : List Period) (instant : Instant) : Decidable (Cover periods instant) :=
  inferInstanceAs (Decidable (∃ period ∈ periods, period.Contains instant))

/-! ### Periods of whole minutes -/

namespace Lasts

theorem start_lt_stop (h : period.Lasts date first last) : period.start < period.stop := by
  have hlt := h.lt
  rw [Instant.lt_iff, h.stamp_start, h.stamp_stop]
  omega

theorem duration_eq (h : period.Lasts date first last) :
    period.duration = ((last - first : Nat) : Int) * 60000000000 := by
  have hlt := h.lt
  rw [duration, Instant.durationTo, h.stamp_start, h.stamp_stop]
  omega

theorem contains_atMinute_iff (h : period.Lasts date first last) (hminute : minute < 1440) :
    period.Contains (date.atMinute minute) ↔ first ≤ minute ∧ minute < last := by
  have htime : (⟨minute, by omega⟩ : ClockTime).minutes < 1440 := hminute
  have hstamp := Date.stamp_at? (Date.at?_eq_atMinute date htime)
  dsimp only at hstamp
  rw [Contains, Instant.le_iff, Instant.lt_iff, h.stamp_start, h.stamp_stop, hstamp]
  omega

end Lasts

/-- The minutes of a period come before those of the later ones, so that each is counted once. -/
theorem count_cover_cons (h : period.Lasts date first last) (hle : last ≤ 1440)
    (hlater : ∀ later ∈ periods, period.stop ≤ later.start) :
    Nat.count (fun minute => Cover (period :: periods) (date.atMinute minute)) 1440 =
      (last - first) + Nat.count (fun minute => Cover periods (date.atMinute minute)) 1440 := by
  have hsplit : (Finset.range 1440).filter
        (fun minute => Cover (period :: periods) (date.atMinute minute)) =
      Finset.Ico first last ∪
        (Finset.range 1440).filter fun minute => Cover periods (date.atMinute minute) := by
    ext minute
    rw [Finset.mem_union, Finset.mem_filter, Finset.mem_filter, Finset.mem_range, Finset.mem_Ico,
      cover_cons]
    constructor
    · rintro ⟨hminute, hhere | hthere⟩
      · exact .inl ((h.contains_atMinute_iff hminute).1 hhere)
      · exact .inr ⟨hminute, hthere⟩
    · rintro (hhere | ⟨hminute, hthere⟩)
      · have hminute : minute < 1440 := by omega
        exact ⟨hminute, .inl ((h.contains_atMinute_iff hminute).2 hhere)⟩
      · exact ⟨hminute, .inr hthere⟩
  have hdisjoint : Disjoint (Finset.Ico first last)
      ((Finset.range 1440).filter fun minute => Cover periods (date.atMinute minute)) := by
    refine Finset.disjoint_left.2 fun minute hhere hthere => ?_
    obtain ⟨hrange, later, hmem, hstart, -⟩ := Finset.mem_filter.1 hthere
    have hminute := Finset.mem_range.1 hrange
    have hin := (h.contains_atMinute_iff hminute).2 (Finset.mem_Ico.1 hhere)
    exact Instant.lt_irrefl _ (Int.lt_of_lt_of_le hin.2 (Int.le_trans (hlater later hmem) hstart))
  rw [Nat.count_eq_card_filter_range, Nat.count_eq_card_filter_range, hsplit,
    Finset.card_union_of_disjoint hdisjoint, Nat.card_Ico]

/-- Each period lasts from one minute of a date until another one, or until 24:00. -/
def WholeMinutes (date : Date) (periods : List Period) : Prop :=
  ∀ period ∈ periods, ∃ first last, last ≤ 1440 ∧ period.Lasts date first last

/-- Periods one after the other are as long as there are minutes in them. -/
theorem foldl_duration (hordered : periods.Pairwise fun a b => a.stop ≤ b.start)
    (hminutes : WholeMinutes date periods) (total : Int) :
    periods.foldl (fun total period => total + period.duration) total =
      total + (Nat.count (fun minute => Cover periods (date.atMinute minute)) 1440 : Nat) *
        60000000000 := by
  induction periods generalizing total with
  | nil =>
    have hnone : Nat.count (fun minute => Cover [] (date.atMinute minute)) 1440 = 0 :=
      Nat.count_of_forall_not fun _ _ ⟨_, hmem, _⟩ => List.not_mem_nil hmem
    rw [hnone]
    exact (Int.add_zero total).symm
  | cons period periods ih =>
    obtain ⟨hlater, hordered⟩ := List.pairwise_cons.1 hordered
    obtain ⟨⟨first, last, hle, hlasts⟩, hminutes⟩ := List.forall_mem_cons.1 hminutes
    rw [List.foldl_cons, ih hordered hminutes, count_cover_cons hlasts hle hlater,
      hlasts.duration_eq, Int.natCast_add, Int.add_mul, Int.add_assoc]

/-- There is a period just if there is a minute in one. -/
theorem ne_nil_iff_exists_cover (hminutes : WholeMinutes date periods) :
    periods ≠ [] ↔ ∃ minute < 1440, Cover periods (date.atMinute minute) := by
  constructor
  · intro hne
    obtain ⟨period, hmem⟩ := List.exists_mem_of_ne_nil _ hne
    obtain ⟨first, last, hle, hlasts⟩ := hminutes period hmem
    have hlt := hlasts.lt
    have hfirst : first < 1440 := by omega
    exact ⟨first, hfirst, period, hmem,
      (hlasts.contains_atMinute_iff hfirst).2 ⟨Nat.le_refl _, hlt⟩⟩
  · rintro ⟨minute, -, period, hmem, -⟩ rfl
    cases hmem

end Period

namespace Agenda

open Period

variable {agenda : Agenda} {hours : SolarHours Zone} {date : Date} {schedule : Schedule}
  {minute : Nat}

/-! ### The minutes of a date -/

/-- No period lasts until 24:00 of the last date. -/
theorem stop_lt_or_next {period : Period} {first last : Nat} (h : period.Lasts date first last)
    (hle : last ≤ 1440) : last < 1440 ∨ date.next? ≠ none := by
  by_cases hlast : last < 1440
  · exact .inl hlast
  · refine .inr fun hnone => ?_
    have hnumber := Date.next?_eq_none_iff.1 hnone
    have hstop := h.stamp_stop
    have hbound := period.stop.date.le_last
    have hnanos := period.stop.time.nanos_lt
    rw [Instant.stamp, Date.stamp_midnight] at hstop
    omega

theorem wholeMinutes_periodsOf (hday : schedule.WithinDay) :
    WholeMinutes date (periodsOf date schedule) := by
  intro period hmem
  obtain ⟨interval, hinterval, hlasts⟩ := mem_periodsOf hmem
  exact ⟨_, _, hday.stop_le interval hinterval, hlasts⟩

theorem inOrder_periodsOf (date : Date) (schedule : Schedule) :
    InOrder (periodsOf date schedule) where
  nonempty period hmem := by
    obtain ⟨interval, -, hlasts⟩ := mem_periodsOf hmem
    exact hlasts.start_lt_stop
  ordered := (apart_periodsOf date schedule).imp Int.le_of_lt

/-- The periods of a date hold the minutes of its schedule; on the last date, those that are not
followed by a minute without are left out. -/
theorem cover_periodsOf_atMinute (hday : schedule.WithinDay) (hminute : minute < 1440) :
    Cover (periodsOf date schedule) (date.atMinute minute) ↔ schedule.Contains minute ∧
      (date.next? = none → ∃ later < 1440, minute < later ∧ ¬ schedule.Contains later) := by
  constructor
  · rintro ⟨period, hmem, hin⟩
    obtain ⟨interval, hinterval, hlasts⟩ := mem_periodsOf hmem
    have hin := (hlasts.contains_atMinute_iff hminute).1 hin
    refine ⟨⟨interval, hinterval, hin⟩, fun hnone => ⟨interval.stop, ?_, hin.2, ?_⟩⟩
    · exact (stop_lt_or_next hlasts (hday.stop_le interval hinterval)).resolve_right
        fun hnext => hnext hnone
    · exact Schedule.not_contains_stop hinterval
  · rintro ⟨⟨interval, hinterval, hin⟩, hlater⟩
    have hend : interval.stop < 1440 ∨ date.next? ≠ none := by
      by_cases hnone : date.next? = none
      · obtain ⟨later, hlt, hafter, hout⟩ := hlater hnone
        refine .inl (Nat.lt_of_not_le fun hle => hout ⟨interval, hinterval, ?_, ?_⟩)
        · exact Nat.le_of_lt (Nat.lt_of_le_of_lt hin.1 hafter)
        · exact Nat.lt_of_lt_of_le hlt hle
      · exact .inr hnone
    obtain ⟨period, hmem, hlasts⟩ := exists_mem_periodsOf hday hinterval hend
    exact ⟨period, hmem, (hlasts.contains_atMinute_iff hminute).2 hin⟩

theorem stateAt_atMinute (h : agenda.scheduleOn hours date = .ok schedule)
    (hminute : minute < 1440) :
    agenda.stateAt hours (date.atMinute minute) = .ok (decide (schedule.Contains minute)) := by
  have hdate : agenda.scheduleOn hours (date.atMinute minute).date = .ok schedule := h
  rw [stateAt_of_scheduleOn hdate, Date.minutes_atMinute date hminute]

/-! ### The report -/

/-- The place is open at a minute of a date, and there is an instant at which what is open then can
end. The last date has no 24:00, so that the place has to close on that date once more. -/
def ReportsOpen (agenda : Agenda) (hours : SolarHours Zone) (date : Date) (minute : Nat) : Prop :=
  agenda.stateAt hours (date.atMinute minute) = .ok true ∧
    (date.next? = none →
      ∃ later < 1440, minute < later ∧ agenda.stateAt hours (date.atMinute later) = .ok false)

instance (agenda : Agenda) (hours : SolarHours Zone) (date : Date) :
    DecidablePred (agenda.ReportsOpen hours date) :=
  fun _ => inferInstanceAs (Decidable (_ ∧ _))

/-- The report of a date agrees with the state at its minutes. On all dates but the last one these
are the minutes at which the place is open. -/
structure AgreesWithState (agenda : Agenda) (hours : SolarHours Zone) (date : Date)
    (report : DayReport) : Prop where
  inOrder : InOrder report.periods
  opens_iff : report.opens = true ↔ ∃ minute < 1440, agenda.ReportsOpen hours date minute
  totalDuration_eq :
    report.totalDuration = (Nat.count (agenda.ReportsOpen hours date) 1440 : Nat) * 60000000000
  reportsOpen_iff : date.next? ≠ none → ∀ minute,
    agenda.ReportsOpen hours date minute ↔ agenda.stateAt hours (date.atMinute minute) = .ok true

theorem reportsOpen_iff_cover (h : agenda.scheduleOn hours date = .ok schedule)
    (hminute : minute < 1440) : agenda.ReportsOpen hours date minute ↔
      Cover (periodsOf date schedule) (date.atMinute minute) := by
  have hstate : ∀ {minute : Nat}, minute < 1440 → ∀ opened : Bool,
      agenda.stateAt hours (date.atMinute minute) = .ok opened ↔
        decide (schedule.Contains minute) = opened := by
    intro minute hminute opened
    rw [stateAt_atMinute h hminute, Except.ok.injEq]
  rw [cover_periodsOf_atMinute (withinDay_of_scheduleOn h) hminute, ReportsOpen, hstate hminute,
    decide_eq_true_iff]
  refine and_congr_right fun _ => forall_congr' fun _ => exists_congr fun later => ?_
  refine and_congr_right fun hlater => and_congr_right fun _ => ?_
  rw [hstate hlater, decide_eq_false_iff_not]

theorem outcome_day (agenda : Agenda) (hours : SolarHours Zone) (date : Date) :
    outcome (agenda.day date) hours = (agenda.scheduleOn hours date).map fun schedule =>
      { date
        periods := periodsOf date schedule
        isPublicHoliday := agenda.holidays .publicHoliday date
        isSchoolHoliday := agenda.holidays .schoolHoliday date } := by
  unfold day
  rw [outcome_bind (asking_scheduleAt agenda date) fun _ => asking_pure _]
  change agenda.scheduleOn hours date >>= _ = _
  cases agenda.scheduleOn hours date <;> rfl

/-- Where there is a schedule for a date, there is a report, and it agrees with the state at the
minutes of the date. -/
theorem agreesWithState_day (h : agenda.scheduleOn hours date = .ok schedule) :
    ∃ report, outcome (agenda.day date) hours = .ok report ∧
      agenda.AgreesWithState hours date report := by
  have hminutes : WholeMinutes date (periodsOf date schedule) :=
    wholeMinutes_periodsOf (withinDay_of_scheduleOn h)
  have hinOrder := inOrder_periodsOf date schedule
  have hreports : ∀ {minute}, minute < 1440 → (agenda.ReportsOpen hours date minute ↔
      Cover (periodsOf date schedule) (date.atMinute minute)) := reportsOpen_iff_cover h
  rw [outcome_day, h]
  refine ⟨_, rfl, hinOrder, ?_, ?_, ?_⟩
  · have hopens : (!(periodsOf date schedule).isEmpty) = true ↔ periodsOf date schedule ≠ [] := by
      simp
    refine hopens.trans ((ne_nil_iff_exists_cover hminutes).trans (exists_congr fun minute => ?_))
    exact and_congr_right fun hminute => (hreports hminute).symm
  · have hcount : Nat.count (agenda.ReportsOpen hours date) 1440 =
        Nat.count (fun minute => Cover (periodsOf date schedule) (date.atMinute minute)) 1440 := by
      rw [Nat.count_eq_card_filter_range, Nat.count_eq_card_filter_range]
      refine congrArg Finset.card (Finset.filter_congr fun minute hmem => ?_)
      exact hreports (Finset.mem_range.1 hmem)
    have hduration := foldl_duration hinOrder.ordered hminutes 0
    rw [Int.zero_add, ← hcount] at hduration
    exact hduration
  · exact fun hnext minute => and_iff_left fun hnone => absurd hnone hnext

/-- 31 December of year 262142, the last date of the calendar. -/
def lastDate : Date := ⟨95745398, by decide, by decide⟩

/-- On the last date, the evenings are reported from 00:00 to 02:00 only. -/
theorem agreesWithState_lastEvenings :
    (∃ schedule, evenings.scheduleOn .unknown lastDate = .ok schedule ∧
      schedule.Contains 60 ∧ schedule.Contains 1439) ∧
    ∃ report, outcome (evenings.day lastDate) .unknown = .ok report ∧
      evenings.AgreesWithState .unknown lastDate report := by
  have h : evenings.scheduleOn .unknown lastDate =
      .ok ⟨[⟨0, 120, by decide, by decide⟩, ⟨1200, 1440, by decide, by decide⟩], by decide⟩ := by
    decide
  exact ⟨⟨_, h, by decide, by decide⟩, agreesWithState_day h⟩

/-- A place that is open from 22:30 to 24:00, where there are no holidays. -/
def untilMidnight : Agenda where
  expression :=
    { given := "22:30-24:00"
      source := "22:30-24:00"
      rules := [{ spans := [.ofClock ⟨1350, by decide⟩ .endOfDay], kind := .opened }] }
  holidays := .empty

/-- On the last date the report has no period, although the place is open at 23:00. -/
theorem not_opens_lastEvening :
    (∃ schedule, untilMidnight.scheduleOn .unknown lastDate = .ok schedule) ∧
    ∃ report, outcome (untilMidnight.day lastDate) .unknown = .ok report ∧
      report.totalDuration = 0 ∧
      ¬ (report.opens = true ↔
        ∃ minute < 1440, untilMidnight.stateAt .unknown (lastDate.atMinute minute) = .ok true) := by
  have hschedule : untilMidnight.scheduleOn .unknown lastDate =
      .ok ⟨[⟨1350, 1440, by decide, by decide⟩], by decide⟩ := by decide
  have hreport : outcome (untilMidnight.day lastDate) .unknown =
      .ok ⟨lastDate, [], false, false⟩ := by decide
  have hstate : untilMidnight.stateAt .unknown (lastDate.atMinute 1380) = .ok true := by decide
  refine ⟨⟨_, hschedule⟩, _, hreport, rfl, fun hopens => ?_⟩
  exact Bool.noConfusion (hopens.2 ⟨1380, by decide, hstate⟩)

end Agenda

end Timetable
