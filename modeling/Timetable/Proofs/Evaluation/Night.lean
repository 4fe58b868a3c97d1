import Timetable.Proofs.Evaluation.Meaning
import Timetable.Proofs.Schedule.Canonical

/-!
What a day leaves to the following one.

The evaluation adds the minutes after midnight of the day before to those that the rules of a date
open (`contains_scheduleOn_iff_or_left`). Of the day before it looks only at the spans that may end
after midnight.

Two facts about this are exact. The spans that are not looked at never matter just on days whose
events are in turn (`SolarRecord.keepsNights_iff`): where the sun sets after midnight on the clock,
`sunrise-sunset` loses the minutes after midnight. And an additional closed rule closes its spans
among the minutes that the rules of its date open, but not among those that the day before leaves
(`contains_iff_leftByNight`), whereas without spans it closes both.
-/

namespace Timetable

variable {Zone : Type}

namespace Agenda

variable {agenda : Agenda} {hours : SolarHours Zone} {date : Date} {minute : Nat}

/-! ### Minutes left by the day before -/

/-- The minutes after midnight that the day before leaves to a date, as far as the rules of the date
leave them alone. -/
def LeftByNight (agenda : Agenda) (hours : SolarHours Zone) (date : Date) (minute : Nat) : Prop :=
  agenda.KeepsNight date ∧ ∃ previous own, date.previous? = some previous ∧
    agenda.ownOn hours previous TimeSpan.mayEndNextDay = .ok own ∧ own.1.Contains (minute + 1440)

/-- A schedule holds the minutes that the rules of the date open, and those that are left by the day
before. -/
theorem contains_scheduleOn_iff_or_left {today : SolarRecord} {schedule : Schedule}
    (htoday : ∀ known, hours.known date = .ok known → known = today)
    (h : agenda.scheduleOn hours date = .ok schedule) (hminute : minute < 1440) :
    schedule.Contains minute ↔
      agenda.OpensAt date today minute ∨ agenda.LeftByNight hours date minute := by
  obtain ⟨own, hown, hcases⟩ := scheduleOn_eq_ok h
  obtain rfl := eq_schedule_of_ownOn htoday hown
  have hday : ((agenda.inForce date).schedule today fun _ => true).1.withinDay.Contains minute ↔
      agenda.OpensAt date today minute := by
    rw [Schedule.contains_withinDay, contains_schedule (fun _ _ => rfl), and_iff_left hminute]
  rcases hcases with ⟨hkeeps, previous, night, hprevious, hnight, rfl⟩ | ⟨hcloses, rfl⟩
  · rw [Schedule.contains_union, hday, Schedule.contains_nextDayPart]
    refine or_congr_right ⟨fun hleft => ?_, fun hleft => ?_⟩
    · exact ⟨(keeps_schedule date).1 hkeeps, previous, night, hprevious, hnight, hleft⟩
    · obtain ⟨-, other, own, hother, hown, hleft⟩ := hleft
      obtain rfl : other = previous := Option.some.inj (hother.symm.trans hprevious)
      obtain rfl : own = night := Except.ok.inj (hown.symm.trans hnight)
      exact hleft
  · rw [hday, or_iff_left]
    rintro ⟨hkeeps, previous, -, hprevious, -⟩
    rcases hcloses with hcloses | hfirst
    · exact Bool.eq_false_iff.1 hcloses ((keeps_schedule date).2 hkeeps)
    · rw [hfirst] at hprevious
      cases hprevious

/-! ### Additional closed rules -/

/-- An additional rule that matches a date after all others. -/
theorem amendments_eq_concat {before after : List Rule} {rule : Rule}
    (hrules : agenda.expression.rules = before ++ rule :: after)
    (hmatches : rule.selector.holdsOn agenda.holidays date = true)
    (hadditional : rule.additional = true)
    (hafter : ∀ later ∈ after, later.selector.holdsOn agenda.holidays date = false) :
    ∃ amendments, agenda.amendments date = amendments ++ [rule] := by
  have hmatching : agenda.matching date =
      (before.filter fun rule => rule.selector.holdsOn agenda.holidays date) ++ [rule] := by
    have hnone : (after.filter fun rule => rule.selector.holdsOn agenda.holidays date) = [] :=
      List.filter_eq_nil_iff.2 fun later hmem => by rw [hafter later hmem]; exact Bool.false_ne_true
    rw [matching, hrules, List.filter_append, List.filter_cons, if_pos hmatches, hnone]
  rw [amendments, hmatching, List.rtakeWhile_concat, if_pos hadditional]
  exact ⟨_, rfl⟩

/-- After a closed rule that amends a date as the last one, no minute of its spans is opened by the
rules of the date. -/
theorem not_opensAt_of_closed {amendments : List Rule} {rule : Rule} {record : SolarRecord}
    (hamendments : agenda.amendments date = amendments ++ [rule]) (hkind : rule.kind = .closed)
    (hspan : rule.SpansHoldAt record minute) : ¬ agenda.OpensAt date record minute := by
  rw [OpensAt, hamendments, List.foldl_concat, Rule.Amends, hkind]
  exact fun hopens => hopens.2.2 hspan

/-- In the spans of an additional closed rule that matches as the last one, a date is open just in
the minutes that are left by the day before. -/
theorem contains_iff_leftByNight {today : SolarRecord} {before after : List Rule} {rule : Rule}
    {schedule : Schedule} (hrules : agenda.expression.rules = before ++ rule :: after)
    (hadditional : rule.additional = true) (hkind : rule.kind = .closed)
    (hmatches : rule.selector.holdsOn agenda.holidays date = true)
    (hafter : ∀ later ∈ after, later.selector.holdsOn agenda.holidays date = false)
    (htoday : ∀ known, hours.known date = .ok known → known = today)
    (h : agenda.scheduleOn hours date = .ok schedule) (hminute : minute < 1440)
    (hspan : rule.SpansHoldAt today minute) :
    schedule.Contains minute ↔ agenda.LeftByNight hours date minute := by
  obtain ⟨amendments, hamendments⟩ := amendments_eq_concat hrules hmatches hadditional hafter
  rw [contains_scheduleOn_iff_or_left htoday h hminute,
    or_iff_right (not_opensAt_of_closed hamendments hkind hspan)]

/-- Opens in the night from Monday to Tuesday. -/
def mondayNight : Rule where
  selector := { weekdays := [.days .monday .monday] }
  spans := [.ofClock (ClockTime.startOfDay.shift 1200) (ClockTime.startOfDay.shift 120)]
  kind := .opened

/-- Closes certain spans on Tuesday. -/
def tuesdayOff (spans : List TimeSpan) : Rule where
  selector := { weekdays := [.days .tuesday .tuesday] }
  spans := spans
  kind := .closed
  additional := true

/-- A place with these two rules. -/
def closedTuesday (spans : List TimeSpan) : Agenda where
  expression :=
    { given := mondayNight.text ++ ", " ++ (tuesdayOff spans).text
      source := mondayNight.text ++ ", " ++ (tuesdayOff spans).text
      rules := [mondayNight, tuesdayOff spans] }
  holidays := .empty

/-- The night from Monday to Tuesday, on Tuesday. -/
def nightLeft : Schedule := .ofRanges [(.startOfDay, ClockTime.startOfDay.shift 120)]

/-- Closed from 00:00 to 24:00, the place is open on Tuesday at 01:00: this is left by Monday. -/
theorem contains_closedTuesday :
    ∃ schedule, (closedTuesday [.wholeDay]).scheduleOn .unknown tuesday = .ok schedule ∧
      (tuesdayOff [.wholeDay]).SpansHoldAt default 60 ∧ schedule.Contains 60 ∧
      (closedTuesday [.wholeDay]).LeftByNight .unknown tuesday 60 := by
  have hrules : (closedTuesday [.wholeDay]).expression.rules =
      [mondayNight] ++ tuesdayOff [.wholeDay] :: [] := rfl
  have hschedule : (closedTuesday [.wholeDay]).scheduleOn .unknown tuesday = .ok nightLeft := by
    decide
  have hunknown : ∀ known, SolarHours.unknown.known tuesday = .ok known → known = default := nofun
  have hspan : (tuesdayOff [.wholeDay]).SpansHoldAt default 60 :=
    ⟨.wholeDay, List.mem_singleton.2 rfl, by decide, by decide⟩
  have hopen : nightLeft.Contains 60 := by decide
  exact ⟨nightLeft, hschedule, hspan, hopen,
    (contains_iff_leftByNight hrules rfl rfl (by decide) nofun hunknown hschedule (by decide)
      hspan).1 hopen⟩

/-- The rule that closes the whole of Tuesday by its spans leaves the minutes after midnight open;
without spans, it closes them, too. -/
theorem scheduleOn_closedTuesday :
    (closedTuesday [.wholeDay]).scheduleOn .unknown tuesday = .ok nightLeft ∧
      nightLeft.Contains 60 ∧
      (tuesdayOff [.wholeDay]).SpansHoldAt default 60 ∧
      (closedTuesday []).scheduleOn .unknown tuesday = .ok .empty :=
  ⟨by decide, by decide, ⟨.wholeDay, List.mem_singleton.2 rfl, by decide, by decide⟩, by decide⟩

end Agenda

/-! ### Spans that are not looked at -/

namespace SolarRecord

/-- On days with these times of the sun, the spans that may end after midnight leave the same
minutes to the next day as all spans would. -/
def KeepsNights (Zone : Type) (record : SolarRecord) : Prop :=
  ∀ (agenda : Agenda) (hours : SolarHours Zone) (date : Date) (whole part : Schedule × Bool),
    (∀ known, hours.known date = .ok known → known = record) →
    outcome (agenda.ownSchedule date fun _ => true) hours = .ok whole →
    outcome (agenda.ownSchedule date TimeSpan.mayEndNextDay) hours = .ok part →
    part.1.nextDayPart = whole.1.nextDayPart

/-- On days with these times of the sun, each span that holds a minute after midnight is one of
those that may. -/
def NightsForeseen (record : SolarRecord) : Prop :=
  ∀ (span : TimeSpan) (minute : Nat), span.HoldsAt record (minute + 1440) →
    span.mayEndNextDay = true

/-- A later event that comes after midnight, but before an earlier one on the clock, ends a span
that is not foreseen to go on. -/
theorem nightsForeseen_iff {record : SolarRecord} : record.NightsForeseen ↔ record.InTurn := by
  constructor
  · intro h a b hab
    by_contra hout
    rw [not_or] at hout
    have hbefore := (record.time a).minutes_lt
    -- The span from the one event to the other goes round midnight.
    have hholds : TimeSpan.HoldsAt record ⟨.solar a 0, .solar b 0⟩ (0 + 1440) := by
      simp only [TimeSpan.HoldsAt, TimeSpan.stopOn, Moment.minuteOn]
      omega
    have hmay := h _ _ hholds
    simp only [TimeSpan.mayEndNextDay, and_self, ↓reduceIte, decide_eq_true_eq] at hmay
    omega
  · intro h span minute hholds
    exact TimeSpan.mayEndNextDay_of_holdsAt h (Nat.le_add_left 1440 minute) hholds

end SolarRecord

namespace Agenda

variable {record : SolarRecord}

theorem keepsNights_of_nightsForeseen (h : record.NightsForeseen) : record.KeepsNights Zone := by
  intro agenda hours date whole part hknown hwhole hpart
  rw [outcome_ownSchedule] at hwhole hpart
  obtain rfl := eq_schedule_of_ownOn hknown hwhole
  obtain rfl := eq_schedule_of_ownOn hknown hpart
  refine Schedule.ext_contains fun minute => ?_
  rw [Schedule.contains_nextDayPart, Schedule.contains_nextDayPart,
    contains_schedule fun span hholds => h span minute hholds, contains_schedule fun _ _ => rfl]

/-- A place that is open in a span every day. -/
def daily (span : TimeSpan) : Agenda where
  expression :=
    { given := span.text, source := span.text, rules := [{ spans := [span], kind := .opened }] }
  holidays := .empty

theorem inForce_daily (span : TimeSpan) (date : Date) :
    (daily span).inForce date = { governing := some { spans := [span], kind := .opened } } := by
  have hevery : Selector.isEveryDay {} = true := rfl
  simp [inForce, InForce.on, InForce.push, daily, holdsOn_of_isEveryDay hevery]

theorem contains_schedule_daily (span : TimeSpan) (date : Date) (keep : TimeSpan → Bool)
    (minute : Nat) :
    (((daily span).inForce date).schedule record keep).1.Contains minute ↔
      keep span = true ∧ span.HoldsAt record minute := by
  rw [inForce_daily]
  change (TimeSpan.resolveAll record ([span].filter keep)).Contains minute ↔ _
  rw [TimeSpan.contains_resolveAll]
  simp only [List.mem_filter, List.mem_singleton]
  constructor
  · rintro ⟨_, ⟨rfl, hkeep⟩, hholds⟩
    exact ⟨hkeep, hholds⟩
  · rintro ⟨hkeep, hholds⟩
    exact ⟨span, ⟨rfl, hkeep⟩, hholds⟩

theorem outcome_ownSchedule_of_known {agenda : Agenda} {hours : SolarHours Zone} {date : Date}
    (h : hours.known date = .ok record) (keep : TimeSpan → Bool) :
    outcome (agenda.ownSchedule date keep) hours =
      .ok ((agenda.inForce date).schedule record keep) := by
  rw [outcome_ownSchedule, ownOn_of_known h]

/-- A span that holds a minute after midnight is looked at, or a place that is open in this span
every day would lose the minute. -/
theorem nightsForeseen_of_keepsNights (h : record.KeepsNights Zone) : record.NightsForeseen := by
  intro span minute hholds
  have hknown : (SolarHours.everyDay record : SolarHours Zone).known default = .ok record := rfl
  have heq := h (daily span) (.everyDay record) default _ _
    (fun known hother => Except.ok.inj (hother.symm.trans hknown))
    (outcome_ownSchedule_of_known hknown _) (outcome_ownSchedule_of_known hknown _)
  have hwhole := (contains_schedule_daily span default (fun _ => true) _).2 ⟨rfl, hholds⟩
  rw [← Schedule.contains_nextDayPart, ← heq, Schedule.contains_nextDayPart,
    contains_schedule_daily] at hwhole
  exact hwhole.1

end Agenda

/-- The spans that are not looked at never matter just on days whose events are in turn. -/
theorem SolarRecord.keepsNights_iff (Zone : Type) (record : SolarRecord) :
    record.KeepsNights Zone ↔ record.InTurn := by
  rw [← nightsForeseen_iff]
  exact ⟨Agenda.nightsForeseen_of_keepsNights, Agenda.keepsNights_of_nightsForeseen⟩

/-- In summer in the far north: the sun sets at half past midnight and rises at three. -/
def lateSunset : SolarRecord := ⟨.ofMinutes 120, .ofMinutes 180, .ofMinutes 30, .ofMinutes 90⟩

/-- From sunrise to a sunset after midnight, the minutes after midnight are lost. -/
theorem not_keepsNights_lateSunset :
    let sunshine : TimeSpan := ⟨.solar .sunrise 0, .solar .sunset 0⟩
    let hours : SolarHours Unit := .everyDay lateSunset
    ∃ whole part,
      outcome ((Agenda.daily sunshine).ownSchedule default fun _ => true) hours = .ok whole ∧
      outcome ((Agenda.daily sunshine).ownSchedule default TimeSpan.mayEndNextDay) hours =
        .ok part ∧
      whole.1.nextDayPart.Contains 15 ∧ ¬ part.1.nextDayPart.Contains 15 := by
  intro sunshine hours
  have hknown : hours.known default = .ok lateSunset := rfl
  exact ⟨_, _, Agenda.outcome_ownSchedule_of_known hknown _,
    Agenda.outcome_ownSchedule_of_known hknown _, by decide, by decide⟩

end Timetable
