import Mathlib.Data.List.DropRight
import Timetable.Proofs.Evaluation.Mentions
import Timetable.Proofs.Evaluation.State

/-!
What the rules say of a day, minute by minute.

The meaning of a list of rules is given here without schedules: which minutes a span holds
(`TimeSpan.HoldsAt`), which minutes of a date and of the night after it the rules open
(`Agenda.OpensAt`), and whether they leave alone what began on the day before
(`Agenda.KeepsNight`). `contains_scheduleOn_iff` says that the schedule of a date holds just these
minutes: those that the rules of the date open, and those that the rules of the day before open
after midnight.

The evaluation looks at fewer spans of the day before than the meaning does. Between events of the
sun in their order, a span that is left out ends by midnight (`not_holdsAt_of_not_mayEndNextDay`),
so that nothing is missed. It is enough that no event comes before an earlier one on the clock
(`SolarRecord.InTurn`, `mayEndNextDay_of_holdsAt`).
-/

namespace Timetable

variable {Zone : Type}

/-! ### Minutes of spans -/

/-- The events of a day come in their order. -/
structure SolarRecord.Ordered (record : SolarRecord) : Prop where
  dawn_le : record.dawn.nanos ≤ record.sunrise.nanos
  sunrise_le : record.sunrise.nanos ≤ record.sunset.nanos
  sunset_le : record.sunset.nanos ≤ record.dusk.nanos

/-- An event that is later in the order does not come before another one on the clock, unless it
comes in the first minute after midnight. -/
def SolarRecord.InTurn (record : SolarRecord) : Prop :=
  ∀ a b : SolarEvent, a.index < b.index →
    (record.time b).minutes = 0 ∨ (record.time a).minutes ≤ (record.time b).minutes

theorem SolarRecord.Ordered.inTurn {record : SolarRecord} (h : record.Ordered) :
    record.InTurn := by
  intro a b hab
  obtain ⟨hdawn, hsunrise, hsunset⟩ := h
  refine .inr (Nat.div_le_div_right ?_)
  cases a <;> cases b <;> simp only [SolarEvent.index, SolarRecord.time] at hab ⊢ <;> omega

/-- The minute of a moment, counted from the midnight that begins the day. An event that is moved
stays between the midnights of two days. -/
def Moment.minuteOn (record : SolarRecord) : Moment → Int
  | clock time => time.minutes
  | solar event offset => max 0 (min ((record.time event).minutes + offset) 2880)

/-- The minute at which a span ends: an end before the beginning is one of the following day. -/
def TimeSpan.stopOn (record : SolarRecord) (span : TimeSpan) : Int :=
  let start := span.beginning.minuteOn record
  let stop := span.ending.minuteOn record
  if stop < start then min (stop + 1440) 2880 else stop

/-- Whether a span holds a minute, on a day with certain times of the sun. -/
def TimeSpan.HoldsAt (record : SolarRecord) (span : TimeSpan) (minute : Nat) : Prop :=
  span.beginning.minuteOn record ≤ minute ∧ minute < span.stopOn record

theorem Moment.minutes_resolve (record : SolarRecord) (moment : Moment) :
    ((moment.resolve record).minutes : Int) = moment.minuteOn record := by
  cases moment with
  | clock time => rfl
  | solar event offset => exact ClockTime.minutes_shift _ _

namespace TimeSpan

theorem exists_resolve_iff (record : SolarRecord) (span : TimeSpan) (minute : Nat) :
    (∃ interval, span.resolve record = some interval ∧ interval.Contains minute) ↔
      span.HoldsAt record minute := by
  have hstart := span.beginning.minutes_resolve record
  have hstop := span.ending.minutes_resolve record
  have hshift := (span.ending.resolve record).minutes_shift 1440
  have hbound := (span.ending.resolve record).minutes_le
  unfold resolve HoldsAt stopOn
  dsimp only
  rw [Interval.ofClock?, Interval.exists_between?_iff (ClockTime.minutes_le _), ← hstart, ← hstop]
  split
  · rename_i hle
    rw [ClockTime.le_iff] at hle
    rw [if_neg (by omega)]
    omega
  · rename_i hlt
    rw [ClockTime.le_iff] at hlt
    rw [if_pos (by omega)]
    omega

theorem contains_resolveAll (record : SolarRecord) (spans : List TimeSpan) (minute : Nat) :
    (resolveAll record spans).Contains minute ↔ ∃ span ∈ spans, span.HoldsAt record minute := by
  rw [resolveAll, Schedule.contains_ofIntervals]
  constructor
  · rintro ⟨interval, hmem, hin⟩
    obtain ⟨span, hspan, hresolve⟩ := List.mem_filterMap.1 hmem
    exact ⟨span, hspan, (exists_resolve_iff record span minute).1 ⟨interval, hresolve, hin⟩⟩
  · rintro ⟨span, hspan, hholds⟩
    obtain ⟨interval, hresolve, hin⟩ := (exists_resolve_iff record span minute).2 hholds
    exact ⟨interval, List.mem_filterMap.2 ⟨span, hspan, hresolve⟩, hin⟩

/-! ### Spans that end by midnight -/

theorem eq_zero_or_minutes_time_le {record : SolarRecord} (h : record.InTurn) {a b : SolarEvent}
    (hab : a.index ≤ b.index) :
    (record.time b).minutes = 0 ∨ (record.time a).minutes ≤ (record.time b).minutes := by
  rcases Nat.lt_or_eq_of_le hab with hlt | heq
  · exact h a b hlt
  · obtain rfl : a = b := by cases a <;> cases b <;> simp [SolarEvent.index] at heq ⊢
    exact .inr (Nat.le_refl _)

theorem minutes_latestMoment (offset : Int) :
    ((latestMoment offset).minutes : Int) = max 0 (min (1439 + offset) 2880) := by
  rw [latestMoment, ClockTime.minutes_shift]
  change max 0 (min ((1440 : Nat) + (offset - 1)) 2880) = _
  omega

theorem minuteOn_solar_le (record : SolarRecord) (event : SolarEvent) (offset : Int) :
    (Moment.solar event offset).minuteOn record ≤ (latestMoment offset).minutes := by
  have := (record.time event).minutes_lt
  rw [minutes_latestMoment]
  simp only [Moment.minuteOn]
  omega

theorem stopOn_le_of_le {record : SolarRecord} {span : TimeSpan}
    (hle : span.beginning.minuteOn record ≤ span.ending.minuteOn record)
    (hstop : span.ending.minuteOn record ≤ 1440) : span.stopOn record ≤ 1440 := by
  rw [stopOn, if_neg (Int.not_lt.2 hle)]
  exact hstop

theorem stopOn_le_of_eq_zero {record : SolarRecord} {span : TimeSpan}
    (hstop : span.ending.minuteOn record = 0) : span.stopOn record ≤ 1440 := by
  rw [stopOn, hstop]
  split <;> omega

/-- A span of which it is known, without the times of the day, that it ends by midnight. -/
theorem stopOn_le_of_not_mayEndNextDay {record : SolarRecord} (h : record.InTurn)
    {span : TimeSpan} (hspan : span.mayEndNextDay = false) : span.stopOn record ≤ 1440 := by
  obtain ⟨beginning, ending⟩ := span
  have hclock : ∀ time : ClockTime, (Moment.clock time).minuteOn record = time.minutes :=
    fun _ => rfl
  cases beginning with
  | clock start =>
    cases ending with
    | clock stop =>
      simp only [mayEndNextDay, Bool.or_eq_false_iff, decide_eq_false_iff_not, ClockTime.lt_iff,
        ClockTime.endOfDay] at hspan
      refine stopOn_le_of_le ?_ ?_ <;> simp only [hclock] <;> omega
    | solar event offset =>
      -- The span begins at midnight, so that it does not go round.
      have hlatest := minuteOn_solar_le record event offset
      simp only [mayEndNextDay, Bool.or_eq_false_iff, decide_eq_false_iff_not, ClockTime.lt_iff,
        ClockTime.endOfDay, bne_eq_false_iff_eq] at hspan
      obtain ⟨rfl, hspan⟩ := hspan
      refine stopOn_le_of_le (Int.le_max_left _ _) ?_
      dsimp only
      omega
  | solar event offset =>
    have hlatest := minuteOn_solar_le record event offset
    cases ending with
    | clock stop =>
      simp only [mayEndNextDay, Bool.and_eq_false_iff, Bool.or_eq_false_iff,
        decide_eq_false_iff_not, ClockTime.lt_iff, ClockTime.endOfDay, bne_eq_false_iff_eq] at hspan
      rcases hspan with rfl | hspan
      · exact stopOn_le_of_eq_zero rfl
      · refine stopOn_le_of_le ?_ ?_ <;> simp only [hclock] <;> omega
    | solar other otherOffset =>
      simp only [mayEndNextDay] at hspan
      split at hspan
      · rename_i hoffsets
        obtain ⟨rfl, rfl⟩ := hoffsets
        have hday := (record.time other).minutes_lt
        have hindex := Nat.le_of_not_lt (of_decide_eq_false hspan)
        rcases eq_zero_or_minutes_time_le h hindex with hzero | hle
        · refine stopOn_le_of_eq_zero ?_
          simp only [Moment.minuteOn]
          omega
        · refine stopOn_le_of_le ?_ ?_ <;> simp only [Moment.minuteOn] <;> omega
      · cases hspan

/-- Only a span that may end after midnight holds a minute there. -/
theorem mayEndNextDay_of_holdsAt {record : SolarRecord} (h : record.InTurn) {span : TimeSpan}
    {minute : Nat} (hnight : 1440 ≤ minute) (hholds : span.HoldsAt record minute) :
    span.mayEndNextDay = true := by
  by_contra hspan
  have hle := stopOn_le_of_not_mayEndNextDay h (Bool.eq_false_iff.2 hspan)
  have hlt := hholds.2
  omega

theorem not_holdsAt_of_not_mayEndNextDay {record : SolarRecord} (h : record.Ordered)
    {span : TimeSpan} (hspan : span.mayEndNextDay = false) {minute : Nat} (hnight : 1440 ≤ minute) :
    ¬ span.HoldsAt record minute := by
  intro hholds
  rw [mayEndNextDay_of_holdsAt h.inTurn hnight hholds] at hspan
  cases hspan

end TimeSpan

/-! ### What the rules say -/

/-- Whether the spans of a rule hold a minute. -/
def Rule.SpansHoldAt (record : SolarRecord) (rule : Rule) (minute : Nat) : Prop :=
  ∃ span ∈ rule.spans, span.HoldsAt record minute

/-- What an additional rule makes of the minutes that were open before: it opens the minutes of its
spans, or closes them, or closes all if it has no span. -/
def Rule.Amends (record : SolarRecord) (opens : Nat → Prop) (rule : Rule) (minute : Nat) : Prop :=
  match rule.kind with
  | .opened => opens minute ∨ rule.SpansHoldAt record minute
  | .closed => rule.spans ≠ [] ∧ opens minute ∧ ¬ rule.SpansHoldAt record minute
  | .unknown => opens minute

namespace Agenda

variable {agenda : Agenda} {hours : SolarHours Zone}

/-- The rules that match a date. -/
def matching (agenda : Agenda) (date : Date) : List Rule :=
  agenda.expression.rules.filter fun rule => rule.selector.holdsOn agenda.holidays date

/-- The last rule that matches a date and is not additional. -/
def governing? (agenda : Agenda) (date : Date) : Option Rule :=
  (agenda.matching date).reverse.find? fun rule => !rule.additional

/-- The additional rules that match a date after the governing one, or all of them if there is
none. -/
def amendments (agenda : Agenda) (date : Date) : List Rule :=
  (agenda.matching date).rtakeWhile fun rule => rule.additional

/-- The minutes of a date and of the night after it that the rules of the date open. -/
def OpensAt (agenda : Agenda) (date : Date) (record : SolarRecord) : Nat → Prop :=
  (agenda.amendments date).foldl (Rule.Amends record) fun minute =>
    ∃ rule ∈ agenda.governing? date, rule.kind = .opened ∧ rule.SpansHoldAt record minute

/-- Whether the rules of a date leave alone what began on the day before. -/
def KeepsNight (agenda : Agenda) (date : Date) : Prop :=
  (∀ rule ∈ agenda.governing? date, rule.kind = .opened) ∧
    ∀ rule ∈ agenda.amendments date, ¬ (rule.kind = .closed ∧ rule.spans = [])

theorem foldl_push (rules : List Rule) :
    rules.foldl InForce.push {} =
      ⟨rules.reverse.find? fun rule => !rule.additional,
        rules.rtakeWhile fun rule => rule.additional⟩ := by
  induction rules using List.reverseRecOn with
  | nil => rfl
  | append_singleton rules rule ih =>
    rw [List.foldl_concat, ih, List.reverse_concat, List.find?_cons, List.rtakeWhile_concat,
      InForce.push]
    cases rule.additional <;> rfl

theorem inForce_eq (agenda : Agenda) (date : Date) :
    agenda.inForce date = ⟨agenda.governing? date, agenda.amendments date⟩ :=
  foldl_push (agenda.matching date)

theorem mem_rules_of_governing {date : Date} {rule : Rule} (h : rule ∈ agenda.governing? date) :
    rule ∈ agenda.expression.rules :=
  (List.mem_filter.1 (List.mem_reverse.1 (List.mem_of_find?_eq_some h))).1

theorem mem_rules_of_amendments {date : Date} {rule : Rule} (h : rule ∈ agenda.amendments date) :
    rule ∈ agenda.expression.rules :=
  (List.mem_filter.1 ((List.rtakeWhile_suffix _ _).subset h)).1

/-! ### Schedules of rules -/

section Schedules

variable {record : SolarRecord} {keep : TimeSpan → Bool} {minute : Nat}

/-- A class of spans is enough for a minute if no other span holds it. -/
theorem contains_resolveAll_filter
    (hkeep : ∀ span : TimeSpan, span.HoldsAt record minute → keep span = true) (rule : Rule) :
    (TimeSpan.resolveAll record (rule.spans.filter keep)).Contains minute ↔
      rule.SpansHoldAt record minute := by
  rw [TimeSpan.contains_resolveAll]
  constructor
  · rintro ⟨span, hmem, hholds⟩
    exact ⟨span, (List.mem_filter.1 hmem).1, hholds⟩
  · rintro ⟨span, hmem, hholds⟩
    exact ⟨span, List.mem_filter.2 ⟨hmem, hkeep span hholds⟩, hholds⟩

theorem contains_governingSchedule
    (hkeep : ∀ span : TimeSpan, span.HoldsAt record minute → keep span = true)
    (governing : Option Rule) :
    (InForce.governingSchedule governing record keep).1.Contains minute ↔
      ∃ rule ∈ governing, rule.kind = .opened ∧ rule.SpansHoldAt record minute := by
  cases governing with
  | none => simp [InForce.governingSchedule, Schedule.not_contains_empty]
  | some rule =>
    cases hkind : rule.kind <;>
      simp [InForce.governingSchedule, hkind, contains_resolveAll_filter hkeep,
        Schedule.not_contains_empty]

theorem contains_applyAdditional
    (hkeep : ∀ span : TimeSpan, span.HoldsAt record minute → keep span = true)
    {said : Schedule × Bool} {opens : Nat → Prop} (hsaid : said.1.Contains minute ↔ opens minute)
    (rule : Rule) :
    (InForce.applyAdditional record keep said rule).1.Contains minute ↔
      rule.Amends record opens minute := by
  have hspans := contains_resolveAll_filter hkeep rule
  unfold InForce.applyAdditional Rule.Amends
  dsimp only
  cases rule.kind with
  | opened =>
    dsimp only
    rw [Schedule.contains_union, hsaid, hspans]
  | closed =>
    dsimp only
    by_cases hempty : rule.spans = []
    · simp [hempty, Schedule.not_contains_empty]
    · rw [if_neg (by simpa using hempty), Schedule.contains_diff, hsaid, hspans]
      exact (and_iff_right hempty).symm
  | unknown => exact hsaid

/-- Rule by rule, the schedule holds the minutes that the rules say. -/
theorem contains_foldl_applyAdditional
    (hkeep : ∀ span : TimeSpan, span.HoldsAt record minute → keep span = true) (rules : List Rule)
    {said : Schedule × Bool} {opens : Nat → Prop} (hsaid : said.1.Contains minute ↔ opens minute) :
    (rules.foldl (InForce.applyAdditional record keep) said).1.Contains minute ↔
      rules.foldl (Rule.Amends record) opens minute := by
  induction rules generalizing said opens with
  | nil => exact hsaid
  | cons rule rules ih => exact ih (contains_applyAdditional hkeep hsaid rule)

theorem contains_schedule
    (hkeep : ∀ span : TimeSpan, span.HoldsAt record minute → keep span = true) (date : Date) :
    ((agenda.inForce date).schedule record keep).1.Contains minute ↔
      agenda.OpensAt date record minute := by
  rw [inForce_eq]
  exact contains_foldl_applyAdditional hkeep _ (contains_governingSchedule hkeep _)

theorem keeps_foldl_applyAdditional (rules : List Rule) (said : Schedule × Bool) :
    (rules.foldl (InForce.applyAdditional record keep) said).2 = true ↔
      said.2 = true ∧ ∀ rule ∈ rules, ¬ (rule.kind = .closed ∧ rule.spans = []) := by
  induction rules generalizing said with
  | nil => simp
  | cons rule rules ih =>
    have hrule : (InForce.applyAdditional record keep said rule).2 = true ↔
        said.2 = true ∧ ¬ (rule.kind = .closed ∧ rule.spans = []) := by
      cases hkind : rule.kind with
      | opened => simp [InForce.applyAdditional, hkind]
      | closed => by_cases hempty : rule.spans = [] <;>
          simp [InForce.applyAdditional, hkind, hempty]
      | unknown => simp [InForce.applyAdditional, hkind]
    rw [List.foldl_cons, ih, hrule, List.forall_mem_cons, and_assoc]

theorem keeps_schedule (date : Date) :
    ((agenda.inForce date).schedule record keep).2 = true ↔ agenda.KeepsNight date := by
  rw [inForce_eq, InForce.schedule, keeps_foldl_applyAdditional]
  refine and_congr_left fun _ => ?_
  cases agenda.governing? date with
  | none => simp [InForce.governingSchedule]
  | some rule => cases hkind : rule.kind <;> simp [InForce.governingSchedule, hkind]

end Schedules

/-! ### Days and their times of the sun -/

/-- What the rules of a date say is said with the times of the date, if they are known, and else
with any times. -/
theorem eq_schedule_of_ownOn {date : Date} {record : SolarRecord} {keep : TimeSpan → Bool}
    {own : Schedule × Bool} (hrecord : ∀ known, hours.known date = .ok known → known = record)
    (h : agenda.ownOn hours date keep = .ok own) :
    own = (agenda.inForce date).schedule record keep := by
  unfold ownOn at h
  dsimp only at h
  split at h
  · cases hknown : hours.known date with
    | error error => rw [hknown] at h; cases h
    | ok known =>
      rw [hknown] at h
      obtain rfl := hrecord known hknown
      exact (Except.ok.inj h).symm
  · rename_i hneeds
    rw [← Except.ok.inj h]
    exact InForce.schedule_eq_of_not_needsSolar (Bool.eq_false_iff.2 hneeds) _ _

/-- With the times of a date at hand, what its rules say can be evaluated. -/
theorem ownOn_of_known {date : Date} {record : SolarRecord} (h : hours.known date = .ok record)
    (keep : TimeSpan → Bool) :
    agenda.ownOn hours date keep = .ok ((agenda.inForce date).schedule record keep) := by
  rw [ownOn, h]
  split
  · rfl
  · rename_i hneeds
    rw [InForce.schedule_eq_of_not_needsSolar (Bool.eq_false_iff.2 hneeds) default record]

/-! ### The meaning of a day -/

/-- The schedule of a date holds the minutes that its rules open, and those that the rules of the
day before open after midnight unless the rules of the date do away with them. Where the times of a
day are not known, they do not matter, but those of the day before must be in order. -/
theorem contains_scheduleOn_iff {date previous : Date} {today before : SolarRecord}
    {schedule : Schedule} (hprevious : date.previous? = some previous)
    (htoday : ∀ known, hours.known date = .ok known → known = today)
    (hbefore : ∀ known, hours.known previous = .ok known → known = before)
    (hordered : before.Ordered) (h : agenda.scheduleOn hours date = .ok schedule) {minute : Nat}
    (hminute : minute < 1440) :
    schedule.Contains minute ↔ agenda.OpensAt date today minute ∨
      agenda.KeepsNight date ∧ agenda.OpensAt previous before (minute + 1440) := by
  obtain ⟨own, hown, hcases⟩ := scheduleOn_eq_ok h
  obtain rfl := eq_schedule_of_ownOn htoday hown
  have hday : ((agenda.inForce date).schedule today fun _ => true).1.withinDay.Contains minute ↔
      agenda.OpensAt date today minute := by
    rw [Schedule.contains_withinDay, contains_schedule (fun _ _ => rfl), and_iff_left hminute]
  rcases hcases with ⟨hkeeps, other, night, hother, hnight, rfl⟩ | ⟨hcloses, rfl⟩
  · obtain rfl : other = previous := Option.some.inj (hother.symm.trans hprevious)
    obtain rfl := eq_schedule_of_ownOn hbefore hnight
    -- What the evaluation leaves out of the day before has no minute after midnight.
    have hkeep : ∀ span : TimeSpan, span.HoldsAt before (minute + 1440) →
        span.mayEndNextDay = true := by
      intro span hholds
      by_contra hspan
      exact TimeSpan.not_holdsAt_of_not_mayEndNextDay hordered (Bool.eq_false_iff.2 hspan)
        (Nat.le_add_left _ _) hholds
    rw [Schedule.contains_union, hday, Schedule.contains_nextDayPart, contains_schedule hkeep,
      and_iff_right (keeps_schedule date |>.1 hkeeps)]
  · have hcloses : ¬ agenda.KeepsNight date := by
      rw [hprevious] at hcloses
      have hkeeps := hcloses.resolve_right nofun
      intro hnight
      exact Bool.eq_false_iff.1 hkeeps ((keeps_schedule date).2 hnight)
    rw [hday]
    exact ⟨.inl, fun hminute => hminute.resolve_right fun hnight => hcloses hnight.1⟩

/-- A place that is open from sunset until an hour after sunrise, but closed from 03:00 to 04:00 on
Mondays. -/
def nights : Agenda where
  expression :=
    { given := "sunset-(sunrise+01:00), Mo 03:00-04:00 off"
      source := "sunset-(sunrise+01:00), Mo 03:00-04:00 off"
      rules :=
        [{ spans := [⟨.solar .sunset 0, .solar .sunrise 60⟩], kind := .opened },
          { selector := { weekdays := [.days .monday .monday] }
            spans := [.ofClock ⟨180, by decide⟩ ⟨240, by decide⟩], kind := .closed
            additional := true }] }
  holidays := .empty

/-- Days with the sun up from 07:00 to 20:00. -/
def brightDay : SolarRecord :=
  ⟨.ofMinutes 360, .ofMinutes 420, .ofMinutes 1200, .ofMinutes 1260⟩

/-- On a Monday, the night from Sunday goes on at 03:20: only what begins on Monday is cut. -/
theorem contains_scheduleOn_nights :
    ∃ previous schedule, Date.previous? default = some previous ∧ brightDay.Ordered ∧
      nights.scheduleOn (.everyDay brightDay : SolarHours Unit) default = .ok schedule ∧
      schedule.Contains 200 ∧ (nights.OpensAt default brightDay 200 ∨
        nights.KeepsNight default ∧ nights.OpensAt previous brightDay 1640) := by
  have hordered : brightDay.Ordered := ⟨by decide, by decide, by decide⟩
  have hknown : ∀ date record,
      (SolarHours.everyDay brightDay : SolarHours Unit).known date = .ok record →
        record = brightDay := fun _ _ h => (Except.ok.inj h).symm
  have hschedule : nights.scheduleOn (.everyDay brightDay : SolarHours Unit) default =
      .ok ⟨[⟨0, 480, by decide, by decide⟩, ⟨1200, 1440, by decide, by decide⟩], by decide⟩ := by
    decide
  have hcontains : Schedule.Contains
      ⟨[⟨0, 480, by decide, by decide⟩, ⟨1200, 1440, by decide, by decide⟩], by decide⟩ 200 := by
    decide
  exact ⟨⟨-1, by decide, by decide⟩, _, by decide, hordered, hschedule, hcontains,
    (contains_scheduleOn_iff (by decide) (hknown _) (hknown _) hordered hschedule
      (by decide)).1 hcontains⟩

end Agenda

end Timetable
