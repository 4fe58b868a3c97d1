import Timetable.Proofs.Arithmetic.Dates
import Timetable.Proofs.Evaluation.Meaning
import Timetable.Proofs.Schedule.Canonical

/-!
Checked arithmetic of times, spans and schedules.

A clock time is made of a number of minutes in four places: from a time of the day, by a shift, and
for both ends of an interval that is counted from the following midnight. Each asserts that the time
is at most 48:00, or says what is taken if it is not.
-/

namespace Timetable

open Width

/-! ### Clock times -/

namespace ClockTime

/-- Asserts that a number of minutes is a clock time. -/
def checked (minutes : Int) : Checked ClockTime :=
  if h : 0 ≤ minutes ∧ minutes ≤ 2880 then .ok ⟨minutes.toNat, by omega⟩
  else .error (.offClock minutes)

theorem checked_eq {minutes : Int} {time : ClockTime} (h : minutes = time.minutes) :
    checked minutes = .ok time := by
  have hle := time.minutes_le
  rw [checked, dif_pos (by omega)]
  exact congrArg Except.ok (ext (by simp only; omega))

/-- A time of the day as its hour and its minute show it, with checks. -/
def ofTimeOfDayChecked (time : TimeOfDay) : Checked ClockTime := do
  let hours ← unsigned32.times (time.minutes / 60 : Nat) 60
  let minutes ← unsigned32.plus hours (time.minutes % 60 : Nat)
  checked minutes

/-- The time of a day lies before 24:00. -/
theorem ofTimeOfDayChecked_eq (time : TimeOfDay) :
    ofTimeOfDayChecked time = .ok (ofTimeOfDay time) := by
  have hlt := time.minutes_lt
  have hsum :
      (time.minutes / 60 : Nat) * 60 + (time.minutes % 60 : Nat) = (time.minutes : Int) := by
    omega
  rw [ofTimeOfDayChecked, times_bind (fits_unsigned32.2 (by omega)),
    plus_bind (fits_unsigned32.2 (by omega)), hsum]
  exact checked_eq rfl

/-- A move by some minutes, with checks. -/
def shiftChecked (time : ClockTime) (minutes : Int) : Checked ClockTime := do
  let sum ← signed32.plus time.minutes minutes
  checked (max 0 (min sum 2880))

/-- A sum of 32 bits has room for a clock time and a move of 16 bits. It is brought into 00:00 to
48:00 before it is a clock time again. -/
theorem shiftChecked_eq (time : ClockTime) {minutes : Int} (h : signed16.Fits minutes) :
    time.shiftChecked minutes = .ok (time.shift minutes) := by
  have hle := time.minutes_le
  have hminutes : -32768 ≤ minutes ∧ minutes ≤ 32767 := h
  rw [shiftChecked, plus_bind (fits_signed32.2 (by omega))]
  exact checked_eq (minutes_shift time minutes).symm

end ClockTime

/-! ### Spans -/

/-- The clock time of a moment, with checks. -/
def Moment.resolveChecked (record : SolarRecord) : Moment → Checked ClockTime
  | .clock time => .ok time
  | .solar event offset => do
    let offset ← signed16.fit offset
    let time ← ClockTime.ofTimeOfDayChecked (record.time event)
    time.shiftChecked offset

/-- Events are moved by a day at most. -/
theorem Moment.resolveChecked_eq {hours : Nat} {moment : Moment} (h : moment.InBounds hours)
    (record : SolarRecord) : moment.resolveChecked record = .ok (moment.resolve record) := by
  cases moment with
  | clock time => rfl
  | solar event offset =>
    have hoffset : offset.natAbs ≤ 1440 := h
    have hfits : signed16.Fits offset := fits_signed16.2 (by omega)
    rw [resolveChecked, fit_eq hfits, ok_bind, ClockTime.ofTimeOfDayChecked_eq, ok_bind]
    exact ClockTime.shiftChecked_eq _ hfits

/-- The latest clock time of an event that is moved, with checks. The offset stops at its least
value. -/
def latestMomentChecked (offset : Int) : Checked ClockTime := do
  let offset ← signed16.fit offset
  ClockTime.endOfDay.shiftChecked (max (offset - 1) (-32768))

theorem latestMomentChecked_eq {offset : Int} (h : offset.natAbs ≤ 1440) :
    latestMomentChecked offset = .ok (latestMoment offset) := by
  have hmax : max (offset - 1) (-32768) = offset - 1 := by omega
  rw [latestMomentChecked, fit_eq (fits_signed16.2 (by omega)), ok_bind, hmax]
  exact ClockTime.shiftChecked_eq _ (fits_signed16.2 (by omega))

namespace TimeSpan

/-- The minutes of the span, with checks. -/
def resolveChecked (record : SolarRecord) (span : TimeSpan) : Checked (Option Interval) := do
  let start ← span.beginning.resolveChecked record
  let stop ← span.ending.resolveChecked record
  if start ≤ stop then return Interval.ofClock? start stop
  else
    let stop ← stop.shiftChecked 1440
    return Interval.ofClock? start stop

/-- The end of a span is moved by a whole day if it would come before the beginning. -/
theorem resolveChecked_eq {span : TimeSpan} (h : span.InBounds) (record : SolarRecord) :
    span.resolveChecked record = .ok (span.resolve record) := by
  rw [resolveChecked, Moment.resolveChecked_eq h.1, ok_bind, Moment.resolveChecked_eq h.2, ok_bind,
    resolve]
  have hday : signed16.Fits 1440 := by decide
  rw [ClockTime.shiftChecked_eq _ hday]
  split <;> rfl

/-- Whether the span may last past midnight, with checks. -/
def mayEndNextDayChecked (span : TimeSpan) : Checked Bool :=
  match span.beginning, span.ending with
  | .clock start, .clock stop => return stop < start || ClockTime.endOfDay < stop
  | .solar start startOffset, .solar stop stopOffset =>
    return if startOffset = 0 ∧ stopOffset = 0 then stop.index < start.index else true
  | .solar _ offset, .clock stop => do
    let latest ← latestMomentChecked offset
    return stop != ClockTime.startOfDay && (ClockTime.endOfDay < stop || stop < latest)
  | .clock start, .solar _ offset => do
    let latest ← latestMomentChecked offset
    return start != ClockTime.startOfDay || ClockTime.endOfDay < latest

/-- No look at the bounds of a span leaves the clock. -/
theorem mayEndNextDayChecked_eq {span : TimeSpan} (h : span.InBounds) :
    span.mayEndNextDayChecked = .ok span.mayEndNextDay := by
  obtain ⟨beginning, ending⟩ := span
  obtain ⟨hbeginning, hending⟩ := h
  rw [mayEndNextDayChecked, mayEndNextDay]
  cases beginning with
  | clock start =>
    cases ending with
    | clock stop => rfl
    | solar _ offset =>
      dsimp only
      rw [latestMomentChecked_eq hending]
      rfl
  | solar _ offset =>
    cases ending with
    | clock stop =>
      dsimp only
      rw [latestMomentChecked_eq hbeginning]
      rfl
    | solar => rfl

/-- The minutes of several spans, with checks. -/
def resolveAllChecked (record : SolarRecord) (spans : List TimeSpan) : Checked Schedule := do
  let found ← spans.mapM (resolveChecked record)
  return Schedule.ofIntervals (found.filterMap id)

theorem resolveAllChecked_eq {spans : List TimeSpan} (h : ∀ span ∈ spans, span.InBounds)
    (record : SolarRecord) :
    resolveAllChecked record spans = .ok (resolveAll record spans) := by
  rw [resolveAllChecked, mapM_eq_ok_map fun span hspan => resolveChecked_eq (h span hspan) record,
    ok_bind, List.filterMap_map, Function.id_comp, resolveAll]
  rfl

end TimeSpan

/-! ### The following day -/

/-- The part of an interval after 24:00, counted from there, with checks. -/
def Interval.nextDayChecked (interval : Interval) : Checked (Option Interval) :=
  let start : Int := max interval.start 1440
  let stop : Int := min interval.stop 2880
  if start < stop then do
    let start ← unsigned16.minus start 1440
    let stop ← unsigned16.minus stop 1440
    return Interval.ofClock? ((ClockTime.ofMinutes? start.toNat).getD .startOfDay)
      ((ClockTime.ofMinutes? stop.toNat).getD .startOfDay)
  else return none

/-- What is left of an interval after 24:00 is not negative. -/
theorem Interval.nextDayChecked_eq (interval : Interval) :
    interval.nextDayChecked = .ok interval.nextDay? := by
  have hlt := interval.start_lt_stop
  have hle := interval.stop_le
  rw [nextDayChecked, nextDay?]
  by_cases hsome : 1440 < interval.stop
  · have hstart : max (interval.start : Int) 1440 - 1440 =
        ((max interval.start 1440 - 1440 : Nat) : Int) := by omega
    have hstop : min (interval.stop : Int) 2880 - 1440 = ((interval.stop - 1440 : Nat) : Int) := by
      omega
    have hstartFits : unsigned16.Fits (max (interval.start : Int) 1440 - 1440) := by
      rw [hstart]
      exact fits_unsigned16.2 (by omega)
    have hstopFits : unsigned16.Fits (min (interval.stop : Int) 2880 - 1440) := by
      rw [hstop]
      exact fits_unsigned16.2 (by omega)
    rw [if_pos (by omega), minus_bind hstartFits, minus_bind hstopFits, hstart, hstop,
      Int.toNat_natCast, Int.toNat_natCast, ClockTime.ofMinutes?, dif_pos (by omega),
      ClockTime.ofMinutes?, dif_pos (by omega)]
    rfl
  · have hnone : between? (max interval.start 1440 - 1440) (interval.stop - 1440) = none :=
      dif_neg (by omega)
    rw [if_neg (by omega), hnone]
    rfl

/-- The minutes from 24:00 on, counted from there, with checks. -/
def Schedule.nextDayPartChecked (schedule : Schedule) : Checked Schedule := do
  let parts ← schedule.intervals.mapM Interval.nextDayChecked
  return Schedule.ofIntervals (parts.filterMap id)

theorem Schedule.nextDayPartChecked_eq (schedule : Schedule) :
    schedule.nextDayPartChecked = .ok schedule.nextDayPart := by
  rw [nextDayPartChecked, mapM_eq_ok_map fun interval _ => interval.nextDayChecked_eq, ok_bind,
    List.filterMap_map, Function.id_comp]
  refine congrArg Except.ok (ext_contains fun minute => ?_)
  exact contains_ofIntervals _ minute

/-! ### Rules in force -/

/-- The rule is in bounds, and its years are small. -/
structure Rule.Reckonable (rule : Rule) : Prop extends rule.InBounds where
  years : rule.selector.HasSmallYears

namespace InForce

/-- The spans of all rules in force are in bounds. -/
structure SpansInBounds (rules : InForce) : Prop where
  governing : ∀ rule ∈ rules.governing, ∀ span ∈ rule.spans, span.InBounds
  additional : ∀ rule ∈ rules.additional, ∀ span ∈ rule.spans, span.InBounds

/-- The rules of an expression that are in force on a date, with checks. -/
def onChecked (rules : List Rule) (holidays : HolidayCalendar) (date : Date) : Checked InForce :=
  rules.foldlM (fun found rule => do
    if ← rule.selector.holdsOnChecked holidays date then return found.push rule
    else return found) {}

/-- The rules in force are found without a breach on every date. -/
theorem onChecked_eq {rules : List Rule} (h : ∀ rule ∈ rules, rule.Reckonable)
    (holidays : HolidayCalendar) (date : Date) :
    onChecked rules holidays date = .ok (on rules holidays date) := by
  rw [on, List.foldl_filter]
  refine foldlM_eq_ok_foldl (fun found rule hrule => ?_) _
  rw [Selector.holdsOnChecked_eq (h rule hrule).selector (h rule hrule).years, ok_bind]
  split <;> rfl

section Schedules

variable {keepChecked : TimeSpan → Checked Bool} {keep : TimeSpan → Bool}

/-- Whether the solar times of the date matter for the spans of a class, with checks. -/
def needsSolarChecked (rules : InForce) (keep : TimeSpan → Checked Bool) : Checked Bool :=
  rules.consulted.anyM fun rule => do
    let kept ← keepM keep rule.spans
    return kept.any TimeSpan.isSolar

/-- What the governing rule says, with checks. -/
def governingScheduleChecked (governing : Option Rule) (record : SolarRecord)
    (keep : TimeSpan → Checked Bool) : Checked (Schedule × Bool) :=
  match governing with
  | none => .ok (.empty, true)
  | some rule =>
    match rule.kind with
    | .opened => do
      let kept ← keepM keep rule.spans
      return (← TimeSpan.resolveAllChecked record kept, true)
    | .closed | .unknown => .ok (.empty, false)

/-- What an additional rule makes of what was said before, with checks. -/
def applyAdditionalChecked (record : SolarRecord) (keep : TimeSpan → Checked Bool)
    (said : Schedule × Bool) (rule : Rule) : Checked (Schedule × Bool) :=
  match rule.kind with
  | .opened => do
    let kept ← keepM keep rule.spans
    return (said.1.union (← TimeSpan.resolveAllChecked record kept), said.2)
  | .closed =>
    if rule.spans.isEmpty then .ok (.empty, false)
    else do
      let kept ← keepM keep rule.spans
      return (said.1.diff (← TimeSpan.resolveAllChecked record kept), said.2)
  | .unknown => .ok said

/-- The minutes that the rules open by their spans of a class, with checks. -/
def scheduleChecked (rules : InForce) (record : SolarRecord) (keep : TimeSpan → Checked Bool) :
    Checked (Schedule × Bool) := do
  let said ← governingScheduleChecked rules.governing record keep
  rules.additional.foldlM (applyAdditionalChecked record keep) said

theorem SpansInBounds.of_mem_consulted {rules : InForce} (h : rules.SpansInBounds) {rule : Rule}
    (hmem : rule ∈ rules.consulted) : ∀ span ∈ rule.spans, span.InBounds := by
  rcases List.mem_append.1 hmem with hgoverning | hadditional
  · exact h.governing rule (Option.mem_toList.1 (List.mem_filter.1 hgoverning).1)
  · exact h.additional rule (List.mem_filter.1 hadditional).1

/-- Whether the sun matters is found out without a breach. -/
theorem needsSolarChecked_eq {rules : InForce} (h : rules.SpansInBounds)
    (hkeep : ∀ span, span.InBounds → keepChecked span = .ok (keep span)) :
    rules.needsSolarChecked keepChecked = .ok (rules.needsSolar keep) := by
  refine anyM_eq_ok_any fun rule hrule => ?_
  have hspans := h.of_mem_consulted hrule
  rw [keepM_eq_ok_filter fun span hspan => hkeep span (hspans span hspan), ok_bind]
  rfl

/-- The spans of a class come out alike, selected and resolved. -/
theorem keepM_bind_resolveAllChecked {β : Type} {rule : Rule}
    (h : ∀ span ∈ rule.spans, span.InBounds)
    (hkeep : ∀ span, span.InBounds → keepChecked span = .ok (keep span)) (record : SolarRecord)
    (next : Schedule → Checked β) : (keepM keepChecked rule.spans >>= fun kept =>
      TimeSpan.resolveAllChecked record kept >>= next) =
        next (TimeSpan.resolveAll record (rule.spans.filter keep)) := by
  rw [keepM_eq_ok_filter fun span hspan => hkeep span (h span hspan), ok_bind,
    TimeSpan.resolveAllChecked_eq fun span hspan => h span (List.mem_of_mem_filter hspan), ok_bind]

theorem governingScheduleChecked_eq {governing : Option Rule}
    (h : ∀ rule ∈ governing, ∀ span ∈ rule.spans, span.InBounds)
    (hkeep : ∀ span, span.InBounds → keepChecked span = .ok (keep span)) (record : SolarRecord) :
    governingScheduleChecked governing record keepChecked =
      .ok (governingSchedule governing record keep) := by
  cases governing with
  | none => rfl
  | some rule =>
    rw [governingScheduleChecked, governingSchedule]
    cases rule.kind with
    | opened => exact keepM_bind_resolveAllChecked (h rule rfl) hkeep record _
    | closed => rfl
    | unknown => rfl

theorem applyAdditionalChecked_eq {rule : Rule} (h : ∀ span ∈ rule.spans, span.InBounds)
    (hkeep : ∀ span, span.InBounds → keepChecked span = .ok (keep span)) (record : SolarRecord)
    (said : Schedule × Bool) : applyAdditionalChecked record keepChecked said rule =
      .ok (applyAdditional record keep said rule) := by
  rw [applyAdditionalChecked, applyAdditional]
  cases rule.kind with
  | opened => exact keepM_bind_resolveAllChecked h hkeep record _
  | closed =>
    dsimp only
    cases rule.spans.isEmpty with
    | true => rfl
    | false => exact keepM_bind_resolveAllChecked h hkeep record _
  | unknown => rfl

/-- The rules in force are evaluated without a breach, whatever the times of the sun are. -/
theorem scheduleChecked_eq {rules : InForce} (h : rules.SpansInBounds)
    (hkeep : ∀ span, span.InBounds → keepChecked span = .ok (keep span)) (record : SolarRecord) :
    rules.scheduleChecked record keepChecked = .ok (rules.schedule record keep) := by
  rw [scheduleChecked, governingScheduleChecked_eq h.governing hkeep, ok_bind, schedule]
  exact foldlM_eq_ok_foldl (fun said rule hrule =>
    applyAdditionalChecked_eq (h.additional rule hrule) hkeep record said) _

end Schedules

end InForce

end Timetable
