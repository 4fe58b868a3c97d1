import Timetable.Proofs.Evaluation.Failing

/-!
What the schedule of a date depends on.

An expression is evaluated in a configuration: with some holidays, and with what is known about the
sun. Two configurations are alike on a date if it is a holiday in both or in neither, and if in both
the events that the expression mentions are known and happen in the same minutes
(`Configuration.AlikeOn`). If they are alike on a date and on the day before, then both have a
schedule of the date, and it is the same one (`Configuration.exists_scheduleOn`). So the holidays
and the times of all other dates do not matter, nor do seconds and other events.

That a place is known wherever something was computed holds of every session
(`Session.keepsAtPlace_runAll`).
-/

namespace Timetable

variable {Zone : Type}

/-! ### Sessions keep times at a place -/

namespace Session

variable [BEq Zone] {session : Session Zone}

theorem keepsAtPlace_run (h : session.solar.KeepsAtPlace) (operation : Operation Zone) :
    (session.run operation).2.solar.KeepsAtPlace := by
  have hquestion : operation.isQuestion = true →
      (session.run operation).2.solar.KeepsAtPlace :=
    fun hquestion => h.grows (session.grows_run hquestion)
  cases operation with
  | setLocation location =>
    rw [run]
    exact h.setLocation location
  | setAlmanac _ | clear =>
    rw [run]
    exact SolarHours.keepsAtPlace_of_emptyCache rfl
  | setOverride _ _ | removeOverride _ | setDefault _ | setHolidays _ | solarState
  | elsewhere _ _ =>
    rw [run]
    exact h
  | attempt operation =>
    rw [run]
    exact keepsAtPlace_run h operation
  | giveUp asked =>
    rw [run]
    exact h.grows (.askAll session.solar asked)
  | _ => exact hquestion rfl

/-- After any operations, something is kept only for a place. -/
theorem keepsAtPlace_runAll (operations : List (Operation Zone)) (h : session.solar.KeepsAtPlace) :
    (session.runAll operations).2.solar.KeepsAtPlace :=
  runAll_preserves (p := fun session => session.solar.KeepsAtPlace)
    (fun _ operation _ hkeeps => keepsAtPlace_run hkeeps operation) h

end Session

/-! ### Configurations -/

/-- What an expression is evaluated with. -/
structure Configuration (Zone : Type) where
  holidays : HolidayCalendar
  hours : SolarHours Zone
  keepsAtPlace : hours.KeepsAtPlace

namespace Configuration

variable {expression : Expression} {a b : Configuration Zone} {date : Date}

/-- The schedule of a date, or why there is none. -/
def scheduleOn (configuration : Configuration Zone) (expression : Expression) (date : Date) :
    Except SolarError Schedule :=
  Agenda.scheduleOn ⟨expression, configuration.holidays⟩ configuration.hours date

/-- Two configurations that have the same holidays on a date and know its times, in which the events
that the expression mentions happen in the same minutes. -/
structure AlikeOn (expression : Expression) (a b : Configuration Zone) (date : Date) : Prop where
  holidays_eq : ∀ kind, a.holidays kind date = b.holidays kind date
  known : ∃ record other, a.hours.known date = .ok record ∧ b.hours.known date = .ok other ∧
    ∀ event ∈ expression.solarEvents, record.SameMinute other event

theorem AlikeOn.inForce_eq (h : AlikeOn expression a b date) :
    Agenda.inForce ⟨expression, a.holidays⟩ date = Agenda.inForce ⟨expression, b.holidays⟩ date :=
  InForce.on_congr h.holidays_eq expression.rules

theorem AlikeOn.lacksSource_eq_false (h : AlikeOn expression a b date) :
    Agenda.lacksSource ⟨expression, a.holidays⟩ a.hours = false ∧
      Agenda.lacksSource ⟨expression, b.holidays⟩ b.hours = false := by
  obtain ⟨record, other, hrecord, hother, -⟩ := h.known
  have ha : a.hours.isConfigured = true := a.hours.isConfigured_of_known a.keepsAtPlace hrecord
  have hb : b.hours.isConfigured = true := b.hours.isConfigured_of_known b.keepsAtPlace hother
  simp only [Agenda.lacksSource, ha, hb, Bool.not_true, Bool.and_false, and_self]

/-- The rules of a date say the same in both configurations, by all of their spans or by those of a
class. -/
theorem AlikeOn.exists_ownOn (h : AlikeOn expression a b date) (keep : TimeSpan → Bool) :
    ∃ own, Agenda.ownOn ⟨expression, a.holidays⟩ a.hours date keep = .ok own ∧
      Agenda.ownOn ⟨expression, b.holidays⟩ b.hours date keep = .ok own := by
  obtain ⟨record, other, hrecord, hother, hminutes⟩ := h.known
  refine ⟨_, Agenda.ownOn_of_known hrecord keep, ?_⟩
  rw [Agenda.ownOn_of_known hother keep, ← h.inForce_eq]
  refine congrArg Except.ok (InForce.schedule_congr fun rule hrule span hspan _ event hevent => ?_)
  have hmem : rule ∈ expression.rules := (Agenda.mem_consulted_iff.1 hrule).mem_rules
  exact (hminutes event (Expression.mem_solarEvents.2 ⟨rule, hmem, span, hspan, hevent⟩)).symm

/-- Configurations that are alike on a date and on the day before have the same schedule of the
date. -/
theorem exists_scheduleOn (hdate : AlikeOn expression a b date)
    (hbefore : ∀ previous ∈ date.previous?, AlikeOn expression a b previous) :
    ∃ schedule, a.scheduleOn expression date = .ok schedule ∧
      b.scheduleOn expression date = .ok schedule := by
  obtain ⟨hsourceA, hsourceB⟩ := hdate.lacksSource_eq_false
  obtain ⟨own, hownA, hownB⟩ := hdate.exists_ownOn fun _ => true
  rw [scheduleOn, scheduleOn, Agenda.scheduleOn_of_ownOn hsourceA hownA,
    Agenda.scheduleOn_of_ownOn hsourceB hownB]
  cases hnight : if own.2 then date.previous? else none with
  | none => exact ⟨_, rfl, rfl⟩
  | some previous =>
    have hprevious : date.previous? = some previous := (Option.ite_none_right_eq_some.1 hnight).2
    obtain ⟨before, hbeforeA, hbeforeB⟩ :=
      (hbefore previous hprevious).exists_ownOn TimeSpan.mayEndNextDay
    dsimp only
    rw [hbeforeA, hbeforeB]
    exact ⟨_, rfl, rfl⟩

/-- The same day everywhere and always. -/
def always (record : SolarRecord) : Configuration Unit where
  holidays := .empty
  hours := .everyDay record
  keepsAtPlace := SolarHours.keepsAtPlace_of_emptyCache rfl

/-- A day with the sun up from 07:00:30 to 20:00:59, and without twilight. -/
def clippedDay : SolarRecord :=
  ⟨⟨25230000000000, by decide⟩, ⟨25230000000000, by decide⟩, ⟨72059000000000, by decide⟩,
    ⟨72059000000000, by decide⟩⟩

/-- 31 December before year 1, a Sunday. -/
def sunday : Date := ⟨-1, by decide, by decide⟩

/-- A holiday week after a weekend of which the times are given. -/
def holidayWeek : Configuration Unit where
  holidays := fun _ date => date.number == 3
  hours :=
    ((SolarHours.unknown.setOverride default clippedDay).setOverride sunday clippedDay).setOverride
      Agenda.tuesday default
  keepsAtPlace := SolarHours.keepsAtPlace_of_emptyCache rfl

/-- Neither the seconds matter nor dawn and dusk, nor what is known of the days that follow. -/
theorem exists_scheduleOn_nights :
    AlikeOn Agenda.nights.expression (always Agenda.brightDay) holidayWeek default ∧
      (∀ previous ∈ Date.previous? default,
        AlikeOn Agenda.nights.expression (always Agenda.brightDay) holidayWeek previous) ∧
      ∃ schedule,
        (always Agenda.brightDay).scheduleOn Agenda.nights.expression default = .ok schedule ∧
        holidayWeek.scheduleOn Agenda.nights.expression default = .ok schedule := by
  have hminutes : ∀ event ∈ Agenda.nights.expression.solarEvents,
      Agenda.brightDay.SameMinute clippedDay event := by
    intro event hmem
    have hevents : Agenda.nights.expression.solarEvents = [.sunrise, .sunset] := by decide
    rw [hevents] at hmem
    obtain rfl | rfl := List.mem_pair.1 hmem
    · exact (by decide : Agenda.brightDay.sunrise.minutes = clippedDay.sunrise.minutes)
    · exact (by decide : Agenda.brightDay.sunset.minutes = clippedDay.sunset.minutes)
  have hdate : AlikeOn Agenda.nights.expression (always Agenda.brightDay) holidayWeek default :=
    ⟨fun _ => rfl, Agenda.brightDay, clippedDay, by decide, by decide, hminutes⟩
  have hbefore : ∀ previous ∈ Date.previous? default,
      AlikeOn Agenda.nights.expression (always Agenda.brightDay) holidayWeek previous := by
    intro previous hprevious
    obtain rfl : sunday = previous := Option.some.inj hprevious
    exact ⟨fun _ => rfl, Agenda.brightDay, clippedDay, by decide, by decide, hminutes⟩
  exact ⟨hdate, hbefore, exists_scheduleOn hdate hbefore⟩

end Configuration

end Timetable
