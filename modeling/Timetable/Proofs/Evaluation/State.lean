import Timetable.Evaluation.Agenda
import Timetable.Proofs.Failure
import Timetable.Proofs.Schedule.Bounds
import Timetable.Proofs.Solar.Known

/-!
The schedule of a date and the state at an instant, as values.

Evaluations keep the solar times that they ask for, but asking is all that they do
(`asking_scheduleAt`, `asking_isOpen`), and what they yield depends only on what is known. So the
schedule of a date (`scheduleOn`) and the state at an instant (`stateAt`) are functions of the state
in which the evaluation begins. `stateAt_of_scheduleOn` joins the two: the place is open in exactly
the minutes of the schedule, also where the expression is always open and is not evaluated at all.
-/

namespace Timetable

variable {Zone : Type}

/-! ### Selectors that match every date -/

theorem coversWeekday_of_isEveryDay {selector : Selector} (h : selector.isEveryDay = true)
    (hne : selector.weekdays.isEmpty = false) {day : Nat} (hday : day < 7) :
    Selector.coversWeekday selector.weekdays day = true := by
  simp only [Selector.isEveryDay, Bool.and_eq_true, Bool.or_eq_true, hne, Bool.false_eq_true,
    false_or, List.all_eq_true, List.mem_range] at h
  exact h.2 day hday

theorem holdsOn_of_isEveryDay {selector : Selector} (h : selector.isEveryDay = true)
    (holidays : HolidayCalendar) (date : Date) : selector.holdsOn holidays date = true := by
  have hlists := h
  simp only [Selector.isEveryDay, Bool.and_eq_true] at hlists
  obtain ⟨⟨⟨⟨hyears, hdates⟩, hweeks⟩, hholidays⟩, -⟩ := hlists
  have hweekdays : anyHolds (·.holdsOn holidays date) selector.weekdays = true := by
    cases hne : selector.weekdays.isEmpty with
    | true => simp [anyHolds, hne]
    | false =>
      have hcovers := coversWeekday_of_isEveryDay h hne date.weekday.index_lt
      simp only [Selector.coversWeekday, List.any_eq_true] at hcovers
      obtain ⟨range, hmem, hrange⟩ := hcovers
      simp only [anyHolds, hne, Bool.false_or, List.any_eq_true]
      refine ⟨range, hmem, ?_⟩
      cases range with
      | days first last => exact hrange
      | holiday kind => simp at hrange
  simp only [Selector.holdsOn, Bool.and_eq_true]
  refine ⟨⟨⟨⟨?_, ?_⟩, ?_⟩, hweekdays⟩, ?_⟩
  · simp [anyHolds, hyears]
  · simp [anyHolds, hdates]
  · simp [anyHolds, hweeks]
  · simp [anyHolds, hholidays]

/-- The schedule from 00:00 to 24:00. -/
def Schedule.wholeDay : Schedule :=
  ⟨[⟨0, ClockTime.endOfDay.minutes, by decide, ClockTime.endOfDay.minutes_le⟩],
    List.pairwise_singleton _ _⟩

namespace Agenda

variable {agenda : Agenda} {hours : SolarHours Zone}

/-! ### Evaluations only ask -/

/-- Whether an expression that mentions the sun has no source of times. -/
def lacksSource (agenda : Agenda) (hours : SolarHours Zone) : Bool :=
  !agenda.expression.solarEvents.isEmpty && !hours.isConfigured

theorem run_checkConfigured (agenda : Agenda) (hours : SolarHours Zone) :
    agenda.checkConfigured.run.run hours =
      (if agenda.lacksSource hours = true then .error .notConfigured else .ok (), hours) := by
  change (if agenda.lacksSource hours = true then throw .notConfigured else pure ()
    : SolarM Zone Unit).run.run hours = _
  split <;> rfl

theorem asking_checkConfigured (agenda : Agenda) :
    Asking (agenda.checkConfigured : SolarM Zone Unit).run := by
  have heq : (agenda.checkConfigured : SolarM Zone Unit).run = _ :=
    funext (run_checkConfigured agenda)
  rw [heq]
  exact Asking.look fun configured =>
    if !agenda.expression.solarEvents.isEmpty && !configured
      then Except.error SolarError.notConfigured else .ok ()

theorem asking_ownSchedule (agenda : Agenda) (date : Date) (keep : TimeSpan → Bool) :
    Asking (agenda.ownSchedule date keep : SolarM Zone (Schedule × Bool)).run := by
  unfold ownSchedule
  dsimp only
  split
  · exact asking_bind (Asking.record date) fun _ => asking_pure _
  · exact asking_bind (asking_pure _) fun _ => asking_pure _

/-- A date whose own rules have been looked at goes on with what the day before leaves to it. -/
def continued (agenda : Agenda) (date : Date) (own : Schedule × Bool) : SolarM Zone Schedule :=
  match if own.2 then date.previous? else none with
  | none => return own.1.withinDay
  | some previous => do
    let before ← agenda.ownSchedule previous TimeSpan.mayEndNextDay
    return own.1.withinDay.union before.1.nextDayPart

theorem scheduleAt_eq (agenda : Agenda) (date : Date) :
    (agenda.scheduleAt date : SolarM Zone Schedule) = agenda.checkConfigured >>= fun _ =>
      agenda.ownSchedule date (fun _ => true) >>= agenda.continued date := rfl

theorem asking_continued (agenda : Agenda) (date : Date) (own : Schedule × Bool) :
    Asking (agenda.continued date own : SolarM Zone Schedule).run := by
  unfold continued
  split
  · exact asking_pure _
  · exact asking_bind (asking_ownSchedule agenda _ _) fun _ => asking_pure _

theorem asking_scheduleAt (agenda : Agenda) (date : Date) :
    Asking (agenda.scheduleAt date : SolarM Zone Schedule).run := by
  rw [scheduleAt_eq]
  refine asking_bind (asking_checkConfigured agenda) fun _ => ?_
  exact asking_bind (asking_ownSchedule agenda date _) (asking_continued agenda date)

theorem asking_isOpen (agenda : Agenda) (instant : Instant) :
    Asking (agenda.isOpen instant : SolarM Zone Bool).run := by
  unfold isOpen
  split
  · exact asking_pure _
  · exact asking_bind (asking_scheduleAt agenda _) fun _ => asking_pure _

theorem asking_day (agenda : Agenda) (date : Date) :
    Asking (agenda.day date : SolarM Zone DayReport).run :=
  asking_bind (asking_scheduleAt agenda date) fun _ => asking_pure _

/-! ### The schedule of a date -/

/-- The schedule of a date in a state of knowledge, or why there is none. -/
def scheduleOn (agenda : Agenda) (hours : SolarHours Zone) (date : Date) :
    Except SolarError Schedule :=
  outcome (agenda.scheduleAt date) hours

/-- What the rules of a date say by their spans of a class, in a state of knowledge. -/
def ownOn (agenda : Agenda) (hours : SolarHours Zone) (date : Date) (keep : TimeSpan → Bool) :
    Except SolarError (Schedule × Bool) :=
  let rules := agenda.inForce date
  if rules.needsSolar keep then (hours.known date).map fun record => rules.schedule record keep
  else .ok (rules.schedule default keep)

theorem outcome_ownSchedule (agenda : Agenda) (hours : SolarHours Zone) (date : Date)
    (keep : TimeSpan → Bool) :
    outcome (agenda.ownSchedule date keep) hours = agenda.ownOn hours date keep := by
  unfold ownSchedule ownOn
  dsimp only
  split
  · rw [outcome_bind (Asking.record date) (fun _ => asking_pure _)]
    rw [SolarHours.outcome_record]
    cases hours.known date <;> rfl
  · rfl

theorem outcome_checkConfigured (agenda : Agenda) (hours : SolarHours Zone) :
    outcome agenda.checkConfigured hours =
      if agenda.lacksSource hours = true then .error .notConfigured else .ok () := by
  rw [outcome, run_checkConfigured]

/-- The minutes of the date itself, and those that the day before leaves to it. -/
theorem scheduleOn_eq (agenda : Agenda) (hours : SolarHours Zone) (date : Date) :
    agenda.scheduleOn hours date =
      if agenda.lacksSource hours = true then .error .notConfigured
      else agenda.ownOn hours date (fun _ => true) >>= fun own =>
        match if own.2 then date.previous? else none with
        | none => .ok own.1.withinDay
        | some previous =>
          agenda.ownOn hours previous TimeSpan.mayEndNextDay >>= fun before =>
            .ok (own.1.withinDay.union before.1.nextDayPart) := by
  rw [scheduleOn, scheduleAt_eq, outcome_bind (asking_checkConfigured agenda)
    (fun _ => asking_bind (asking_ownSchedule agenda date _) (asking_continued agenda date)),
    outcome_checkConfigured]
  split
  · rfl
  · change outcome (agenda.ownSchedule date (fun _ => true) >>= agenda.continued date) hours = _
    rw [outcome_bind (asking_ownSchedule agenda date _) (asking_continued agenda date),
      outcome_ownSchedule]
    refine bind_congr ?_
    intro own
    unfold continued
    split
    · rfl
    · rw [outcome_bind (asking_ownSchedule agenda _ _) (fun _ => asking_pure _),
        outcome_ownSchedule]
      rfl

theorem scheduleOn_of_ownOn {date : Date} {own : Schedule × Bool}
    (hsource : agenda.lacksSource hours = false)
    (hown : agenda.ownOn hours date (fun _ => true) = .ok own) :
    agenda.scheduleOn hours date =
      match if own.2 then date.previous? else none with
      | none => .ok own.1.withinDay
      | some previous =>
        agenda.ownOn hours previous TimeSpan.mayEndNextDay >>= fun before =>
          .ok (own.1.withinDay.union before.1.nextDayPart) := by
  rw [scheduleOn_eq, hsource, hown]
  rfl

/-- How a schedule comes about, if there is one. -/
theorem scheduleOn_eq_ok {date : Date} {schedule : Schedule}
    (h : agenda.scheduleOn hours date = .ok schedule) :
    ∃ own, agenda.ownOn hours date (fun _ => true) = .ok own ∧
      ((own.2 = true ∧ ∃ previous before, date.previous? = some previous ∧
          agenda.ownOn hours previous TimeSpan.mayEndNextDay = .ok before ∧
          schedule = own.1.withinDay.union before.1.nextDayPart) ∨
        ((own.2 = false ∨ date.previous? = none) ∧ schedule = own.1.withinDay)) := by
  rw [scheduleOn_eq] at h
  split at h
  · cases h
  · obtain ⟨own, hown, h⟩ := bind_eq_ok.1 h
    refine ⟨own, hown, ?_⟩
    cases hkeeps : own.2 with
    | false =>
      simp only [hkeeps, Bool.false_eq_true, ↓reduceIte, Except.ok.injEq] at h
      exact .inr ⟨.inl rfl, h.symm⟩
    | true =>
      simp only [hkeeps, ↓reduceIte] at h
      cases hprevious : date.previous? with
      | none =>
        simp only [hprevious, Except.ok.injEq] at h
        exact .inr ⟨.inr rfl, h.symm⟩
      | some previous =>
        simp only [hprevious] at h
        obtain ⟨before, hbefore, h⟩ := bind_eq_ok.1 h
        exact .inl ⟨rfl, previous, before, rfl, hbefore, (Except.ok.inj h).symm⟩

/-- A schedule holds minutes of its date only. -/
theorem withinDay_of_scheduleOn {date : Date} {schedule : Schedule}
    (h : agenda.scheduleOn hours date = .ok schedule) : schedule.WithinDay := by
  obtain ⟨own, -, ⟨-, _, before, -, -, rfl⟩ | ⟨-, rfl⟩⟩ := scheduleOn_eq_ok h
  · exact Schedule.withinDay_union (Schedule.withinDay_withinDay _)
      (Schedule.withinDay_nextDayPart _)
  · exact Schedule.withinDay_withinDay _

/-! ### Expressions that are always open -/

/-- An expression that is always open is a single rule for the whole of every day. -/
theorem exists_rule_of_isAlwaysOpen {expression : Expression}
    (h : expression.isAlwaysOpen = true) :
    ∃ rule, expression.rules = [rule] ∧ rule.kind = .opened ∧ rule.additional = false ∧
      rule.selector.isEveryDay = true ∧ rule.spans = [.wholeDay] := by
  unfold Expression.isAlwaysOpen at h
  split at h
  · rename_i rule hrules
    simp only [Rule.isAlwaysOpen, Bool.and_eq_true, beq_iff_eq, Bool.not_eq_true'] at h
    obtain ⟨⟨⟨hkind, hadditional⟩, hevery⟩, hspans⟩ := h
    exact ⟨rule, hrules, hkind, hadditional, hevery, hspans⟩
  · cases h

/-- Without any other rule, one that is open all day every day governs each date. -/
theorem ownOn_of_isAlwaysOpen (h : agenda.expression.isAlwaysOpen = true) (hours : SolarHours Zone)
    (date : Date) (keep : TimeSpan → Bool) : agenda.ownOn hours date keep =
      .ok (TimeSpan.resolveAll default ([TimeSpan.wholeDay].filter keep), true) := by
  obtain ⟨rule, hrules, hkind, hadditional, hevery, hspans⟩ := exists_rule_of_isAlwaysOpen h
  have hforce : agenda.inForce date = { governing := some rule } := by
    simp [inForce, InForce.on, InForce.push, hrules, hadditional,
      holdsOn_of_isEveryDay hevery agenda.holidays date]
  have hneeds : InForce.needsSolar { governing := some rule } keep = false := by
    simp [InForce.needsSolar, InForce.consulted, hkind, hspans, TimeSpan.wholeDay,
      TimeSpan.ofClock, TimeSpan.isSolar, Moment.isSolar]
  simp only [ownOn, hforce, hneeds, InForce.schedule, InForce.governingSchedule, hkind, hspans,
    Bool.false_eq_true, if_false, List.foldl_nil]

/-- An expression that is always open does not mention the sun. -/
theorem lacksSource_of_isAlwaysOpen (h : agenda.expression.isAlwaysOpen = true)
    (hours : SolarHours Zone) : agenda.lacksSource hours = false := by
  obtain ⟨rule, hrules, -, -, -, hspans⟩ := exists_rule_of_isAlwaysOpen h
  have hevents : agenda.expression.solarEvents = [] := by
    simp [Expression.solarEvents, hrules, hspans, TimeSpan.mentions, TimeSpan.wholeDay,
      TimeSpan.ofClock, Moment.mentions]
  simp [lacksSource, hevents]

/-- Its schedule is the whole day, whatever is known about the sun and the holidays: nothing has to
be asked, and no day leaves anything to the next one. -/
theorem scheduleOn_of_isAlwaysOpen (h : agenda.expression.isAlwaysOpen = true)
    (hours : SolarHours Zone) (date : Date) : agenda.scheduleOn hours date = .ok .wholeDay := by
  rw [scheduleOn_of_ownOn (lacksSource_of_isAlwaysOpen h hours)
    (ownOn_of_isAlwaysOpen h hours date _), if_pos rfl]
  cases date.previous? with
  | none => exact congrArg Except.ok (by decide)
  | some previous =>
    dsimp only
    rw [ownOn_of_isAlwaysOpen h]
    exact congrArg Except.ok (by decide)

theorem contains_of_isAlwaysOpen (h : agenda.expression.isAlwaysOpen = true) {date : Date}
    {schedule : Schedule} (hschedule : agenda.scheduleOn hours date = .ok schedule) {minute : Nat}
    (hday : minute < 1440) : schedule.Contains minute := by
  rw [scheduleOn_of_isAlwaysOpen h] at hschedule
  obtain rfl := Except.ok.inj hschedule
  exact ⟨_, List.mem_singleton_self _, Nat.zero_le _, hday⟩

/-! ### The state at an instant -/

/-- Whether the place is open at an instant, in a state of knowledge. -/
def stateAt (agenda : Agenda) (hours : SolarHours Zone) (instant : Instant) :
    Except SolarError Bool :=
  outcome (agenda.isOpen instant) hours

theorem stateAt_of_isAlwaysOpen (h : agenda.expression.isAlwaysOpen = true)
    (hours : SolarHours Zone) (instant : Instant) : agenda.stateAt hours instant = .ok true := by
  simp [stateAt, isOpen, h]

theorem stateAt_of_not_isAlwaysOpen (h : agenda.expression.isAlwaysOpen = false)
    (hours : SolarHours Zone) (instant : Instant) :
    agenda.stateAt hours instant = (agenda.scheduleOn hours instant.date).map fun schedule =>
      decide (schedule.Contains instant.clockTime.minutes) := by
  unfold stateAt isOpen
  rw [h]
  change outcome (agenda.scheduleAt instant.date >>= _) hours = _
  rw [outcome_bind (asking_scheduleAt agenda _) (fun _ => asking_pure _)]
  change agenda.scheduleOn hours instant.date >>= _ = _
  cases agenda.scheduleOn hours instant.date <;> rfl

/-- The place is open in the minutes of the schedule of the date, and in no others. -/
theorem stateAt_of_scheduleOn {instant : Instant} {schedule : Schedule}
    (h : agenda.scheduleOn hours instant.date = .ok schedule) :
    agenda.stateAt hours instant = .ok (decide (schedule.Contains instant.clockTime.minutes)) := by
  cases halways : agenda.expression.isAlwaysOpen with
  | true =>
    have hcontains : schedule.Contains instant.clockTime.minutes :=
      contains_of_isAlwaysOpen halways h instant.time.minutes_lt
    rw [stateAt_of_isAlwaysOpen halways, decide_eq_true hcontains]
  | false => rw [stateAt_of_not_isAlwaysOpen halways, h]; rfl

/-- A place that is open from 20:00 to 02:00, where there are no holidays. -/
def evenings : Agenda where
  expression :=
    { given := "20:00-26:00"
      source := "20:00-26:00"
      rules := [{ spans := [.ofClock ⟨1200, by decide⟩ ⟨1560, by decide⟩], kind := .opened }] }
  holidays := .empty

/-- 2 January of year 1, a Tuesday. -/
def tuesday : Date := ⟨1, by decide, by decide⟩

end Agenda

end Timetable
