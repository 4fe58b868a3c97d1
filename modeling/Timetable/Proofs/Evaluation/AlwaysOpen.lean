import Timetable.Proofs.Evaluation.State

/-!
Places that are always open, and selectors that match every date.

Whether a place is always open is seen from the text of its expression, and then nothing is
evaluated. The evaluation would say the same (`scheduleOn_of_isAlwaysOpen`): the rule matches every
date, its span is over at midnight, and the sun plays no part. What is seen of a selector is also
all that there is to see, as far as weekdays go (`Selector.isEveryDay_iff`): the weekdays are looked
through one by one, and each of them is the weekday of some date.
-/

namespace Timetable

variable {Zone : Type}

/-! ### Weekdays -/

/-- The date with a weekday in the week that begins on 1 January of year 1. -/
def Date.onWeekday (weekday : Weekday) : Date :=
  ⟨weekday.index, by omega, by have := weekday.index_lt; omega⟩

theorem Date.weekday_onWeekday (weekday : Weekday) : (onWeekday weekday).weekday = weekday := by
  cases weekday <;> rfl

namespace Selector

variable {selector : Selector}

/-- Whether the selector asks at most for a weekday, or for holidays among the weekdays. -/
structure AsksWeekday (selector : Selector) : Prop where
  years_eq : selector.years = []
  dates_eq : selector.dates = []
  weeks_eq : selector.weeks = []
  holidays_eq : selector.holidays = []

theorem isEveryDay_eq (h : selector.AsksWeekday) : selector.isEveryDay =
    (selector.weekdays.isEmpty || (List.range 7).all (coversWeekday selector.weekdays)) := by
  simp only [isEveryDay, h.years_eq, h.dates_eq, h.weeks_eq, h.holidays_eq, List.isEmpty_nil,
    Bool.true_and]

/-- Where there are no holidays, only the weekday of a date matters. -/
theorem holdsOn_empty_eq (h : selector.AsksWeekday) (date : Date) :
    selector.holdsOn .empty date =
      (selector.weekdays.isEmpty || coversWeekday selector.weekdays date.weekday.index) := by
  have hweekdays : selector.weekdays.any (·.holdsOn .empty date) =
      coversWeekday selector.weekdays date.weekday.index := by
    refine congrArg selector.weekdays.any (funext fun range => ?_)
    cases range with
    | days first last => rfl
    | holiday kind => rfl
  simp only [holdsOn, anyHolds, hweekdays, h.years_eq, h.dates_eq, h.weeks_eq, h.holidays_eq,
    List.isEmpty_nil, Bool.true_or, Bool.true_and, Bool.and_true]

/-- Such a selector is seen to match every date just if it does where there are no holidays. -/
theorem isEveryDay_iff (h : selector.AsksWeekday) :
    selector.isEveryDay = true ↔ ∀ date, selector.holdsOn .empty date = true := by
  constructor
  · intro hevery date
    exact holdsOn_of_isEveryDay hevery .empty date
  · intro hall
    rw [isEveryDay_eq h, Bool.or_eq_true, List.all_eq_true]
    refine (Bool.eq_false_or_eq_true selector.weekdays.isEmpty).imp_right fun hsome day hday => ?_
    -- Some date falls on the weekday, and it is matched by one of the ranges.
    have hdate := hall (.onWeekday (.ofIndex day))
    rw [holdsOn_empty_eq h, hsome, Bool.false_or, Date.weekday_onWeekday, Weekday.index_ofIndex,
      Nat.mod_eq_of_lt (List.mem_range.1 hday)] at hdate
    exact hdate

end Selector

namespace Agenda

/-! ### The shortcut -/

/-- If a place is seen to be always open, its schedule is the whole of every date; and as in all
other places, it is open in just the minutes of its schedule. A selector of weekdays that is not
seen to match every date does not match all of them. -/
theorem isAlwaysOpen_exact :
    (∀ (agenda : Agenda) (hours : SolarHours Zone) (instant : Instant),
      (agenda.expression.isAlwaysOpen = true →
        agenda.scheduleOn hours instant.date = .ok .wholeDay) ∧
      ∀ schedule, agenda.scheduleOn hours instant.date = .ok schedule →
        agenda.stateAt hours instant =
          .ok (decide (schedule.Contains instant.clockTime.minutes))) ∧
    ∀ selector : Selector, selector.AsksWeekday → selector.isEveryDay = false →
      ∃ date, selector.holdsOn .empty date = false := by
  refine ⟨fun agenda hours instant => ⟨fun halways => ?_, fun schedule hschedule => ?_⟩, ?_⟩
  · exact scheduleOn_of_isAlwaysOpen halways hours instant.date
  · exact stateAt_of_scheduleOn hschedule
  · intro selector hweekday hnot
    have hsome : ¬ ∀ date, selector.holdsOn .empty date = true :=
      mt (Selector.isEveryDay_iff hweekday).2 (Bool.eq_false_iff.1 hnot)
    obtain ⟨date, hdate⟩ := Classical.not_forall.1 hsome
    exact ⟨date, Bool.eq_false_iff.2 hdate⟩

/-- A place that is open from Friday to Monday and from Tuesday to Thursday. -/
def wholeWeek : Agenda where
  expression :=
    { given := "Fr-Mo,Tu-Th 00:00-24:00"
      source := "Fr-Mo,Tu-Th 00:00-24:00"
      rules :=
        [{ selector := { weekdays := [.days .friday .monday, .days .tuesday .thursday] }
           spans := [.wholeDay], kind := .opened }] }
  holidays := .empty

/-- The selector of working days and holidays. -/
def workingDays : Selector := { weekdays := [.days .monday .saturday, .holiday .publicHoliday] }

/-- The week is whole if it is put together of two ranges, and not if only a holiday could fall on a
Sunday. -/
theorem isAlwaysOpen_wholeWeek :
    wholeWeek.expression.isAlwaysOpen = true ∧
      wholeWeek.scheduleOn .unknown default = .ok .wholeDay ∧
      wholeWeek.stateAt .unknown (Date.lastInstant default) = .ok true ∧
      workingDays.AsksWeekday ∧ workingDays.isEveryDay = false ∧
      ∃ date, workingDays.holdsOn .empty date = false := by
  have halways : wholeWeek.expression.isAlwaysOpen = true := by decide
  have hweekday : workingDays.AsksWeekday := ⟨rfl, rfl, rfl, rfl⟩
  have hnot : workingDays.isEveryDay = false := by decide
  obtain ⟨hplace, hselector⟩ := isAlwaysOpen_exact
  obtain ⟨hshortcut, hstate⟩ := hplace wholeWeek .unknown (Date.lastInstant default)
  have hschedule := hshortcut halways
  exact ⟨halways, hschedule, hstate .wholeDay hschedule, hweekday, hnot,
    hselector workingDays hweekday hnot⟩

end Agenda

end Timetable
