import Timetable.Evaluation.NextChange
import Timetable.Proofs.Arithmetic.Spans

/-!
Checked evaluation: the state at an instant, the schedule and the report of a day, and the search
for the next change.

An evaluation that is checked ends at the first breach, with whatever is known about the sun by
then (`CheckedM`). Dates are not taken for granted anywhere: the neighbour of a date and the instant
of a clock time are asked for, and each evaluation says what it does without them. Only rules in
bounds are evaluated (`Agenda.RulesReckonable`); the almanac may answer whatever it wants.
-/

namespace Timetable

variable {Zone : Type}

open Width

/-! ### Evaluations that end at a breach -/

/-- An evaluation that may ask for solar times, and that ends at a breach. -/
abbrev CheckedM (Zone : Type) := ExceptT Breach (StateM (SolarHours Zone))

section Embeddings

variable {ε α β : Type}

/-- A calculation as a part of an evaluation. -/
def ofChecked (calculation : Checked α) : ExceptT ε (CheckedM Zone) α :=
  ExceptT.mk (ExceptT.mk fun hours => (calculation.map .ok, hours))

/-- An evaluation in which nothing is checked. -/
def unchecked (evaluation : ExceptT ε (StateM (SolarHours Zone)) α) : ExceptT ε (CheckedM Zone) α :=
  ExceptT.mk (ExceptT.lift evaluation.run)

/-- An evaluation goes on with the result of a calculation that is in order. -/
theorem ofChecked_bind {calculation : Checked α} {value : α} (h : calculation = .ok value)
    (next : α → ExceptT ε (CheckedM Zone) β) : ofChecked calculation >>= next = next value := by
  subst h
  rfl

theorem ofChecked_eq {calculation : Checked α} {value : α} (h : calculation = .ok value) :
    (ofChecked calculation : ExceptT ε (CheckedM Zone) α) = unchecked (pure value) := by
  subst h
  rfl

/-- What follows an evaluation without checks may follow it before they are added. -/
theorem run_unchecked_bind (evaluation : ExceptT ε (StateM (SolarHours Zone)) α)
    {nextChecked : Except ε α → CheckedM Zone β} {next : Except ε α → StateM (SolarHours Zone) β}
    (h : ∀ outcome, nextChecked outcome = ExceptT.lift (next outcome)) :
    (unchecked evaluation).run >>= nextChecked = ExceptT.lift (evaluation.run >>= next) := by
  obtain rfl : nextChecked = fun outcome => ExceptT.lift (next outcome) := funext h
  exact (monadLift_bind evaluation.run next).symm

theorem unchecked_bind (first : ExceptT ε (StateM (SolarHours Zone)) α)
    (next : α → ExceptT ε (StateM (SolarHours Zone)) β) :
    unchecked (first >>= next) = unchecked first >>= fun value => unchecked (next value) := by
  refine ExceptT.ext (.symm ?_)
  change _ = ExceptT.lift (first >>= next).run
  rw [ExceptT.run_bind, ExceptT.run_bind]
  exact run_unchecked_bind first fun outcome => by cases outcome <;> rfl

end Embeddings

/-! ### Instants -/

/-- The instant at which a clock shows a time, with checks: the time is taken as a duration, whose
milliseconds have to fit. -/
def Date.atChecked (date : Date) (time : ClockTime) : Checked (Option Instant) := do
  let seconds ← signed64.times time.minutes 60
  let _ ← signed64.times seconds 1000
  return date.at? time

/-- Clock times are short: their milliseconds fit by far. -/
theorem Date.atChecked_eq (date : Date) (time : ClockTime) :
    date.atChecked time = .ok (date.at? time) := by
  have hle := time.minutes_le
  rw [atChecked, times_bind (fits_signed64.2 (by omega)), times_bind (fits_signed64.2 (by omega))]
  rfl

namespace Agenda

/-- The periods of a date, with checks. -/
def periodsOfChecked (date : Date) (schedule : Schedule) : Checked (List Period) := do
  let found ← schedule.intervals.mapM fun interval => do
    let start ← date.atChecked interval.startTime
    let stop ← date.atChecked interval.stopTime
    return start.bind fun start => stop.map fun stop => (⟨start, stop⟩ : Period)
  return found.filterMap id

/-- The periods of a date are found without a breach; those without an instant are left out as ever.
-/
theorem periodsOfChecked_eq (date : Date) (schedule : Schedule) :
    periodsOfChecked date schedule = .ok (periodsOf date schedule) := by
  have hperiod : ∀ interval ∈ schedule.intervals, (do
      let start ← date.atChecked interval.startTime
      let stop ← date.atChecked interval.stopTime
      return start.bind fun start => stop.map fun stop => (⟨start, stop⟩ : Period)) =
        (.ok ((date.at? interval.startTime).bind fun start =>
          (date.at? interval.stopTime).map fun stop => ⟨start, stop⟩) : Checked _) := by
    intro interval _
    rw [Date.atChecked_eq, ok_bind, Date.atChecked_eq, ok_bind]
    rfl
  rw [periodsOfChecked, mapM_eq_ok_map hperiod, ok_bind, List.filterMap_map, Function.id_comp,
    periodsOf]
  simp only [Option.bind_eq_bind, Option.map_eq_bind]
  rfl

/-- The first change within a date after an instant, with checks. -/
def changeWithinChecked (date : Date) (schedule : Schedule) (after : Instant) :
    Checked (Option Instant) := do
  let found ← schedule.innerBounds.mapM date.atChecked
  return (found.filterMap id).find? fun change => after < change

/-- The search within a date calculates nothing but instants. -/
theorem changeWithinChecked_eq (date : Date) (schedule : Schedule) (after : Instant) :
    changeWithinChecked date schedule after = .ok (changeWithin? date schedule after) := by
  rw [changeWithinChecked, mapM_eq_ok_map fun time _ => date.atChecked_eq time, ok_bind,
    List.filterMap_map, Function.id_comp]
  rfl

/-! ### The schedule of a date -/

/-- The schedule that the rules of a date make by their spans of a class, with checks. -/
def ownScheduleChecked (agenda : Agenda) (date : Date) (keep : TimeSpan → Checked Bool) :
    ExceptT SolarError (CheckedM Zone) (Schedule × Bool) := do
  let rules ← ofChecked (InForce.onChecked agenda.expression.rules agenda.holidays date)
  let solar ← ofChecked (rules.needsSolarChecked keep)
  let record ← unchecked (if solar then SolarHours.record date else pure default)
  ofChecked (rules.scheduleChecked record keep)

/-- The minutes of a date at which the place is open, with checks. -/
def scheduleAtChecked (agenda : Agenda) (date : Date) :
    ExceptT SolarError (CheckedM Zone) Schedule := do
  unchecked agenda.checkConfigured
  let (own, keepsPrevious) ← agenda.ownScheduleChecked date fun _ => .ok true
  match if keepsPrevious then date.previous? else none with
  | none => return own.withinDay
  | some previous =>
    let (before, _) ← agenda.ownScheduleChecked previous TimeSpan.mayEndNextDayChecked
    let tail ← ofChecked before.nextDayPartChecked
    return own.withinDay.union tail

/-- Whether the place is open at an instant, with checks. -/
def isOpenChecked (agenda : Agenda) (instant : Instant) :
    ExceptT SolarError (CheckedM Zone) Bool := do
  if agenda.expression.isAlwaysOpen then return true
  let schedule ← agenda.scheduleAtChecked instant.date
  let time ← ofChecked (ClockTime.ofTimeOfDayChecked instant.time)
  return decide (schedule.Contains time.minutes)

/-- The report of a day, with checks. -/
def dayChecked (agenda : Agenda) (date : Date) : ExceptT SolarError (CheckedM Zone) DayReport := do
  let schedule ← agenda.scheduleAtChecked date
  let periods ← ofChecked (periodsOfChecked date schedule)
  return {
    date
    periods
    isPublicHoliday := agenda.holidays .publicHoliday date
    isSchoolHoliday := agenda.holidays .schoolHoliday date }

/-- All rules of the agenda are in bounds. -/
def RulesReckonable (agenda : Agenda) : Prop := ∀ rule ∈ agenda.expression.rules, rule.Reckonable

variable {agenda : Agenda}

theorem RulesReckonable.spansInBounds (h : agenda.RulesReckonable) (date : Date) :
    (agenda.inForce date).SpansInBounds := by
  rw [inForce_eq]
  exact ⟨fun rule hmem => (h rule (mem_rules_of_governing hmem)).spans,
    fun rule hmem => (h rule (mem_rules_of_amendments hmem)).spans⟩

/-- The own rules of a date are evaluated without a breach, by all of their spans or by those of a
class. -/
theorem ownScheduleChecked_eq (h : agenda.RulesReckonable) (date : Date)
    {keepChecked : TimeSpan → Checked Bool} {keep : TimeSpan → Bool}
    (hkeep : ∀ span, span.InBounds → keepChecked span = .ok (keep span)) :
    agenda.ownScheduleChecked date keepChecked =
      unchecked (agenda.ownSchedule date keep : SolarM Zone (Schedule × Bool)) := by
  have hspans := h.spansInBounds date
  rw [ownScheduleChecked, ofChecked_bind (InForce.onChecked_eq h _ _)]
  change (ofChecked ((agenda.inForce date).needsSolarChecked keepChecked) >>= _) = _
  rw [ofChecked_bind (InForce.needsSolarChecked_eq hspans hkeep), ownSchedule]
  dsimp only
  have hschedule : ∀ record, (ofChecked ((InForce.on agenda.expression.rules agenda.holidays
      date).scheduleChecked record keepChecked) : ExceptT SolarError (CheckedM Zone) _) =
        unchecked (pure ((agenda.inForce date).schedule record keep)) :=
    fun record => ofChecked_eq (InForce.scheduleChecked_eq hspans hkeep record)
  simp only [hschedule]
  cases (agenda.inForce date).needsSolar keep <;> exact (unchecked_bind _ _).symm

/-- Every date has its schedule, or the error that it has, without a breach. -/
theorem scheduleAtChecked_eq (h : agenda.RulesReckonable) (date : Date) :
    agenda.scheduleAtChecked date = unchecked (agenda.scheduleAt date : SolarM Zone Schedule) := by
  have hown : agenda.ownScheduleChecked date (fun _ => .ok true) =
      unchecked (agenda.ownSchedule date fun _ => true : SolarM Zone (Schedule × Bool)) :=
    ownScheduleChecked_eq h date fun _ _ => rfl
  rw [scheduleAtChecked, scheduleAt, unchecked_bind, hown]
  refine congrArg _ (funext fun _ => ?_)
  rw [unchecked_bind]
  refine congrArg _ (funext fun own => ?_)
  dsimp only
  cases if own.2 = true then date.previous? else none with
  | none => rfl
  | some previous =>
    dsimp only
    rw [ownScheduleChecked_eq h _ fun span => TimeSpan.mayEndNextDayChecked_eq, unchecked_bind]
    refine congrArg _ (funext fun before => ?_)
    exact ofChecked_bind (Schedule.nextDayPartChecked_eq before.1) _

theorem isOpenChecked_eq (h : agenda.RulesReckonable) (instant : Instant) :
    agenda.isOpenChecked instant = unchecked (agenda.isOpen instant : SolarM Zone Bool) := by
  rw [isOpenChecked, isOpen]
  split
  · rfl
  · rw [scheduleAtChecked_eq h, unchecked_bind]
    refine congrArg _ (funext fun schedule => ?_)
    exact ofChecked_bind (ClockTime.ofTimeOfDayChecked_eq instant.time) _

theorem dayChecked_eq (h : agenda.RulesReckonable) (date : Date) :
    agenda.dayChecked date = unchecked (agenda.day date : SolarM Zone DayReport) := by
  rw [dayChecked, day, scheduleAtChecked_eq h, unchecked_bind]
  refine congrArg _ (funext fun schedule => ?_)
  exact ofChecked_bind (periodsOfChecked_eq date schedule) _

/-! ### The next change -/

/-- An evaluation as a part of a search, where both end at a breach. -/
def ofSolarChecked {α : Type} (evaluation : ExceptT SolarError (CheckedM Zone) α) :
    ExceptT SearchError (CheckedM Zone) α :=
  ExceptT.mk do
    match ← evaluation.run with
    | .ok value => return .ok value
    | .error error => return .error (.solar error)

theorem ofSolarChecked_unchecked {α : Type} (evaluation : SolarM Zone α) :
    ofSolarChecked (unchecked evaluation) = unchecked (SearchM.ofSolar evaluation) := by
  refine ExceptT.ext ?_
  exact run_unchecked_bind evaluation fun outcome => by cases outcome <;> rfl

/-- Searches a date and the midnight after it, with checks. -/
def searchDayChecked (agenda : Agenda) (start : Instant) (limit : Nat) (date : Date)
    (schedule : Schedule) (goOn : Date → Schedule → ExceptT SearchError (CheckedM Zone) Instant) :
    ExceptT SearchError (CheckedM Zone) Instant := do
  match ← ofChecked (changeWithinChecked date schedule start) with
  | some change => return change
  | none =>
    match date.next? with
    | none => throw (.exhausted date.lastInstant)
    | some next =>
      let following ← ofSolarChecked (agenda.scheduleAtChecked next)
      if schedule.endsOpen != following.startsOpen then return next.midnight
      else if limit = 0 then return date.lastInstant
      else goOn next following

/-- Searches from a date on, with checks: the budget is counted down. -/
def searchFromChecked (agenda : Agenda) (start : Instant) (limit : Nat) :
    (budget : Nat) → Date → Schedule → ExceptT SearchError (CheckedM Zone) Instant
  | 0, date, schedule => agenda.searchDayChecked start limit date schedule fun _ _ =>
      throw (.exhausted date.lastInstant)
  | budget + 1, date, schedule =>
    agenda.searchDayChecked start limit date schedule fun next following => do
      let _ ← ofChecked (unsigned32.minus (budget + 1 : Nat) 1)
      agenda.searchFromChecked start limit budget next following

/-- The next change after an instant, with checks. -/
def nextChangeChecked (agenda : Agenda) (start : Instant) (limit : Nat) :
    ExceptT SearchError (CheckedM Zone) Instant := do
  if agenda.expression.isAlwaysOpen then
    if limit = 0 then return start.date.lastInstant
    else throw (.exhausted start.date.lastInstant)
  else
    let schedule ← ofSolarChecked (agenda.scheduleAtChecked start.date)
    agenda.searchFromChecked start limit limit start.date schedule

theorem searchDayChecked_eq (h : agenda.RulesReckonable) (start : Instant) (limit : Nat)
    (date : Date) (schedule : Schedule)
    {goOnChecked : Date → Schedule → ExceptT SearchError (CheckedM Zone) Instant}
    {goOn : Date → Schedule → SearchM Zone Instant}
    (hgoOn : ∀ next following, goOnChecked next following = unchecked (goOn next following)) :
    agenda.searchDayChecked start limit date schedule goOnChecked =
      unchecked (agenda.searchDay start limit date schedule goOn) := by
  rw [searchDayChecked, searchDay, ofChecked_bind (changeWithinChecked_eq date schedule start)]
  cases changeWithin? date schedule start with
  | some change => rfl
  | none =>
    dsimp only
    cases date.next? with
    | none => rfl
    | some next =>
      dsimp only
      rw [scheduleAtChecked_eq h, ofSolarChecked_unchecked, unchecked_bind]
      refine congrArg _ (funext fun following => ?_)
      split
      · rfl
      · split
        · rfl
        · exact hgoOn next following

/-- A budget that is counted down stops at zero, before it would leave its 32 bits. This is an
induction on the budget, as the search is. -/
theorem searchFromChecked_eq (h : agenda.RulesReckonable) (start : Instant) (limit : Nat)
    {budget : Nat} (hbudget : budget < 4294967296) (date : Date) (schedule : Schedule) :
    agenda.searchFromChecked start limit budget date schedule =
      unchecked (agenda.searchFrom start limit budget date schedule : SearchM Zone Instant) := by
  induction budget generalizing date schedule with
  | zero => exact searchDayChecked_eq h start limit date schedule fun _ _ => rfl
  | succ budget ih =>
    refine searchDayChecked_eq h start limit date schedule fun next following => ?_
    rw [ofChecked_bind (minus_eq (fits_unsigned32.2 (by omega)))]
    exact ih (by omega) next following

/-- The search for the next change ends in no breach, however far it may look ahead with 32 bits. -/
theorem nextChangeChecked_eq (h : agenda.RulesReckonable) (start : Instant) {limit : Nat}
    (hlimit : limit < 4294967296) :
    agenda.nextChangeChecked start limit =
      unchecked (agenda.nextChange start limit : SearchM Zone Instant) := by
  rw [nextChangeChecked, nextChange]
  split
  · split <;> rfl
  · rw [scheduleAtChecked_eq h, ofSolarChecked_unchecked, unchecked_bind]
    exact congrArg _ (funext fun schedule => searchFromChecked_eq h start limit hlimit _ schedule)

end Agenda

end Timetable
