import Timetable.Proofs.Arithmetic.Evaluation
import Timetable.Proofs.Evaluation.Enumeration

/-!
Nothing is calculated amiss.

Evaluations with checks come to what they come to without, for every expression that was read:
`Expression.calculatesSafely_of_readFrom`.
-/

namespace Timetable

variable {Zone : Type}

open Width

/-! ### Periods -/

namespace Agenda

variable {agenda : Agenda}

/-- The periods of a date, cut at two instants, with checks. -/
def clippedPeriodsChecked (agenda : Agenda) (lower upper : Option Instant) (date : Date) :
    ExceptT SolarError (CheckedM Zone) (List Period) := do
  let schedule ← agenda.scheduleAtChecked date
  let periods ← ofChecked (periodsOfChecked date schedule)
  return periods.filterMap (·.clip? lower upper)

theorem clippedPeriodsChecked_eq (h : agenda.RulesReckonable) (lower upper : Option Instant)
    (date : Date) : agenda.clippedPeriodsChecked lower upper date =
      unchecked (agenda.clippedPeriods lower upper date : SolarM Zone (List Period)) := by
  rw [clippedPeriodsChecked, clippedPeriods, scheduleAtChecked_eq h, unchecked_bind]
  refine congrArg _ (funext fun schedule => ?_)
  exact ofChecked_bind (periodsOfChecked_eq date schedule) _

/-- The periods of a number of dates, with checks. -/
def periodsFromChecked (agenda : Agenda) (lower upper : Option Instant) :
    Nat → Date → ExceptT SolarError (CheckedM Zone) (List Period)
  | 0, _ => return []
  | count + 1, date => do
    let periods ← agenda.clippedPeriodsChecked lower upper date
    match date.next? with
    | none => return periods
    | some next => return periods ++ (← agenda.periodsFromChecked lower upper count next)

/-- The periods between two bounds, with checks. -/
def periodsBetweenChecked (agenda : Agenda) (start stop : Bound) (merge : Bool) :
    ExceptT SolarError (CheckedM Zone) (List Period) := do
  let days := (stop.day.number - start.day.number + 1).toNat
  let periods ← agenda.periodsFromChecked start.cut? stop.cut? days start.day
  return if merge then Period.mergeAll periods else periods

/-- The periods of any number of dates are found without a breach. -/
theorem periodsFromChecked_eq (h : agenda.RulesReckonable) (lower upper : Option Instant)
    (count : Nat) (date : Date) : agenda.periodsFromChecked lower upper count date =
      unchecked (agenda.periodsFrom lower upper count date : SolarM Zone (List Period)) := by
  induction count generalizing date with
  | zero => rfl
  | succ count ih =>
    rw [periodsFromChecked, periodsFrom, clippedPeriodsChecked_eq h, unchecked_bind]
    refine congrArg _ (funext fun periods => ?_)
    cases date.next? with
    | none => rfl
    | some next =>
      dsimp only
      rw [ih, unchecked_bind]
      rfl

theorem periodsBetweenChecked_eq (h : agenda.RulesReckonable) (start stop : Bound) (merge : Bool) :
    agenda.periodsBetweenChecked start stop merge =
      unchecked (agenda.periodsBetween start stop merge : SolarM Zone (List Period)) := by
  rw [periodsBetweenChecked, periodsBetween, periodsFromChecked_eq h, unchecked_bind]
  rfl

end Agenda

namespace PeriodCursor

/-- The next period, with checks. -/
def nextChecked (agenda : Agenda) (cursor : PeriodCursor) :
    CheckedM Zone (Option (Except SolarError Period) × PeriodCursor) :=
  match cursor.failure with
  | some error => return (some (.error error), cursor.finished)
  | none =>
    match take cursor.merge cursor.pending cursor.queue with
    | .complete period pending queue => return (some (.ok period), { cursor with pending, queue })
    | .incomplete pending =>
      match _h : cursor.day with
      | none => return (pending.map .ok, cursor.finished)
      | some date => do
        match ← (agenda.clippedPeriodsChecked cursor.lower cursor.upper date).run with
        | .ok queue =>
          nextChecked agenda { cursor with day := cursor.following? date, queue, pending }
        | .error error => return cursor.giveUp error pending
termination_by cursor.daysLeft
decreasing_by exact daysLeft_following _h _ _

/-- So is each period of an enumeration, from any place in it. -/
theorem nextChecked_eq {agenda : Agenda} (h : agenda.RulesReckonable) (cursor : PeriodCursor) :
    cursor.nextChecked agenda =
      ExceptT.lift (cursor.next agenda : StateM (SolarHours Zone) _) := by
  -- A date without periods is passed over, so that one call may look at all dates that are left.
  induction hleft : cursor.daysLeft using Nat.strongRecOn generalizing cursor with
  | ind left ih =>
    cases hfailure : cursor.failure with
    | some error =>
      rw [nextChecked, next_of_failure hfailure, hfailure]
      rfl
    | none =>
      cases htake : take cursor.merge cursor.pending cursor.queue with
      | complete period pending queue =>
        rw [nextChecked, next_of_complete hfailure htake, hfailure]
        simp only [htake]
        rfl
      | incomplete pending =>
        cases hday : cursor.day with
        | none =>
          rw [nextChecked, next_of_end hfailure htake hday, hfailure]
          simp only [htake]
          split
          · rfl
          · rename_i hsome
            rw [hday] at hsome
            cases hsome
        | some date =>
          rw [nextChecked, next_of_day hfailure htake hday, hfailure]
          simp only [htake]
          split
          · rename_i hnone
            rw [hday] at hnone
            cases hnone
          · rename_i other hsome
            obtain rfl := Option.some.inj (hsome.symm.trans hday)
            rw [Agenda.clippedPeriodsChecked_eq h]
            refine run_unchecked_bind _ fun outcome => ?_
            cases outcome with
            | ok queue => exact ih _ (hleft ▸ daysLeft_following hday queue pending) _ rfl
            | error error => rfl

end PeriodCursor

/-! ### Everything that was read -/

/-- An evaluation with checks ends in no breach, whatever is known about the sun, and comes to what
it comes to without them. -/
structure Safe {ε α : Type} (checked : ExceptT ε (CheckedM Zone) α)
    (evaluation : ExceptT ε (StateM (SolarHours Zone)) α) : Prop where
  no_breach : ∀ hours breach, (checked.run.run.run hours).1 ≠ .error breach
  eq_unchecked : checked = unchecked evaluation

theorem safe_of_eq {ε α : Type} {checked : ExceptT ε (CheckedM Zone) α}
    {evaluation : ExceptT ε (StateM (SolarHours Zone)) α} (h : checked = unchecked evaluation) :
    Safe checked evaluation := by
  subst h
  exact ⟨fun _ _ => nofun, rfl⟩

/-- No evaluation of the agenda leaves its widths, divides by zero or passes 48:00. The number of
days that a search looks ahead has 32 bits; an enumeration of periods may be at any place. -/
structure Agenda.CalculatesSafely (Zone : Type) (agenda : Agenda) : Prop where
  isOpen : ∀ instant, Safe (agenda.isOpenChecked instant) (agenda.isOpen instant : SolarM Zone Bool)
  scheduleAt : ∀ date,
    Safe (agenda.scheduleAtChecked date) (agenda.scheduleAt date : SolarM Zone Schedule)
  nextChange : ∀ instant (limit : UInt32),
    Safe (agenda.nextChangeChecked instant limit.toNat)
      (agenda.nextChange instant limit.toNat : SearchM Zone Instant)
  day : ∀ date, Safe (agenda.dayChecked date) (agenda.day date : SolarM Zone DayReport)
  periods : ∀ start stop merge,
    Safe (agenda.periodsBetweenChecked start stop merge)
      (agenda.periodsBetween start stop merge : SolarM Zone (List Period))
  nextPeriod : ∀ cursor : PeriodCursor,
    cursor.nextChecked agenda =
      ExceptT.lift (cursor.next agenda : StateM (SolarHours Zone) _)

namespace Expression

open Grammar

/-- Whatever was read is in bounds, and its years have four digits or follow one that has. -/
theorem reckonable_of_readRules {text : List Char} {rules : List Rule}
    (h : readRules text = .ok rules) : ∀ rule ∈ rules, rule.Reckonable := by
  obtain ⟨form, cursor, hform, hinterpret⟩ := readRules_eq_ok.1 h
  obtain ⟨hfirst, hrest⟩ := yields_wholeText 0 form cursor hform
  have hbounds := rulesInBounds_of_interpret hfirst hrest hinterpret
  exact fun rule hmem => ⟨hbounds.rule rule hmem, hasSmallYears_of_readRules h rule hmem⟩

/-- Whatever was read is evaluated without a breach, also if it was tidied before: with any
holidays, on every date of the calendar and at every instant, whatever is known about the sun and
whatever the almanac answers. -/
theorem calculatesSafely_of_readFrom {given source : String} {expression : Expression}
    (h : readFrom given source = .ok expression) (holidays : HolidayCalendar) :
    Agenda.CalculatesSafely Zone ⟨expression, holidays⟩ := by
  have hrules : readRules source.toList = .ok expression.rules := by
    obtain ⟨rules, hrules, hrest⟩ := bind_eq_ok.1 h
    dsimp only at hrest
    split at hrest
    · cases hrest
    · cases hrest
      exact hrules
  have hbounds : Agenda.RulesReckonable ⟨expression, holidays⟩ := reckonable_of_readRules hrules
  exact {
    isOpen := fun instant => safe_of_eq (Agenda.isOpenChecked_eq hbounds instant)
    scheduleAt := fun date => safe_of_eq (Agenda.scheduleAtChecked_eq hbounds date)
    nextChange := fun instant limit =>
      safe_of_eq (Agenda.nextChangeChecked_eq hbounds instant limit.toNat_lt)
    day := fun date => safe_of_eq (Agenda.dayChecked_eq hbounds date)
    periods := fun start stop merge =>
      safe_of_eq (Agenda.periodsBetweenChecked_eq hbounds start stop merge)
    nextPeriod := PeriodCursor.nextChecked_eq hbounds }

/-- Every second year, every third week over New Year, late into the night; closed at Easter. -/
def everyThirdWeek : Expression where
  given := "2020-2030/2 week 50-05/3 (sunset-01:05)-27:10; 2024 easter off"
  source := "2020-2030/2 week 50-05/3 (sunset-01:05)-27:10; 2024 easter off"
  rules := [{
    selector := { years := [⟨2020, 2030, 2⟩], weeks := [⟨50, 5, 3⟩] }
    spans := [⟨.solar .sunset (-65), .clock ⟨1630, by decide⟩⟩]
    kind := .opened }, {
    selector := { dates := [.days (.easter (some 2024)) (.easter (some 2024))] } }]

theorem calculatesSafely_everyThirdWeek :
    readFrom everyThirdWeek.given everyThirdWeek.source = .ok everyThirdWeek ∧
      Agenda.CalculatesSafely Unit ⟨everyThirdWeek, .empty⟩ := by
  have hread : readFrom everyThirdWeek.given everyThirdWeek.source = .ok everyThirdWeek := by rfl
  exact ⟨hread, calculatesSafely_of_readFrom hread .empty⟩

end Expression

end Timetable
