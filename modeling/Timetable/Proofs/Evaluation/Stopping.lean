import Mathlib.Data.List.Basic
import Timetable.Proofs.Evaluation.Enumeration

/-!
Enumerations that fail.

If a date cannot be evaluated, a cursor tells the periods of the dates before it, then the error,
and then nothing for ever (`Agenda.StopsAt`). The periods are told as if the enumeration were to end
on the day before. No later date is evaluated: after any number of answers, what is known about the
sun is what the evaluation of some first dates leaves, none of them after the failing one.

For one answer, a cursor evaluates the first of the dates that it has still to evaluate and keeps
the others for later (`PeriodCursor.evaluates_next`). So the dates that it evaluates for any number
of answers are the first ones of those up to a failure (`PeriodCursor.evaluates_nextTimes`).
-/

namespace Timetable

variable {Zone : Type}

open Period

/-! ### Dates in a row -/

namespace Date

/-- A number of dates from a first one on, as far as the calendar goes. -/
def inRow : Nat → Date → List Date
  | 0, _ => []
  | count + 1, date =>
    date :: match date.next? with
      | none => []
      | some next => inRow count next

/-- The dates from one to another. -/
def upTo (first last : Date) : List Date := inRow (last.number - first.number + 1).toNat first

theorem upTo_self (date : Date) : date.upTo date = [date] := by
  rw [upTo, Int.sub_self]
  change inRow 1 date = [date]
  rw [inRow]
  cases date.next? <;> rfl

theorem upTo_cons {first next last : Date} (hnext : first.next? = some next) (hle : next ≤ last) :
    first.upTo last = first :: next.upTo last := by
  have hnumber := number_next? hnext
  have hcount : (last.number - first.number + 1).toNat =
      (last.number - next.number + 1).toNat + 1 := by
    rw [le_iff] at hle
    omega
  rw [upTo, hcount, inRow, hnext]
  rfl

end Date

namespace Agenda

variable {agenda : Agenda} {hours : SolarHours Zone} {lower upper : Option Instant} {date : Date}
  {error : SolarError}

/-! ### The first date that fails -/

/-- From a date on, all dates can be evaluated until one that fails. -/
inductive FailsFirst (agenda : Agenda) (hours : SolarHours Zone) (date : Date)
    (error : SolarError) : Date → Prop where
  | here (fails : agenda.scheduleOn hours date = .error error) :
    FailsFirst agenda hours date error date
  | later {first next : Date} {schedule : Schedule}
      (succeeds : agenda.scheduleOn hours first = .ok schedule) (next_eq : first.next? = some next)
      (rest : FailsFirst agenda hours date error next) : FailsFirst agenda hours date error first

theorem failsFirst_of_forall {first : Date} (hle : first ≤ date)
    (hbefore : ∀ earlier, first ≤ earlier → earlier < date →
      ∃ schedule, agenda.scheduleOn hours earlier = .ok schedule)
    (hfails : agenda.scheduleOn hours date = .error error) :
    agenda.FailsFirst hours date error first := by
  induction hcount : (date.number - first.number).toNat generalizing first with
  | zero =>
    rw [Date.le_iff] at hle
    obtain rfl : first = date := Date.ext (by omega)
    exact .here hfails
  | succ count ih =>
    obtain ⟨schedule, hschedule⟩ := hbefore first (Int.le_refl _) (Date.lt_iff.2 (by omega))
    cases hnext : first.next? with
    | none =>
      have hlast := Date.next?_eq_none_iff.1 hnext
      have hdate := date.le_last
      omega
    | some next =>
      have hnumber := Date.number_next? hnext
      refine .later hschedule hnext (ih (Date.le_iff.2 (by omega)) ?_ (by omega))
      intro earlier hfirst
      rw [Date.le_iff] at hfirst
      exact hbefore earlier (Date.le_iff.2 (by omega))

namespace FailsFirst

variable {first : Date}

theorem le (h : agenda.FailsFirst hours date error first) : first ≤ date := by
  induction h with
  | here => exact Int.le_refl _
  | later succeeds next_eq rest ih =>
    have hnumber := Date.number_next? next_eq
    rw [Date.le_iff] at ih ⊢
    omega

/-- The periods that are told are those of the dates before, and then the error. -/
theorem toldFrom_eq (h : agenda.FailsFirst hours date error first) (lower upper : Option Instant)
    {count : Nat} (hcount : date.number < first.number + count) :
    agenda.toldFrom hours lower upper count first =
        ((agenda.toldFrom hours lower upper (date.number - first.number).toNat first).1,
          some error) ∧
      (agenda.toldFrom hours lower upper (date.number - first.number).toNat first).2 = none := by
  induction h generalizing count with
  | here fails =>
    obtain ⟨count, rfl⟩ : ∃ rest, count = rest + 1 := ⟨count - 1, by omega⟩
    rw [Int.sub_self]
    simp only [toldFrom, fails, Int.toNat_zero, and_self]
  | @later first next schedule succeeds next_eq rest ih =>
    have hnumber := Date.number_next? next_eq
    have hle := Date.le_iff.1 rest.le
    obtain ⟨count, rfl⟩ : ∃ rest, count = rest + 1 := ⟨count - 1, by omega⟩
    have hbefore : (date.number - first.number).toNat = (date.number - next.number).toNat + 1 := by
      omega
    obtain ⟨hperiods, hnone⟩ := @ih count (by omega)
    rw [hbefore]
    simp only [toldFrom, succeeds, next_eq]
    rw [hperiods]
    exact ⟨rfl, hnone⟩

end FailsFirst

/-! ### Cuts after the dates -/

/-- A cut that comes after a date leaves its periods alone. -/
theorem cutPeriods_of_before {next : Date} {schedule : Schedule} {bound : Instant}
    (hnext : date.next? = some next) (hday : schedule.WithinDay) (hbound : next.midnight ≤ bound) :
    cutPeriods lower (some bound) date schedule = cutPeriods lower none date schedule := by
  refine List.filterMap_congr fun period hmem => ?_
  obtain ⟨interval, hinterval, -, -, hstop⟩ := mem_periodsOf hmem
  have hle : period.stop ≤ bound := by
    have hinside := hday.stop_le interval hinterval
    have hnumber := Date.number_next? hnext
    simp only [Instant.le_iff, Date.stamp_midnight] at *
    omega
  unfold Period.clip?
  simp only [Instant.earlier, hle, ↓reduceIte]

theorem toldFrom_of_before (count : Nat) {first : Date}
    (hbound : ∀ bound ∈ upper, first.number + count ≤ bound.date.number) :
    agenda.toldFrom hours lower upper count first =
      agenda.toldFrom hours lower none count first := by
  cases upper with
  | none => rfl
  | some bound =>
    replace hbound := hbound bound rfl
    induction count generalizing first with
    | zero => rfl
    | succ count ih =>
      cases hschedule : agenda.scheduleOn hours first with
      | error error => simp only [toldFrom, hschedule]
      | ok schedule =>
        have hdate := bound.date.le_last
        cases hnext : first.next? with
        | none =>
          have hlast := Date.next?_eq_none_iff.1 hnext
          omega
        | some next =>
          have hnumber := Date.number_next? hnext
          have hafter : next.midnight ≤ bound :=
            Date.midnight_le_iff.2 (Date.le_iff.2 (by omega))
          simp only [toldFrom, hschedule, hnext]
          rw [cutPeriods_of_before hnext (withinDay_of_scheduleOn hschedule) hafter,
            ih (by omega)]

/-! ### Dates that are evaluated -/

/-- What is known after dates were evaluated, one after the other. -/
def afterDates (agenda : Agenda) (hours : SolarHours Zone) (dates : List Date) : SolarHours Zone :=
  dates.foldl agenda.afterDate hours

/-- A number of dates from a first one on, up to the first one that cannot be evaluated. -/
def untilFailure (agenda : Agenda) (hours : SolarHours Zone) : Nat → Date → List Date
  | 0, _ => []
  | count + 1, date =>
    match agenda.scheduleOn hours date with
    | .error _ => [date]
    | .ok _ =>
      date :: match date.next? with
        | none => []
        | some next => agenda.untilFailure hours count next

theorem untilFailure_congr {a b : SolarHours Zone} (h : a.Agree b) (agenda : Agenda) (count : Nat)
    (date : Date) : agenda.untilFailure a count date = agenda.untilFailure b count date := by
  induction count generalizing date with
  | zero => rfl
  | succ count ih =>
    have hschedule : agenda.scheduleOn a date = agenda.scheduleOn b date :=
      (asking_scheduleAt agenda date).outcome_eq h
    simp only [untilFailure, hschedule, ih]

theorem FailsFirst.untilFailure_eq {first : Date} (h : agenda.FailsFirst hours date error first)
    {count : Nat} (hcount : date.number < first.number + count) :
    agenda.untilFailure hours count first = first.upTo date := by
  induction h generalizing count with
  | here fails =>
    obtain ⟨count, rfl⟩ : ∃ rest, count = rest + 1 := ⟨count - 1, by omega⟩
    simp only [untilFailure, fails, Date.upTo_self]
  | @later first next schedule succeeds next_eq rest ih =>
    have hnumber := Date.number_next? next_eq
    have hle := Date.le_iff.1 rest.le
    obtain ⟨count, rfl⟩ : ∃ rest, count = rest + 1 := ⟨count - 1, by omega⟩
    simp only [untilFailure, succeeds, next_eq, Date.upTo_cons next_eq rest.le]
    rw [ih (by omega)]

/-- Without a cursor, dates are evaluated up to the first one that fails. -/
theorem after_periodsFrom (agenda : Agenda) (hours : SolarHours Zone) (lower upper : Option Instant)
    (count : Nat) (date : Date) :
    ((agenda.periodsFrom lower upper count date).run.run hours).2 =
      agenda.afterDates hours (agenda.untilFailure hours count date) := by
  induction count generalizing hours date with
  | zero => rfl
  | succ count ih =>
    rw [periodsFrom, run_bind, run_clippedPeriods, untilFailure]
    cases agenda.scheduleOn hours date with
    | error error => rfl
    | ok schedule =>
      cases date.next? with
      | none => rfl
      | some next =>
        change ((agenda.periodsFrom lower upper count next >>= _).run.run
          (agenda.afterDate hours date)).2 =
          agenda.afterDates (agenda.afterDate hours date) (agenda.untilFailure hours count next)
        rw [untilFailure_congr (agenda.agree_afterDate hours date), ← ih, run_bind]
        obtain ⟨periods | error, later⟩ :=
          (agenda.periodsFrom lower upper count next).run.run (agenda.afterDate hours date)
        · rfl
        · rfl

end Agenda

namespace PeriodCursor

open Agenda

variable {agenda : Agenda} {hours : SolarHours Zone} {cursor : PeriodCursor}

/-! ### Dates that a cursor evaluates -/

/-- The dates that an enumeration has still to evaluate, up to the first one that fails. -/
def toEvaluate (agenda : Agenda) (hours : SolarHours Zone) (cursor : PeriodCursor) : List Date :=
  match cursor.failure, cursor.day with
  | none, some date => agenda.untilFailure hours cursor.daysLeft date
  | _, _ => []

theorem toEvaluate_congr {a b : SolarHours Zone} (h : a.Agree b) (agenda : Agenda)
    (cursor : PeriodCursor) : cursor.toEvaluate agenda a = cursor.toEvaluate agenda b := by
  simp only [toEvaluate, untilFailure_congr h]

theorem toEvaluate_of_failure {error : SolarError} (h : cursor.failure = some error) :
    cursor.toEvaluate agenda hours = [] := by
  simp only [toEvaluate, h]

theorem toEvaluate_of_end (h : cursor.day = none) : cursor.toEvaluate agenda hours = [] := by
  rw [toEvaluate, h]
  cases cursor.failure <;> rfl

theorem toEvaluate_of_error {date : Date} {error : SolarError} (hfailure : cursor.failure = none)
    (hday : cursor.day = some date) (hschedule : agenda.scheduleOn hours date = .error error) :
    cursor.toEvaluate agenda hours = [date] := by
  simp only [toEvaluate, hfailure, hday, daysLeft, untilFailure, hschedule]

theorem toEvaluate_of_day {date : Date} {schedule : Schedule} (h : Coherent cursor)
    (hfailure : cursor.failure = none) (hday : cursor.day = some date)
    (hschedule : agenda.scheduleOn hours date = .ok schedule) (queue : List Period)
    (pending : Option Period) :
    cursor.toEvaluate agenda hours = date ::
      toEvaluate agenda hours { cursor with day := cursor.following? date, queue, pending } := by
  rcases following?_cases h hday with ⟨next, hnext, hfollowing, hleft⟩ | ⟨hfollowing, hend⟩
  · simp only [toEvaluate, hfailure, hday, daysLeft, untilFailure, hschedule, hnext, hfollowing,
      hleft]
  · simp only [toEvaluate, hfailure, hday, daysLeft, untilFailure, hschedule, hfollowing]
    rcases hend with hnone | hzero
    · simp only [hnone]
    · rw [hzero]
      cases date.next? <;> simp only [untilFailure]

/-- For an answer, the first dates are evaluated of those that are to be evaluated. The others still
are. -/
def Evaluates (agenda : Agenda) (hours : SolarHours Zone) (cursor : PeriodCursor)
    (result : (Option (Except SolarError Period) × PeriodCursor) × SolarHours Zone) : Prop :=
  ∃ now, cursor.toEvaluate agenda hours = now ++ result.1.2.toEvaluate agenda hours ∧
    result.2 = agenda.afterDates hours now

theorem evaluates_next (agenda : Agenda) {hours : SolarHours Zone} {cursor : PeriodCursor}
    (hcoherent : Coherent cursor) :
    Evaluates agenda hours cursor ((next agenda cursor).run hours) := by
  revert hcoherent
  refine run_next_induction (motive := fun cursor hours result =>
    Coherent cursor → Evaluates agenda hours cursor result)
    ?failure ?complete ?finish ?giveUp ?day cursor hours
  case failure =>
    intro cursor hours error hfailure _
    exact ⟨[], toEvaluate_of_failure hfailure, rfl⟩
  case complete =>
    intro cursor hours period pending queue _ _ _
    exact ⟨[], rfl, rfl⟩
  case finish =>
    intro cursor hours pending _ _ hday _
    exact ⟨[], toEvaluate_of_end hday, rfl⟩
  case giveUp =>
    intro cursor hours pending date error hfailure _ hday hschedule _
    refine ⟨[date], ?_, rfl⟩
    rw [toEvaluate_of_error hfailure hday hschedule]
    cases pending <;> rfl
  case day =>
    intro cursor hours pending date schedule result hfailure htake hday hschedule ih hcoherent
    have hpending := pending_of_incomplete hcoherent htake
    obtain ⟨now, hnow, hresult⟩ := ih ⟨hpending, day_le_following? cursor date⟩
    refine ⟨date :: now, ?_, hresult⟩
    rw [toEvaluate_of_day hcoherent hfailure hday hschedule
      (cutPeriods cursor.lower cursor.upper date schedule) pending,
      toEvaluate_congr (agenda.agree_afterDate hours date), hnow,
      ← toEvaluate_congr (agenda.agree_afterDate hours date)]
    rfl

/-- For any number of answers, the first dates are evaluated of those that are to be evaluated. -/
theorem evaluates_nextTimes (agenda : Agenda) (count : Nat) {hours : SolarHours Zone}
    {cursor : PeriodCursor} (hcoherent : Coherent cursor) :
    ∃ dates, dates <+: cursor.toEvaluate agenda hours ∧
      ((nextTimes agenda count cursor).run hours).2 = agenda.afterDates hours dates := by
  induction count generalizing hours cursor with
  | zero => exact ⟨[], List.nil_prefix, rfl⟩
  | succ count ih =>
    have hanswers := @answers_next _ agenda hours cursor hcoherent
    obtain ⟨now, hnow, hstate⟩ := @evaluates_next _ agenda hours cursor hcoherent
    obtain ⟨dates, hdates, hlast⟩ := @ih ((next agenda cursor).run hours).2
      ((next agenda cursor).run hours).1.2 hanswers.coherent
    refine ⟨now ++ dates, ?_, ?_⟩
    · rw [hnow, toEvaluate_congr hanswers.agree]
      exact (List.prefix_append_right_inj now).2 hdates
    · change ((nextTimes agenda count ((next agenda cursor).run hours).1.2).run
        ((next agenda cursor).run hours).2).2 = _
      rw [hlast, hstate, afterDates, afterDates, afterDates, List.foldl_append]

end PeriodCursor

namespace Agenda

variable {agenda : Agenda} {hours : SolarHours Zone} {start stop : Bound} {merge : Bool}
  {date : Date} {error : SolarError}

/-! ### Enumerations that fail -/

/-- How an enumeration ends that comes to a date which fails with an error. -/
structure StopsAt (agenda : Agenda) (hours : SolarHours Zone) (start stop : Bound) (merge : Bool)
    (date : Date) (error : SolarError) : Prop where
  /-- The periods of the dates before are told, then the error, and then nothing. -/
  answers : ∃ periods,
    (∀ before ∈ date.previous?,
      outcome (agenda.periodsBetween start (.date before) merge) hours = .ok periods) ∧
    (start.day = date → periods = []) ∧
    ∀ count, ((PeriodCursor.nextTimes agenda count (.ofBounds start stop merge)).run hours).1 =
      (List.range count).map fun i => (periods.map Except.ok ++ [.error error])[i]?
  /-- After any number of answers, dates up to the failing one were evaluated, and no others. -/
  evaluated : ∀ count, ∃ dates, dates <+: start.day.upTo date ∧
    ((PeriodCursor.nextTimes agenda count (.ofBounds start stop merge)).run hours).2 =
      agenda.afterDates hours dates
  collected : outcome (agenda.periodsBetween start stop merge) hours = .error error
  collected_evaluated : ((agenda.periodsBetween start stop merge).run.run hours).2 =
    agenda.afterDates hours (start.day.upTo date)

theorem toEvaluate_ofBounds (hfirst : agenda.FailsFirst hours date error start.day)
    (hstop : date ≤ stop.day) (merge : Bool) :
    (PeriodCursor.ofBounds start stop merge).toEvaluate agenda hours = start.day.upTo date := by
  have hle := Date.le_iff.1 hfirst.le
  rw [Date.le_iff] at hstop
  have hbounds : start.day ≤ stop.day := Date.le_iff.2 (by omega)
  unfold PeriodCursor.toEvaluate PeriodCursor.ofBounds PeriodCursor.daysLeft
  simp only [hbounds, ↓reduceIte]
  exact hfirst.untilFailure_eq (by omega)

theorem after_periodsBetween (hfirst : agenda.FailsFirst hours date error start.day)
    (hstop : date ≤ stop.day) (merge : Bool) :
    ((agenda.periodsBetween start stop merge).run.run hours).2 =
      agenda.afterDates hours (start.day.upTo date) := by
  rw [Date.le_iff] at hstop
  have hafter := after_periodsFrom agenda hours start.cut? stop.cut?
    (stop.day.number - start.day.number + 1).toNat start.day
  rw [hfirst.untilFailure_eq (by omega)] at hafter
  rw [← hafter, periodsBetween, run_bind]
  obtain ⟨periods | error, later⟩ := (agenda.periodsFrom start.cut? stop.cut?
    (stop.day.number - start.day.number + 1).toNat start.day).run.run hours
  · rfl
  · rfl

theorem date_of_mem_cut? {bound : Instant} (h : bound ∈ stop.cut?) : bound.date = stop.day := by
  cases stop with
  | date day => cases h
  | instant moment => rw [Option.some.inj h]; rfl

/-- The periods that an enumeration tells before it fails are those up to the day before. -/
theorem toldBetween_of_failsFirst (hfirst : agenda.FailsFirst hours date error start.day)
    (hstop : date ≤ stop.day) : ∃ periods,
      agenda.toldBetween hours start stop = (periods, some error) ∧
      (∀ before ∈ date.previous?,
        agenda.toldBetween hours start (.date before) = (periods, none)) ∧
      (start.day = date → periods = []) := by
  rw [Date.le_iff] at hstop
  have hcount : date.number <
      start.day.number + ((stop.day.number - start.day.number + 1).toNat : Int) := by omega
  obtain ⟨htold, hnone⟩ := hfirst.toldFrom_eq start.cut? stop.cut? hcount
  refine ⟨_, htold, fun before hbefore => ?_, ?_⟩
  · have hnumber := Date.number_previous? hbefore
    have hcount : (before.number - start.day.number + 1).toNat =
        (date.number - start.day.number).toNat := by omega
    have hcut : agenda.toldFrom hours start.cut? stop.cut?
        (date.number - start.day.number).toNat start.day =
          agenda.toldFrom hours start.cut? none (date.number - start.day.number).toNat start.day :=
      toldFrom_of_before _ fun bound hbound => by
        have hle := Date.le_iff.1 hfirst.le
        rw [date_of_mem_cut? hbound]
        omega
    rw [hcut] at hnone ⊢
    exact Prod.ext (by rw [toldBetween, ← hcount]; rfl) (by rw [← hnone, ← hcount]; rfl)
  · rintro rfl
    rw [Int.sub_self]
    rfl

/-- An enumeration stops at the first date that cannot be evaluated, once and for good. If there is
none, it tells all periods and then nothing. -/
theorem stopsAt_firstFailure (agenda : Agenda) (hours : SolarHours Zone) (start stop : Bound)
    (merge : Bool) :
    (∀ date error, start.day ≤ date → date ≤ stop.day →
      (∀ earlier, start.day ≤ earlier → earlier < date →
        ∃ schedule, agenda.scheduleOn hours earlier = .ok schedule) →
      agenda.scheduleOn hours date = .error error →
      agenda.StopsAt hours start stop merge date error) ∧
    ((∀ date, start.day ≤ date → date ≤ stop.day →
        ∃ schedule, agenda.scheduleOn hours date = .ok schedule) →
      ∃ periods, outcome (agenda.periodsBetween start stop merge) hours = .ok periods ∧
        ∀ count, ((PeriodCursor.nextTimes agenda count (.ofBounds start stop merge)).run hours).1 =
          (List.range count).map fun i => (periods.map Except.ok)[i]?) := by
  have hcoherent := PeriodCursor.coherent_ofBounds start stop merge
  constructor
  · intro date error hstart hstop hbefore hfails
    have hfirst := failsFirst_of_forall hstart hbefore hfails
    obtain ⟨periods, htold, hprevious, hnone⟩ := toldBetween_of_failsFirst hfirst hstop
    refine ⟨⟨told merge periods, fun before hmem => ?_, fun heq => ?_, fun count => ?_⟩,
      fun count => ?_, ?_, after_periodsBetween hfirst hstop merge⟩
    · rw [outcome_periodsBetween, hprevious before hmem]
    · rw [hnone heq]
      cases merge <;> rfl
    · rw [PeriodCursor.nextTimes_eq agenda count hcoherent, tellings_ofBounds, htold]
      rfl
    · rw [← toEvaluate_ofBounds hfirst hstop merge]
      exact PeriodCursor.evaluates_nextTimes agenda count hcoherent
    · rw [outcome_periodsBetween, htold]
  · intro hall
    have hnone : (agenda.toldBetween hours start stop).2 = none := by
      refine toldFrom_snd_of_forall _ fun date hle hlt => hall date hle ?_
      rw [Date.le_iff] at hle ⊢
      omega
    rcases hbetween : agenda.toldBetween hours start stop with ⟨periods, error⟩
    rw [hbetween] at hnone
    obtain rfl : error = none := hnone
    refine ⟨told merge periods, ?_, fun count => ?_⟩
    · rw [outcome_periodsBetween, hbetween]
    · rw [PeriodCursor.nextTimes_eq agenda count hcoherent, tellings_ofBounds, hbetween]
      simp only [Option.map_none, Option.toList_none, List.append_nil]

/-- 3 January of year 1, a Wednesday. -/
def wednesday : Date := ⟨2, by decide, by decide⟩

/-- A place that is open from 20:00 to 02:00, but on Wednesdays while the sun is up. -/
def brightWednesdays : Agenda where
  expression :=
    { given := "20:00-26:00; We sunrise-sunset"
      source := "20:00-26:00; We sunrise-sunset"
      rules := evenings.expression.rules ++
        [{ selector := { weekdays := [.days .wednesday .wednesday] }
           spans := [⟨.solar .sunrise 0, .solar .sunset 0⟩], kind := .opened }] }
  holidays := .empty

/-- From 01:00 on a Monday, if the times of the Wednesday are not known: the evenings before it are
told, also the one that would go on, then the error, and then nothing. -/
theorem stopsAt_brightWednesdays :
    let hours := SolarHours.unknown.setOverride default default
    let start := Bound.instant ⟨default, .ofMinutes 60⟩
    let stop := Bound.date ⟨10, by decide, by decide⟩
    (∀ earlier, start.day ≤ earlier → earlier < wednesday →
        ∃ schedule, brightWednesdays.scheduleOn hours earlier = .ok schedule) ∧
      brightWednesdays.scheduleOn hours wednesday = .error .notConfigured ∧
      brightWednesdays.StopsAt hours start stop true wednesday .notConfigured ∧
      ((PeriodCursor.nextTimes brightWednesdays 6 (.ofBounds start stop true)).run hours).1 =
        [some (.ok ⟨⟨default, .ofMinutes 60⟩, ⟨default, .ofMinutes 120⟩⟩),
          some (.ok ⟨⟨default, .ofMinutes 1200⟩, ⟨tuesday, .ofMinutes 120⟩⟩),
          some (.ok ⟨⟨tuesday, .ofMinutes 1200⟩, ⟨wednesday, .midnight⟩⟩),
          some (.error .notConfigured), none, none] := by
  intro hours start stop
  have hbefore : ∀ earlier, start.day ≤ earlier → earlier < wednesday →
      ∃ schedule, brightWednesdays.scheduleOn hours earlier = .ok schedule := by
    intro earlier hfirst hlast
    have hfirst : (0 : Int) ≤ earlier.number := hfirst
    have hlast : earlier.number < 2 := hlast
    have hcases : earlier.number = 0 ∨ earlier.number = 1 := by omega
    have hdate : earlier = default ∨ earlier = tuesday := hcases.imp Date.ext Date.ext
    rcases hdate with rfl | rfl
    · exact succeeds_of_isOk (by decide)
    · exact succeeds_of_isOk (by decide)
  have hfails : brightWednesdays.scheduleOn hours wednesday = .error .notConfigured := by decide
  have hstops := (stopsAt_firstFailure brightWednesdays hours start stop true).1 wednesday
    .notConfigured (by decide) (by decide) hbefore hfails
  refine ⟨hbefore, hfails, hstops, ?_⟩
  obtain ⟨periods, hperiods, -, hanswers⟩ := hstops.answers
  have hcollected : outcome (brightWednesdays.periodsBetween start (.date tuesday) true) hours =
      .ok [⟨⟨default, .ofMinutes 60⟩, ⟨default, .ofMinutes 120⟩⟩,
        ⟨⟨default, .ofMinutes 1200⟩, ⟨tuesday, .ofMinutes 120⟩⟩,
        ⟨⟨tuesday, .ofMinutes 1200⟩, ⟨wednesday, .midnight⟩⟩] := by decide
  obtain rfl := Except.ok.inj ((hperiods tuesday (by decide)).symm.trans hcollected)
  exact hanswers 6

end Agenda

end Timetable
