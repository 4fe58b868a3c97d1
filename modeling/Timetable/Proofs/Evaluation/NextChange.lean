import Mathlib.Data.List.Find
import Timetable.Evaluation.NextChange
import Timetable.Proofs.Calendar.Instant
import Timetable.Proofs.Evaluation.State

/-!
The search for the next change finds the first one.

`SearchVerdict` says what an answer of the search means in terms of the state at instants: the first
change, the end of the day if no day may be looked ahead, the end of the search if the state stays
the same as far as it went, or the error of the first date that cannot be evaluated.
`searchVerdict_nextChange` says that every search of an expression that is not always open ends in
one of these ways.

The invariant of the search (`Searching`) is that the state has not changed up to the midnight that
begins the date at hand, nor at that midnight. Within a date, the first bound after the beginning of
the search is the first change (`Schedule.nextBound?_eq_some`); across a midnight, the two minutes
around it are compared.
-/

namespace Timetable

variable {Zone : Type}

/-! ### Evaluations as parts of a search -/

theorem asking_ofSolar {α : Type} {evaluation : SolarM Zone α} (h : Asking evaluation.run) :
    Asking (SearchM.ofSolar evaluation).run := by
  refine Asking.bind h ?_
  intro result
  cases result with
  | ok value => exact Asking.pure _
  | error error => exact Asking.pure _

theorem outcome_ofSolar {α : Type} (evaluation : SolarM Zone α) (hours : SolarHours Zone) :
    outcome (SearchM.ofSolar evaluation) hours = (outcome evaluation hours).mapError .solar := by
  unfold outcome SearchM.ofSolar
  rw [ExceptT.run_mk, StateT.run_bind]
  obtain ⟨value | error, later⟩ := evaluation.run.run hours
  · rfl
  · rfl

namespace Agenda

variable {agenda : Agenda} {hours : SolarHours Zone} {start : Instant} {limit : Nat}

/-! ### One day of the search -/

section SearchDay

variable {goOn : Date → Schedule → SearchM Zone Instant}

theorem asking_acrossMidnight (hgoOn : ∀ next following, Asking (goOn next following).run)
    (limit : Nat) (date next : Date) (schedule following : Schedule) :
    Asking (if schedule.endsOpen != following.startsOpen then return next.midnight
      else if limit = 0 then return date.lastInstant
      else goOn next following : SearchM Zone Instant).run := by
  split
  · exact asking_pure _
  · split
    · exact asking_pure _
    · exact hgoOn _ _

theorem asking_searchDay (hgoOn : ∀ next following, Asking (goOn next following).run)
    (agenda : Agenda) (start : Instant) (limit : Nat) (date : Date) (schedule : Schedule) :
    Asking (agenda.searchDay start limit date schedule goOn).run := by
  unfold searchDay
  split
  · exact asking_pure _
  · split
    · exact asking_throw _
    · exact asking_bind (asking_ofSolar (asking_scheduleAt agenda _))
        (asking_acrossMidnight hgoOn limit date _ schedule)

theorem asking_searchFrom (agenda : Agenda) (start : Instant) (limit budget : Nat) :
    ∀ (date : Date) (schedule : Schedule),
      Asking (agenda.searchFrom start limit budget date schedule : SearchM Zone Instant).run := by
  induction budget with
  | zero =>
    intro date schedule
    rw [searchFrom]
    exact asking_searchDay (fun _ _ => asking_throw _) agenda start limit date schedule
  | succ budget ih =>
    intro date schedule
    rw [searchFrom]
    exact asking_searchDay ih agenda start limit date schedule

theorem asking_nextChange (agenda : Agenda) (start : Instant) (limit : Nat) :
    Asking (agenda.nextChange start limit : SearchM Zone Instant).run := by
  unfold nextChange
  split
  · split
    · exact asking_pure _
    · exact asking_throw _
  · exact asking_bind (asking_ofSolar (asking_scheduleAt agenda _))
      (asking_searchFrom agenda start limit limit start.date)

theorem asking_timeToChange (agenda : Agenda) (start : Instant) (limit : Nat) :
    Asking (agenda.timeToChange start limit : SearchM Zone Int).run :=
  asking_bind (asking_nextChange agenda start limit) fun _ => asking_pure _

theorem outcome_searchDay (hgoOn : ∀ next following, Asking (goOn next following).run)
    (agenda : Agenda) (hours : SolarHours Zone) (start : Instant) (limit : Nat) (date : Date)
    (schedule : Schedule) :
    outcome (agenda.searchDay start limit date schedule goOn) hours =
      match changeWithin? date schedule start with
      | some change => .ok change
      | none =>
        match date.next? with
        | none => .error (.exhausted date.lastInstant)
        | some next =>
          match agenda.scheduleOn hours next with
          | .error error => .error (.solar error)
          | .ok following =>
            if schedule.endsOpen != following.startsOpen then .ok next.midnight
            else if limit = 0 then .ok date.lastInstant
            else outcome (goOn next following) hours := by
  unfold searchDay
  cases changeWithin? date schedule start with
  | some change => rfl
  | none =>
    cases date.next? with
    | none => rfl
    | some next =>
      have hrest := asking_acrossMidnight hgoOn limit date next schedule
      change outcome (SearchM.ofSolar (agenda.scheduleAt next) >>= _) hours = _
      rw [outcome_bind (asking_ofSolar (asking_scheduleAt agenda _)) hrest, outcome_ofSolar]
      change (agenda.scheduleOn hours next).mapError _ >>= _ = _
      dsimp only
      cases agenda.scheduleOn hours next with
      | error error => rfl
      | ok following =>
        change outcome (if _ then _ else _) hours = if _ then _ else _
        split
        · rfl
        · split <;> rfl

end SearchDay

theorem outcome_nextChange (h : agenda.expression.isAlwaysOpen = false) (hours : SolarHours Zone)
    (start : Instant) (limit : Nat) :
    outcome (agenda.nextChange start limit) hours =
      match agenda.scheduleOn hours start.date with
      | .error error => .error (.solar error)
      | .ok schedule =>
        outcome (agenda.searchFrom start limit limit start.date schedule) hours := by
  unfold nextChange
  rw [h]
  change outcome (SearchM.ofSolar (agenda.scheduleAt start.date) >>= _) hours = _
  rw [outcome_bind (asking_ofSolar (asking_scheduleAt agenda _))
    (fun schedule => asking_searchFrom agenda start limit limit start.date schedule),
    outcome_ofSolar]
  change (agenda.scheduleOn hours start.date).mapError _ >>= _ = _
  cases agenda.scheduleOn hours start.date <;> rfl

/-! ### What an answer of the search means -/

/-- What a search that begins at an instant may answer, in terms of the state of the place. -/
inductive SearchVerdict (agenda : Agenda) (hours : SolarHours Zone) (start : Instant)
    (limit : Nat) : Except SearchError Instant → Prop where
  /-- The first change: the state is the same until then, and another one there. -/
  | change {change : Instant} {opened : Bool} (after : start < change)
      (steady : ∀ instant, start ≤ instant → instant < change →
        agenda.stateAt hours instant = .ok opened)
      (flips : agenda.stateAt hours change = .ok !opened) :
      SearchVerdict agenda hours start limit (.ok change)
  /-- The end of the date, if no further one may be searched. -/
  | endOfDay {next : Date} {opened : Bool} (unlimited : limit = 0)
      (follows : start.date.next? = some next)
      (steady : ∀ instant, start ≤ instant → instant ≤ next.midnight →
        agenda.stateAt hours instant = .ok opened) :
      SearchVerdict agenda hours start limit (.ok start.date.lastInstant)
  /-- The last date that may be searched, and the midnight after it. -/
  | exhausted {last next : Date} {opened : Bool} (limited : 0 < limit)
      (reached : last.number = start.date.number + limit) (follows : last.next? = some next)
      (steady : ∀ instant, start ≤ instant → instant ≤ next.midnight →
        agenda.stateAt hours instant = .ok opened) :
      SearchVerdict agenda hours start limit (.error (.exhausted last.lastInstant))
  /-- The last date of the calendar. -/
  | endOfCalendar {last : Date} {opened : Bool}
      (reached : last.number ≤ start.date.number + limit) (ends : last.next? = none)
      (steady : ∀ instant, start ≤ instant → instant ≤ last.lastInstant →
        agenda.stateAt hours instant = .ok opened) :
      SearchVerdict agenda hours start limit (.error (.exhausted last.lastInstant))
  /-- The first date that cannot be evaluated. -/
  | solar {date : Date} {error : SolarError} (since : start.date ≤ date)
      (within : date.number ≤ start.date.number + limit + 1)
      (fails : agenda.scheduleOn hours date = .error error)
      (first : ∀ earlier, start.date ≤ earlier → earlier < date →
        ∃ schedule, agenda.scheduleOn hours earlier = .ok schedule) :
      SearchVerdict agenda hours start limit (.error (.solar error))

/-! ### The state within a day -/

/-- The minute of a date from which on it is searched: the whole date after the first one. -/
def firstMinute (start : Instant) (date : Date) : Nat :=
  if start.date = date then start.clockTime.minutes else 0

theorem firstMinute_le {date : Date} {instant : Instant} (h : start ≤ instant)
    (hdate : instant.date = date) : firstMinute start date ≤ instant.clockTime.minutes := by
  unfold firstMinute
  split
  · rename_i hstart
    rw [Instant.le_iff, Instant.stamp, Instant.stamp, hstart, hdate] at h
    have hnanos : start.time.nanos ≤ instant.time.nanos := by omega
    exact Nat.div_le_div_right hnanos
  · exact Nat.zero_le _

/-- The bounds of a day that come after the beginning of a search are those after its first
minute. -/
theorem start_lt_atMinute_iff {date : Date} {minute : Nat} (hdate : start.date ≤ date)
    (hpos : 0 < minute) (h : minute < 1440) :
    start < date.atMinute minute ↔ firstMinute start date < minute := by
  unfold firstMinute
  split
  · rename_i hstart
    exact Date.lt_atMinute_iff h hstart
  · rename_i hstart
    have hless : start.date < date := by
      rw [Date.le_iff] at hdate
      rw [Date.lt_iff]
      have : start.date.number ≠ date.number := fun heq => hstart (Date.ext heq)
      omega
    exact iff_of_true (Instant.lt_iff_date_time.2 (.inl hless)) hpos

theorem changeWithin?_eq {date : Date} {schedule : Schedule} (hday : schedule.WithinDay)
    (hdate : start.date ≤ date) :
    changeWithin? date schedule start =
      (schedule.nextBound? (firstMinute start date)).map fun bound =>
        date.atMinute bound.minutes := by
  have hbounds : ∀ time ∈ schedule.innerBounds, 0 < time.minutes ∧ time.minutes < 1440 := by
    intro time hmem
    obtain ⟨hmem, hinner⟩ := List.mem_filter.1 hmem
    obtain ⟨interval, hinterval, htime⟩ := List.mem_flatMap.1 hmem
    have hle := hday.stop_le interval hinterval
    have hlt := interval.start_lt_stop
    simp only [Bool.and_eq_true, bne_iff_ne] at hinner
    simp only [List.mem_cons, List.not_mem_nil, or_false] at htime
    rcases htime with rfl | rfl
    · simp only [Interval.startTime] at hinner ⊢
      omega
    · simp only [Interval.stopTime] at hinner ⊢
      omega
  have hcongr : schedule.innerBounds.find? (fun time => (date.at? time).any (start < ·)) =
      schedule.nextBound? (firstMinute start date) := by
    refine List.find?_congr ?_
    intro time hmem
    obtain ⟨hpos, hlt⟩ := hbounds time hmem
    rw [Date.at?_eq_atMinute date hlt, Option.any_some, Bool.eq_iff_iff, decide_eq_true_iff,
      decide_eq_true_iff]
    exact start_lt_atMinute_iff hdate hpos hlt
  rw [changeWithin?, List.find?_filterMap, hcongr]
  cases hfind : schedule.nextBound? (firstMinute start date) with
  | none => rfl
  | some bound =>
    obtain ⟨-, hlt⟩ := hbounds bound (List.mem_of_find?_eq_some hfind)
    exact Date.at?_eq_atMinute date hlt

/-! ### The invariant of the search -/

/-- The state has not changed since the beginning of the search, up to the first minute that is
looked at on a date, and all dates so far could be evaluated. -/
structure Searching (agenda : Agenda) (hours : SolarHours Zone) (start : Instant) (date : Date)
    (schedule : Schedule) (opened : Bool) : Prop where
  since : start.date ≤ date
  schedule_eq : agenda.scheduleOn hours date = .ok schedule
  earlier : ∀ other, start.date ≤ other → other < date →
    ∃ schedule, agenda.scheduleOn hours other = .ok schedule
  steady : ∀ instant, start ≤ instant → instant.date < date →
    agenda.stateAt hours instant = .ok opened
  entry : decide (schedule.Contains (firstMinute start date)) = opened

namespace Searching

variable {date next : Date} {schedule following : Schedule} {opened : Bool}

theorem begin (h : agenda.scheduleOn hours start.date = .ok schedule) :
    Searching agenda hours start start.date schedule
      (decide (schedule.Contains start.clockTime.minutes)) where
  since := Int.le_refl _
  schedule_eq := h
  earlier other hle hlt := absurd hlt (Int.not_lt.2 hle)
  steady instant hle hlt := absurd hlt (Int.not_lt.2 (Instant.date_le_of_le hle))
  entry := by rw [firstMinute, if_pos rfl]

/-- Up to a minute of the date before which membership does not change, the state is the same. -/
theorem steady_until (h : Searching agenda hours start date schedule opened) {last : Nat}
    (hconst : Schedule.ConstantFrom schedule.Contains (firstMinute start date) last) :
    ∀ instant, start ≤ instant → instant.date = date → instant.clockTime.minutes < last →
      agenda.stateAt hours instant = .ok opened := by
  intro instant hle hdate hlt
  rw [stateAt_of_scheduleOn (hdate ▸ h.schedule_eq), ← h.entry]
  exact congrArg _ (decide_eq_decide.2 (hconst _ (firstMinute_le hle hdate) hlt))

/-- A bound after the first minute of the date is the answer of the search. -/
theorem verdict_change (h : Searching agenda hours start date schedule opened) {bound : ClockTime}
    (hbound : schedule.nextBound? (firstMinute start date) = some bound) :
    SearchVerdict agenda hours start limit (.ok (date.atMinute bound.minutes)) := by
  have hfirst := Schedule.nextBound?_eq_some (withinDay_of_scheduleOn h.schedule_eq) hbound
  have hpos : 0 < bound.minutes := Nat.lt_of_le_of_lt (Nat.zero_le _) hfirst.lt
  have hsteady : ∀ instant, start ≤ instant → instant < date.atMinute bound.minutes →
      agenda.stateAt hours instant = .ok opened := by
    intro instant hle hlt
    rcases Instant.lt_iff_date_time.1 hlt with hearlier | ⟨hdate, -⟩
    · exact h.steady instant hle hearlier
    · exact h.steady_until hfirst.constant instant hle hdate
        ((Date.lt_atMinute_iff hfirst.lt_day hdate).1 hlt)
  refine .change ?_ hsteady ?_
  · exact (start_lt_atMinute_iff h.since hpos hfirst.lt_day).2 hfirst.lt
  · rw [@stateAt_of_scheduleOn _ agenda hours (date.atMinute bound.minutes) _ h.schedule_eq,
      Date.minutes_atMinute date hfirst.lt_day, ← h.entry, ← decide_not]
    exact congrArg _ (decide_eq_decide.2 hfirst.flips)

/-- Without a bound after the first minute, the state is the same up to the end of the date. -/
theorem steady_date (h : Searching agenda hours start date schedule opened)
    (hbound : schedule.nextBound? (firstMinute start date) = none) :
    ∀ instant, start ≤ instant → instant.date ≤ date →
      agenda.stateAt hours instant = .ok opened := by
  intro instant hle hdate
  have hconst := Schedule.nextBound?_eq_none (withinDay_of_scheduleOn h.schedule_eq) hbound
  by_cases hlt : instant.date < date
  · exact h.steady instant hle hlt
  · have heq : instant.date = date := by
      rw [Date.le_iff] at hdate
      rw [Date.lt_iff] at hlt
      exact Date.ext (by omega)
    exact h.steady_until hconst instant hle heq instant.time.minutes_lt

/-- Then the last minute of the date has that state, too. -/
theorem endsOpen_eq (h : Searching agenda hours start date schedule opened)
    (hbound : schedule.nextBound? (firstMinute start date) = none) :
    schedule.endsOpen = opened := by
  have hday := withinDay_of_scheduleOn h.schedule_eq
  have hfirst : firstMinute start date ≤ 1439 := by
    unfold firstMinute
    split
    · exact Nat.le_of_lt_succ start.time.minutes_lt
    · exact Nat.zero_le _
  have hconst := Schedule.nextBound?_eq_none hday hbound 1439 hfirst (by decide)
  rw [← h.entry, Bool.eq_iff_iff, Schedule.endsOpen_iff hday, hconst, decide_eq_true_iff]

theorem stateAt_midnight (hfollowing : agenda.scheduleOn hours next = .ok following) :
    agenda.stateAt hours next.midnight = .ok following.startsOpen := by
  rw [@stateAt_of_scheduleOn _ agenda hours next.midnight following hfollowing]
  refine congrArg _ (Bool.eq_iff_iff.2 ?_)
  have hminutes : next.midnight.clockTime.minutes = 0 := Nat.zero_div _
  rw [Schedule.startsOpen_iff, decide_eq_true_iff, hminutes]

/-- All dates up to the one at hand could be evaluated. -/
theorem evaluated_before (h : Searching agenda hours start date schedule opened)
    (hnext : date.next? = some next) : ∀ other, start.date ≤ other → other < next →
      ∃ schedule, agenda.scheduleOn hours other = .ok schedule := by
  intro other hle hlt
  by_cases hother : other = date
  · exact ⟨schedule, hother ▸ h.schedule_eq⟩
  · have hnumber := Date.number_next? hnext
    have hne : other.number ≠ date.number := fun heq => hother (Date.ext heq)
    rw [Date.lt_iff] at hlt
    exact h.earlier other hle (Date.lt_iff.2 (by omega))

/-- If the following date begins in the same state, the search goes on there. -/
theorem step (h : Searching agenda hours start date schedule opened)
    (hbound : schedule.nextBound? (firstMinute start date) = none)
    (hnext : date.next? = some next) (hfollowing : agenda.scheduleOn hours next = .ok following)
    (hsame : following.startsOpen = opened) :
    Searching agenda hours start next following opened := by
  have hnumber := Date.number_next? hnext
  have hsince := h.since
  rw [Date.le_iff] at hsince
  have hnew : start.date ≠ next := by
    rintro heq
    rw [heq] at hsince
    omega
  refine ⟨?_, hfollowing, h.evaluated_before hnext, fun instant hle hlt => ?_, ?_⟩
  · rw [Date.le_iff]
    omega
  · refine h.steady_date hbound instant hle ?_
    rw [Date.lt_iff] at hlt
    rw [Date.le_iff]
    omega
  · rw [firstMinute, if_neg hnew, ← hsame, Bool.eq_iff_iff, Schedule.startsOpen_iff,
      decide_eq_true_iff]

/-- Then the state is the same up to that midnight, and at it. -/
theorem steady_midnight (h : Searching agenda hours start date schedule opened)
    (hbound : schedule.nextBound? (firstMinute start date) = none)
    (hnext : date.next? = some next) (hfollowing : agenda.scheduleOn hours next = .ok following)
    (hsame : following.startsOpen = opened) :
    ∀ instant, start ≤ instant → instant ≤ next.midnight →
      agenda.stateAt hours instant = .ok opened := by
  intro instant hle hlast
  by_cases heq : instant = next.midnight
  · rw [heq, stateAt_midnight hfollowing, hsame]
  · have hlt : instant < next.midnight :=
      Int.lt_iff_le_and_ne.2 ⟨hlast, fun hstamp => heq (Instant.stamp_injective hstamp)⟩
    have hdate := Date.lt_midnight_iff.1 hlt
    have hnumber := Date.number_next? hnext
    refine h.steady_date hbound instant hle ?_
    rw [Date.lt_iff] at hdate
    rw [Date.le_iff]
    omega

/-- If the state is another one at the midnight that ends the date, the search ends there. -/
theorem verdict_midnight (h : Searching agenda hours start date schedule opened)
    (hbound : schedule.nextBound? (firstMinute start date) = none)
    (hnext : date.next? = some next) (hfollowing : agenda.scheduleOn hours next = .ok following)
    (hdiffers : following.startsOpen ≠ opened) :
    SearchVerdict agenda hours start limit (.ok next.midnight) := by
  have hsince := Date.le_iff.1 h.since
  have hnumber := Date.number_next? hnext
  have hsteady : ∀ instant, start ≤ instant → instant < next.midnight →
      agenda.stateAt hours instant = .ok opened := by
    intro instant hle hlt
    have hdate := Date.lt_iff.1 (Date.lt_midnight_iff.1 hlt)
    exact h.steady_date hbound instant hle (Date.le_iff.2 (by omega))
  have hlater : start.date < next := Date.lt_iff.2 (by omega)
  refine .change ?_ hsteady ?_
  · exact Instant.lt_iff_date_time.2 (.inl hlater)
  · rw [stateAt_midnight hfollowing]
    exact congrArg _ (Bool.eq_not_of_ne hdiffers)

/-- One day of the search has a verdict if what comes after it has one. -/
theorem verdict_day {goOn : Date → Schedule → SearchM Zone Instant}
    (h : Searching agenda hours start date schedule opened)
    (hgoOn : ∀ next following, Asking (goOn next following).run)
    (hwithin : date.number ≤ start.date.number + limit)
    (hverdict : ∀ next following, date.next? = some next → 0 < limit →
      (∀ instant, start ≤ instant → instant ≤ next.midnight →
        agenda.stateAt hours instant = .ok opened) →
      Searching agenda hours start next following opened →
      SearchVerdict agenda hours start limit (outcome (goOn next following) hours)) :
    SearchVerdict agenda hours start limit
      (outcome (agenda.searchDay start limit date schedule goOn) hours) := by
  have hsince := Date.le_iff.1 h.since
  rw [outcome_searchDay hgoOn,
    changeWithin?_eq (withinDay_of_scheduleOn h.schedule_eq) h.since]
  cases hbound : schedule.nextBound? (firstMinute start date) with
  | some bound => exact h.verdict_change hbound
  | none =>
    cases hnext : date.next? with
    | none =>
      have hsteady := h.steady_date hbound
      exact .endOfCalendar hwithin hnext fun instant hle hlast =>
        hsteady instant hle (Date.le_lastInstant_iff.1 hlast)
    | some next =>
      have hnumber := Date.number_next? hnext
      cases hfollowing : agenda.scheduleOn hours next with
      | error error =>
        simp only [Option.map_none, hfollowing]
        exact .solar (Date.le_iff.2 (by omega)) (by omega) hfollowing (h.evaluated_before hnext)
      | ok following =>
        simp only [Option.map_none, hfollowing, h.endsOpen_eq hbound, bne_iff_ne]
        by_cases hsame : following.startsOpen = opened
        · have hsteady := h.steady_midnight hbound hnext hfollowing hsame
          rw [if_neg (not_not_intro hsame.symm)]
          by_cases hlimit : limit = 0
          · rw [if_pos hlimit]
            have hdate : date = start.date := Date.ext (by omega)
            rw [hdate] at hnext ⊢
            exact .endOfDay hlimit hnext hsteady
          · rw [if_neg hlimit]
            exact hverdict next following hnext (Nat.pos_of_ne_zero hlimit) hsteady
              (h.step hbound hnext hfollowing hsame)
        · rw [if_pos (Ne.symm hsame)]
          exact h.verdict_midnight hbound hnext hfollowing hsame

/-- Every search that keeps to the invariant has a verdict. The budget is what is left of the number
of days that may be looked at. -/
theorem verdict {budget : Nat} (h : Searching agenda hours start date schedule opened)
    (hbudget : date.number + budget = start.date.number + limit) :
    SearchVerdict agenda hours start limit
      (outcome (agenda.searchFrom start limit budget date schedule) hours) := by
  induction budget generalizing date schedule with
  | zero =>
    rw [searchFrom]
    refine h.verdict_day (fun _ _ => asking_throw _) (by omega) ?_
    intro next following hnext hlimit hsteady _
    exact .exhausted hlimit (by omega) hnext hsteady
  | succ budget ih =>
    rw [searchFrom]
    refine h.verdict_day (fun _ _ => asking_searchFrom agenda start limit budget _ _) (by omega) ?_
    intro next following hnext _ _ hnew
    have hnumber := Date.number_next? hnext
    exact ih hnew (by omega)

end Searching

/-- A search of an expression that is not always open finds the first change, or says rightly how
far there is none. -/
theorem searchVerdict_nextChange (h : agenda.expression.isAlwaysOpen = false)
    (hours : SolarHours Zone) (start : Instant) (limit : Nat) :
    SearchVerdict agenda hours start limit (outcome (agenda.nextChange start limit) hours) := by
  rw [outcome_nextChange h]
  cases hschedule : agenda.scheduleOn hours start.date with
  | error error =>
    refine .solar (Int.le_refl _) (by omega) hschedule ?_
    intro other hle hlt
    exact absurd hlt (Int.not_lt.2 hle)
  | ok schedule => exact (Searching.begin hschedule).verdict rfl

/-- From the last instant of an evening on, the next change comes at 02:00. -/
theorem searchVerdict_evenings : evenings.expression.isAlwaysOpen = false ∧
    SearchVerdict evenings .unknown (Date.lastInstant default) 1
      (.ok ⟨⟨1, by decide, by decide⟩, TimeOfDay.ofMinutes 120⟩) := by
  have h : evenings.expression.isAlwaysOpen = false := by decide
  have hchange : outcome (evenings.nextChange (Date.lastInstant default) 1) .unknown =
      .ok ⟨⟨1, by decide, by decide⟩, TimeOfDay.ofMinutes 120⟩ := by decide
  exact ⟨h, hchange ▸ searchVerdict_nextChange h _ _ _⟩

end Agenda

end Timetable
