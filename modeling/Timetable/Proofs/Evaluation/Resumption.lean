import Timetable.Proofs.Evaluation.Meaning
import Timetable.Proofs.Evaluation.NextChange

/-!
A search with a larger budget goes on where one with a smaller budget gave up.

`Resumes` says what the larger search answers, given the answer of the smaller one: a change or an
error of an evaluation stays, and if the budget was used up, the answer is that of a new search from
the reported instant with the rest of the budget. `resumes_nextChange` says this of all searches
whose budgets are not zero, also if more is kept about the sun at the later ones.

The reported instant is the last one of the last date that was searched. No bound of that date comes
after it, and the bounds of all later dates come after it just as after the first beginning
(`changeWithin?_eq_of_lt`). So the new search compares the same midnights and looks at the same
dates as the larger one (`outcome_searchFrom_congr`).
-/

namespace Timetable

variable {Zone : Type}

namespace Agenda

variable {agenda : Agenda} {hours : SolarHours Zone} {start : Instant} {date : Date}
  {schedule : Schedule} {limit more : Nat}

/-- What a search with a larger budget answers, given the answer of a search with a smaller one: the
same, or what a search with the rest of the budget answers from the reported instant on. -/
def Resumes (agenda : Agenda) (hours : SolarHours Zone) (more : Nat)
    (longer : Except SearchError Instant) : Except SearchError Instant → Prop
  | .ok change => longer = .ok change
  | .error (.solar error) => longer = .error (.solar error)
  | .error (.exhausted last) => longer = outcome (agenda.nextChange last more) hours

/-! ### Beginnings on earlier dates -/

/-- All bounds of a later date come after the beginning of a search. -/
theorem changeWithin?_eq_of_lt (hday : schedule.WithinDay) (hstart : start.date < date) :
    changeWithin? date schedule start =
      (schedule.nextBound? 0).map fun bound => date.atMinute bound.minutes := by
  have hne : start.date ≠ date := by
    rintro rfl
    exact absurd hstart (Int.lt_irrefl _)
  rw [changeWithin?_eq hday (Int.le_of_lt hstart), firstMinute, if_neg hne]

/-- No bound of a date comes after its last instant. -/
theorem changeWithin?_lastInstant (hday : schedule.WithinDay) :
    changeWithin? date schedule date.lastInstant = none := by
  rw [@changeWithin?_eq date.lastInstant date schedule hday (Int.le_refl _)]
  cases hbound : schedule.nextBound? (firstMinute date.lastInstant date) with
  | none => rfl
  | some bound =>
    have hfirst := Schedule.nextBound?_eq_some hday hbound
    have hlast : firstMinute date.lastInstant date = TimeOfDay.last.minutes := if_pos rfl
    have hminutes : TimeOfDay.last.minutes = 1439 := by decide
    have hlt := hfirst.lt
    have hlt_day := hfirst.lt_day
    omega

section SearchDay

variable {other : Instant} {limit' : Nat} {goOn goOn' : Date → Schedule → SearchM Zone Instant}

/-- Two searches of a date answer alike if they look at the same bounds and go on alike. -/
theorem outcome_searchDay_congr (hgoOn : ∀ next following, Asking (goOn next following).run)
    (hgoOn' : ∀ next following, Asking (goOn' next following).run) (hlimit : 0 < limit)
    (hlimit' : 0 < limit')
    (hchange : changeWithin? date schedule start = changeWithin? date schedule other)
    (hlater : ∀ next following, date.next? = some next →
      agenda.scheduleOn hours next = .ok following →
      outcome (goOn next following) hours = outcome (goOn' next following) hours) :
    outcome (agenda.searchDay start limit date schedule goOn) hours =
      outcome (agenda.searchDay other limit' date schedule goOn') hours := by
  rw [outcome_searchDay hgoOn, outcome_searchDay hgoOn', hchange]
  cases changeWithin? date schedule other with
  | some change => rfl
  | none =>
    cases hnext : date.next? with
    | none => rfl
    | some next =>
      cases hfollowing : agenda.scheduleOn hours next with
      | error error => simp only [hfollowing]
      | ok following =>
        simp only [hfollowing, hlater next following hnext hfollowing, Nat.ne_of_gt hlimit,
          Nat.ne_of_gt hlimit', if_false]

end SearchDay

/-- Searches that go on with the same date look at the same bounds, wherever before that date they
began; and limits that are not zero play no part. -/
theorem outcome_searchFrom_congr {other : Instant} {limit' : Nat} (hlimit : 0 < limit)
    (hlimit' : 0 < limit') (budget : Nat) :
    ∀ {date : Date} {schedule : Schedule}, agenda.scheduleOn hours date = .ok schedule →
      start.date < date → other.date < date →
      outcome (agenda.searchFrom start limit budget date schedule) hours =
        outcome (agenda.searchFrom other limit' budget date schedule) hours := by
  induction budget with
  | zero =>
    intro date schedule hschedule hstart hother
    have hday := withinDay_of_scheduleOn hschedule
    have hchange := (changeWithin?_eq_of_lt hday hstart).trans
      (changeWithin?_eq_of_lt hday hother).symm
    rw [searchFrom, searchFrom]
    exact outcome_searchDay_congr (fun _ _ => asking_throw _) (fun _ _ => asking_throw _) hlimit
      hlimit' hchange fun _ _ _ _ => rfl
  | succ budget ih =>
    intro date schedule hschedule hstart hother
    have hday := withinDay_of_scheduleOn hschedule
    have hchange := (changeWithin?_eq_of_lt hday hstart).trans
      (changeWithin?_eq_of_lt hday hother).symm
    rw [searchFrom, searchFrom]
    refine outcome_searchDay_congr (asking_searchFrom agenda start limit budget)
      (asking_searchFrom agenda other limit' budget) hlimit hlimit' hchange ?_
    intro next following hnext hfollowing
    have hnumber := Date.number_next? hnext
    rw [Date.lt_iff] at hstart hother
    exact ih hfollowing (Date.lt_iff.2 (by omega)) (Date.lt_iff.2 (by omega))

/-! ### Where a budget is used up -/

/-- A search that begins at the last instant of a date compares the midnight after it, and then goes
on with the following date. -/
theorem outcome_nextChange_lastInstant (h : agenda.expression.isAlwaysOpen = false)
    (hschedule : agenda.scheduleOn hours date = .ok schedule) (more : Nat) :
    outcome (agenda.nextChange date.lastInstant (more + 1)) hours =
      match date.next? with
      | none => .error (.exhausted date.lastInstant)
      | some next =>
        match agenda.scheduleOn hours next with
        | .error error => .error (.solar error)
        | .ok following =>
          if schedule.endsOpen != following.startsOpen then .ok next.midnight
          else
            outcome (agenda.searchFrom date.lastInstant (more + 1) more next following) hours := by
  have hday := withinDay_of_scheduleOn hschedule
  have hdate : date.lastInstant.date = date := rfl
  rw [outcome_nextChange h, hdate, hschedule]
  dsimp only
  rw [searchFrom, outcome_searchDay (asking_searchFrom agenda date.lastInstant (more + 1) more),
    changeWithin?_lastInstant hday]
  rfl

/-- On each date the larger search resumes the smaller one if it does so afterwards. -/
theorem resumes_searchDay {limit' : Nat} {goOn goOn' : Date → Schedule → SearchM Zone Instant}
    (h : agenda.expression.isAlwaysOpen = false)
    (hschedule : agenda.scheduleOn hours date = .ok schedule)
    (hgoOn : ∀ next following, Asking (goOn next following).run)
    (hgoOn' : ∀ next following, Asking (goOn' next following).run) (hlimit : 0 < limit)
    (hlimit' : 0 < limit')
    (hlater : ∀ next following, date.next? = some next →
      agenda.scheduleOn hours next = .ok following → schedule.endsOpen = following.startsOpen →
      Resumes agenda hours (more + 1) (outcome (goOn' next following) hours)
        (outcome (goOn next following) hours)) :
    Resumes agenda hours (more + 1)
      (outcome (agenda.searchDay start limit' date schedule goOn') hours)
      (outcome (agenda.searchDay start limit date schedule goOn) hours) := by
  rw [outcome_searchDay hgoOn, outcome_searchDay hgoOn']
  cases changeWithin? date schedule start with
  | some change => exact rfl
  | none =>
    cases hnext : date.next? with
    | none =>
      have hlast := outcome_nextChange_lastInstant h hschedule more
      rw [hnext] at hlast
      exact hlast.symm
    | some next =>
      cases hfollowing : agenda.scheduleOn hours next with
      | error error =>
        simp only [hfollowing]
        exact rfl
      | ok following =>
        simp only [hfollowing, Nat.ne_of_gt hlimit, Nat.ne_of_gt hlimit', if_false]
        split
        · exact rfl
        · rename_i hsame
          exact hlater next following hnext hfollowing (by simpa using hsame)

/-- The larger search resumes the smaller one from each date on. -/
theorem resumes_searchFrom (h : agenda.expression.isAlwaysOpen = false) (hlimit : 0 < limit)
    {limit' : Nat} (hlimit' : 0 < limit') (budget : Nat) :
    ∀ {date : Date} {schedule : Schedule}, agenda.scheduleOn hours date = .ok schedule →
      start.date ≤ date →
      Resumes agenda hours (more + 1)
        (outcome (agenda.searchFrom start limit' (budget + (more + 1)) date schedule) hours)
        (outcome (agenda.searchFrom start limit budget date schedule) hours) := by
  induction budget with
  | zero =>
    intro date schedule hschedule hsince
    rw [Nat.zero_add, searchFrom, searchFrom]
    refine resumes_searchDay h hschedule (fun _ _ => asking_throw _)
      (asking_searchFrom agenda start limit' more) hlimit hlimit' ?_
    intro next following hnext hfollowing hsame
    have hnumber := Date.number_next? hnext
    rw [Date.le_iff] at hsince
    have hlater : date < next := Date.lt_iff.2 (by omega)
    -- Both go on with the following date: one began earlier, the other one at the last instant.
    have hgoOn : outcome (agenda.searchFrom start limit' more next following) hours =
        outcome (agenda.searchFrom date.lastInstant (more + 1) more next following) hours :=
      outcome_searchFrom_congr hlimit' (Nat.succ_pos more) more hfollowing
        (Date.lt_iff.2 (by omega)) hlater
    have hlast := outcome_nextChange_lastInstant h hschedule more
    simp only [hnext, hfollowing, hsame, bne_self_eq_false, Bool.false_eq_true, if_false] at hlast
    exact hgoOn.trans hlast.symm
  | succ budget ih =>
    intro date schedule hschedule hsince
    rw [Nat.succ_add, searchFrom, searchFrom]
    refine resumes_searchDay h hschedule (asking_searchFrom agenda start limit budget)
      (asking_searchFrom agenda start limit' (budget + (more + 1))) hlimit hlimit' ?_
    intro next following hnext hfollowing _
    have hnumber := Date.number_next? hnext
    rw [Date.le_iff] at hsince
    exact ih hfollowing (Date.le_iff.2 (by omega))

/-- A place that is always open is reported as such at the end of the day. -/
theorem outcome_nextChange_of_isAlwaysOpen (h : agenda.expression.isAlwaysOpen = true)
    (hours : SolarHours Zone) (start : Instant) (hlimit : 0 < limit) :
    outcome (agenda.nextChange start limit) hours =
      .error (.exhausted start.date.lastInstant) := by
  unfold nextChange
  rw [h, if_pos rfl, if_neg (Nat.ne_of_gt hlimit)]
  rfl

/-- A budget only cuts the search off. With more of it, a change or an error stays as it is, and
where the budget was used up the answer is that of a search from there on with the rest of it. The
searches may begin with more known by heart about the sun, as long as the times are the same. -/
theorem resumes_nextChange (agenda : Agenda) {first second third : SolarHours Zone}
    (hsecond : first.Agree second) (hthird : first.Agree third) (start : Instant)
    (hlimit : 0 < limit) (hmore : 0 < more) :
    Resumes agenda third more (outcome (agenda.nextChange start (limit + more)) second)
      (outcome (agenda.nextChange start limit) first) := by
  have hlonger : 0 < limit + more := Nat.add_pos_left hlimit more
  cases halways : agenda.expression.isAlwaysOpen with
  | true =>
    rw [outcome_nextChange_of_isAlwaysOpen halways first start hlimit,
      outcome_nextChange_of_isAlwaysOpen halways second start hlonger]
    exact (outcome_nextChange_of_isAlwaysOpen halways third start.date.lastInstant hmore).symm
  | false =>
    obtain ⟨more, rfl⟩ := Nat.exists_eq_succ_of_ne_zero (Nat.ne_of_gt hmore)
    have hresumes : Resumes agenda first (more + 1)
        (outcome (agenda.nextChange start (limit + (more + 1))) first)
        (outcome (agenda.nextChange start limit) first) := by
      rw [outcome_nextChange halways, outcome_nextChange halways]
      cases hschedule : agenda.scheduleOn first start.date with
      | error error => exact rfl
      | ok schedule =>
        exact resumes_searchFrom halways hlimit hlonger limit hschedule (Int.le_refl _)
    rw [← (asking_nextChange agenda start (limit + (more + 1))).outcome_eq hsecond]
    cases hshorter : outcome (agenda.nextChange start limit) first with
    | ok change =>
      rw [hshorter] at hresumes
      exact hresumes
    | error error =>
      rw [hshorter] at hresumes
      cases error with
      | solar error => exact hresumes
      | exhausted last =>
        exact hresumes.trans ((asking_nextChange agenda last (more + 1)).outcome_eq hthird)

/-- A place that is open on Mondays while the sun is up. -/
def sunnyMondays : Agenda where
  expression :=
    { given := "Mo sunrise-sunset"
      source := "Mo sunrise-sunset"
      rules :=
        [{ selector := { weekdays := [.days .monday .monday] }
           spans := [⟨.solar .sunrise 0, .solar .sunset 0⟩], kind := .opened }] }
  holidays := .empty

/-- Nothing is kept yet of the times of an almanac. -/
def brightDays : SolarHours Unit where
  location := some ⟨⟨51, 0, by decide⟩, ()⟩
  almanac := .fixed brightDay

/-- What is kept after a search on a Monday evening that looks two days ahead. -/
def afterTwoDays : SolarHours Unit :=
  ((sunnyMondays.nextChange (Date.lastInstant default) 2).run.run brightDays).2

/-- On a Monday evening, two days are not enough to find a change. Five more days, counted from the
Wednesday evening on, find the next sunrise, as seven days do at once. -/
theorem resumes_sunnyMondays :
    brightDays.Agree afterTwoDays ∧ 0 < 2 ∧ 0 < 5 ∧
      outcome (sunnyMondays.nextChange (Date.lastInstant default) 2) brightDays =
        .error (.exhausted (Date.lastInstant ⟨2, by decide, by decide⟩)) ∧
      outcome (sunnyMondays.nextChange (Date.lastInstant default) 7) afterTwoDays =
        outcome (sunnyMondays.nextChange (Date.lastInstant ⟨2, by decide, by decide⟩) 5)
          brightDays ∧
      outcome (sunnyMondays.nextChange (Date.lastInstant default) 7) afterTwoDays =
        .ok (Date.atMinute ⟨7, by decide, by decide⟩ 420) := by
  have hagree : brightDays.Agree afterTwoDays :=
    (asking_nextChange sunnyMondays (Date.lastInstant default) 2).settled.agree_after brightDays
  have hshorter : outcome (sunnyMondays.nextChange (Date.lastInstant default) 2) brightDays =
      .error (.exhausted (Date.lastInstant ⟨2, by decide, by decide⟩)) := by decide +kernel
  have hresumes : Resumes sunnyMondays brightDays 5
      (outcome (sunnyMondays.nextChange (Date.lastInstant default) 7) afterTwoDays)
      (outcome (sunnyMondays.nextChange (Date.lastInstant default) 2) brightDays) :=
    resumes_nextChange sunnyMondays hagree (.refl brightDays) _ (by decide) (by decide)
  rw [hshorter] at hresumes
  refine ⟨hagree, by decide, by decide, hshorter, hresumes, hresumes.trans ?_⟩
  decide +kernel

end Agenda

end Timetable
