import Timetable.Evaluation.Matching
import Timetable.Proofs.Calendar.Easter
import Timetable.Proofs.Reading.Years

/-!
Date ranges are intervals of the calendar.

A day of the year comes on one date in each year (`AnnualDay.ComesOn`), and a range from a day to a
day means the dates between two such dates (`AnnualDay.Covers`): an end without a year is the first
one from the beginning on, and a range without any year comes back every year. To decide whether a
date is meant it is enough to look at its own year and the one before, though all years are meant
(`DateRange.holdsOn_days_iff`).

A range whose end has a year, but whose beginning has none, is not looked for in the year before.
This is the one way in which a range comes to match no date at all, unless its years are given in
the wrong order (`DateRange.exists_holdsOn_iff`).
-/

namespace Timetable

namespace AnnualDay

variable {day first last : AnnualDay} {year : Int} {date start stop : Date}

/-! ### Days in a year -/

/-- The date on which a day comes in a year: the Sunday after the full moon of spring, or the last
day of the month that is not after the day number. -/
def ComesOn (day : AnnualDay) (year : Int) (date : Date) : Prop :=
  match day with
  | .fixed _ month number =>
    IsGreatest {other | other.year = year ∧ other.month = month ∧ other.day ≤ number} date
  | .easter _ => Easter.IsSundayAfterMoon year date

/-- The year of a day, or a given year if it has none. -/
def yearOr (day : AnnualDay) (year : Int) : Int := (day.year?.map Int.ofNat).getD year

theorem yearOr_dated {own : Nat} (h : day.year? = some own) : day.yearOr year = own := by
  simp [yearOr, h]

theorem yearOr_undated (h : day.year? = none) : day.yearOr year = year := by
  simp [yearOr, h]

theorem inYear?_eq_some_iff (hday : day.InBounds)
    (hyear : 0 ≤ day.yearOr year ∧ day.yearOr year ≤ 262142) :
    day.inYear? year = some date ↔ day.ComesOn (day.yearOr year) date := by
  have hcalendar : -262143 ≤ day.yearOr year ∧ day.yearOr year ≤ 262142 := ⟨by omega, hyear.2⟩
  cases day with
  | fixed own month number => exact Date.lastNotAfter?_eq_some_iff hcalendar hday.1
  | easter own => exact Easter.date?_eq_some_iff hyear

theorem inYear?_dated (hday : day.InBounds) {own : Nat} (hown : day.year? = some own)
    (hyear : own ≤ 262142) : day.inYear? year = some date ↔ day.ComesOn own date := by
  rw [← yearOr_dated hown]
  exact inYear?_eq_some_iff hday (by rw [yearOr_dated hown]; omega)

theorem inYear?_undated (hday : day.InBounds) (hown : day.year? = none)
    (hyear : 0 ≤ year ∧ year ≤ 262142) :
    day.inYear? year = some date ↔ day.ComesOn year date := by
  have hiff : day.inYear? year = some date ↔ day.ComesOn (day.yearOr year) date :=
    inYear?_eq_some_iff hday (by rwa [yearOr_undated hown])
  rwa [yearOr_undated hown] at hiff

/-- From year 0 on, a day comes in every year of the calendar. -/
theorem exists_comesOn (hday : day.InBounds) (hyear : 0 ≤ year ∧ year ≤ 262142) :
    ∃ date, day.ComesOn year date := by
  cases day with
  | fixed own month number =>
    obtain ⟨date, hdate⟩ : ∃ date, Date.lastNotAfter? year month number = some date :=
      Date.exists_lastNotAfter? ⟨by omega, hyear.2⟩ hday.1
    exact ⟨date, Date.isGreatest_of_lastNotAfter? hdate⟩
  | easter own =>
    obtain ⟨date, -, -, hmoon⟩ := Easter.exists_date? hyear
    exact ⟨date, hmoon⟩

theorem ComesOn.unique {other : Date} (h : day.ComesOn year date)
    (hother : day.ComesOn year other) : date = other := by
  cases day with
  | fixed own month number => exact Date.le_antisymm (hother.2 h.1) (h.2 hother.1)
  | easter own => exact Easter.IsSundayAfterMoon.unique h hother

theorem ComesOn.year_eq (h : day.ComesOn year date) (hyear : 0 ≤ year ∧ year ≤ 262142) :
    date.year = year := by
  cases day with
  | fixed own month number => exact h.1.1
  | easter own => exact Easter.IsSundayAfterMoon.year_eq h hyear

/-! ### From a day to a day -/

/-- The date on which a range ends whose last day has no year: the first one from the beginning on,
in the year of the beginning or in the year after. -/
inductive EndsOn (last : AnnualDay) (year : Int) (start stop : Date) : Prop
  | sameYear (hstop : last.ComesOn year stop) (hle : start ≤ stop)
  | nextYear {early : Date} (hearly : last.ComesOn year early) (hlt : early < start)
      (hstop : last.ComesOn (year + 1) stop)

/-- What a range from a day to a day means: the dates between two dates. -/
inductive Covers (first last : AnnualDay) (date : Date) : Prop
  | dated {firstYear lastYear : Nat} {start stop : Date} (hfirst : first.year? = some firstYear)
      (hlast : last.year? = some lastYear) (hstart : first.ComesOn firstYear start)
      (hstop : last.ComesOn lastYear stop) (hle : start ≤ date) (hge : date ≤ stop)
  | begun {year : Nat} {start stop : Date} (hfirst : first.year? = some year)
      (hlast : last.year? = none) (hstart : first.ComesOn year start)
      (hstop : last.EndsOn year start stop) (hle : start ≤ date) (hge : date ≤ stop)
  | annual {year : Int} {start stop : Date} (hfirst : first.year? = none)
      (hlast : last.year? = none) (hyear : 0 ≤ year ∧ year ≤ 262141)
      (hstart : first.ComesOn year start) (hstop : last.EndsOn year start stop)
      (hle : start ≤ date) (hge : date ≤ stop)

theorem covers_dated {firstYear lastYear : Nat} (hfirst : first.year? = some firstYear)
    (hlast : last.year? = some lastYear) : first.Covers last date ↔
      ∃ start stop, (first.ComesOn firstYear start ∧ last.ComesOn lastYear stop) ∧
        start ≤ date ∧ date ≤ stop := by
  constructor
  · intro h
    cases h with
    | dated hfirst' hlast' hstart hstop hle hge =>
      obtain rfl := Option.some.inj (hfirst'.symm.trans hfirst)
      obtain rfl := Option.some.inj (hlast'.symm.trans hlast)
      exact ⟨_, _, ⟨hstart, hstop⟩, hle, hge⟩
    | begun _ hnone => simp [hlast] at hnone
    | annual _ hnone => simp [hlast] at hnone
  · rintro ⟨start, stop, ⟨hstart, hstop⟩, hle, hge⟩
    exact .dated hfirst hlast hstart hstop hle hge

theorem covers_begun {firstYear : Nat} (hfirst : first.year? = some firstYear)
    (hlast : last.year? = none) : first.Covers last date ↔
      ∃ start stop, (first.ComesOn firstYear start ∧ last.EndsOn firstYear start stop) ∧
        start ≤ date ∧ date ≤ stop := by
  constructor
  · intro h
    cases h with
    | dated _ hsome => simp [hlast] at hsome
    | begun hfirst' _ hstart hstop hle hge =>
      obtain rfl := Option.some.inj (hfirst'.symm.trans hfirst)
      exact ⟨_, _, ⟨hstart, hstop⟩, hle, hge⟩
    | annual hnone => simp [hfirst] at hnone
  · rintro ⟨start, stop, ⟨hstart, hstop⟩, hle, hge⟩
    exact .begun hfirst hlast hstart hstop hle hge

theorem covers_annual (hfirst : first.year? = none) (hlast : last.year? = none) :
    first.Covers last date ↔ ∃ year : Int, (0 ≤ year ∧ year ≤ 262141) ∧
      ∃ start stop, (first.ComesOn year start ∧ last.EndsOn year start stop) ∧
        start ≤ date ∧ date ≤ stop := by
  constructor
  · intro h
    cases h with
    | dated hsome => simp [hfirst] at hsome
    | begun hsome => simp [hfirst] at hsome
    | annual _ _ hyear hstart hstop hle hge =>
      exact ⟨_, hyear, _, _, ⟨hstart, hstop⟩, hle, hge⟩
  · rintro ⟨year, hyear, start, stop, ⟨hstart, hstop⟩, hle, hge⟩
    exact .annual hfirst hlast hyear hstart hstop hle hge

theorem EndsOn.year_bounds (h : last.EndsOn year start stop) (hyear : 0 ≤ year ∧ year ≤ 262141) :
    year ≤ stop.year ∧ stop.year ≤ year + 1 := by
  cases h with
  | sameYear hstop hle =>
    have := hstop.year_eq ⟨hyear.1, by omega⟩
    omega
  | nextYear hearly hlt hstop =>
    have := hstop.year_eq ⟨by omega, by omega⟩
    omega

/-- The end does not come before the beginning. -/
theorem EndsOn.le (h : last.EndsOn year start stop) (hstart : first.ComesOn year start)
    (hyear : 0 ≤ year ∧ year ≤ 262141) : start ≤ stop := by
  cases h with
  | sameYear hstop hle => exact hle
  | nextYear hearly hlt hstop =>
    have hstartYear := hstart.year_eq ⟨hyear.1, by omega⟩
    have hstopYear := hstop.year_eq ⟨by omega, by omega⟩
    exact Int.le_of_lt (Date.lt_of_year_lt (by omega))

theorem exists_endsOn (hlast : last.InBounds) (hyear : 0 ≤ year ∧ year ≤ 262141) (start : Date) :
    ∃ stop, last.EndsOn year start stop := by
  obtain ⟨stop, hstop⟩ : ∃ stop, last.ComesOn year stop :=
    exists_comesOn hlast ⟨hyear.1, by omega⟩
  by_cases hlt : stop < start
  · obtain ⟨later, hlater⟩ : ∃ later, last.ComesOn (year + 1) later :=
      exists_comesOn hlast ⟨by omega, by omega⟩
    exact ⟨later, .nextYear hstop hlt hlater⟩
  · exact ⟨stop, .sameYear hstop (Int.not_lt.1 hlt)⟩

/-! ### Intervals that are looked at -/

theorem interval?_dated (hfirst : first.InBounds) (hlast : last.InBounds)
    (hfirstYear : 0 ≤ first.yearOr year ∧ first.yearOr year ≤ 262142) {lastYear : Nat}
    (hown : last.year? = some lastYear) (hlastYear : lastYear ≤ 262142) :
    first.interval? last year = some (start, stop) ↔
      first.ComesOn (first.yearOr year) start ∧ last.ComesOn lastYear stop := by
  have hstop : last.inYear? year = some stop ↔ last.ComesOn lastYear stop :=
    inYear?_dated hlast hown hlastYear
  rw [← inYear?_eq_some_iff hfirst hfirstYear, ← hstop]
  simp [interval?, hown, Option.bind_eq_some_iff]

theorem interval?_undated (hfirst : first.InBounds) (hlast : last.InBounds)
    (hfirstYear : 0 ≤ first.yearOr year ∧ first.yearOr year ≤ 262142)
    (hown : last.year? = none) (hyear : 0 ≤ year ∧ year ≤ 262141) :
    first.interval? last year = some (start, stop) ↔
      first.ComesOn (first.yearOr year) start ∧ last.EndsOn year start stop := by
  have hstop (date : Date) : last.inYear? year = some date ↔ last.ComesOn year date :=
    inYear?_undated hlast hown ⟨hyear.1, by omega⟩
  have hlater (date : Date) : last.inYear? (year + 1) = some date ↔ last.ComesOn (year + 1) date :=
    inYear?_undated hlast hown ⟨by omega, by omega⟩
  rw [← inYear?_eq_some_iff hfirst hfirstYear]
  constructor
  · intro h
    obtain ⟨begun, hbegun, h⟩ := Option.bind_eq_some_iff.1 h
    obtain ⟨early, hearly, h⟩ := Option.bind_eq_some_iff.1 h
    by_cases hlt : early < begun
    · rw [if_pos ⟨hlt, by simp [hown]⟩] at h
      obtain ⟨later, hlater', h⟩ := Option.bind_eq_some_iff.1 h
      obtain ⟨rfl, rfl⟩ := Prod.mk.inj (Option.some.inj h)
      exact ⟨hbegun, .nextYear ((hstop early).1 hearly) hlt ((hlater later).1 hlater')⟩
    · rw [if_neg (fun hboth => hlt hboth.1)] at h
      obtain ⟨rfl, rfl⟩ := Prod.mk.inj (Option.some.inj h)
      exact ⟨hbegun, .sameYear ((hstop early).1 hearly) (Int.not_lt.1 hlt)⟩
  · rintro ⟨hbegun, hends⟩
    cases hends with
    | sameYear hsame hle =>
      have hnot : ¬ stop < start := Int.not_lt.2 hle
      simp [interval?, hbegun, (hstop stop).2 hsame, hnot]
    | nextYear hearly hlt hnext =>
      simp [interval?, hbegun, (hstop _).2 hearly, (hlater stop).2 hnext, hlt, hown]

end AnnualDay

theorem liesBetween_iff {date : Date} {interval : Option (Date × Date)} :
    liesBetween date interval = true ↔
      ∃ start stop, interval = some (start, stop) ∧ start ≤ date ∧ date ≤ stop := by
  cases interval with
  | none => simp [liesBetween]
  | some ends =>
    obtain ⟨start, stop⟩ := ends
    constructor
    · intro h
      simp only [liesBetween, Bool.and_eq_true, decide_eq_true_eq] at h
      exact ⟨start, stop, rfl, h⟩
    · rintro ⟨_, _, ⟨⟩, hle, hge⟩
      simp [liesBetween, hle, hge]

namespace DateRange

open AnnualDay

variable {first last : AnnualDay} {date : Date}

/-! ### What is matched -/

/-- The years of the days are small enough for the days to come in them. -/
theorem yearOr_bounds {day : AnnualDay} {year : Int} (hday : YearUpTo 10000 day.year?)
    (hyear : 0 ≤ year ∧ year ≤ 262142) : 0 ≤ day.yearOr year ∧ day.yearOr year ≤ 262142 := by
  cases hown : day.year? with
  | none => rwa [yearOr_undated hown]
  | some own =>
    have hsmall : own ≤ 10000 := hday own hown
    rw [yearOr_dated hown]
    omega

/-- The end of the range comes before its beginning, with the year that is given for the end. -/
def EndsFirst : DateRange → Prop
  | .months _ _ _ => False
  | .days first last => ∃ (lastYear : Nat) (start stop : Date), last.year? = some lastYear ∧
      first.ComesOn (first.yearOr lastYear) start ∧ last.ComesOn lastYear stop ∧ stop < start

section Days

variable (hbounds : (DateRange.days first last).InBounds)
  (hyears : (DateRange.days first last).HasSmallYears)

include hbounds hyears

/-- A year of the last day also serves for the first day. -/
theorem holdsOn_dated {lastYear : Nat} (hown : last.year? = some lastYear) :
    (DateRange.days first last).holdsOn date = true ↔
      ∃ start stop, (first.ComesOn (first.yearOr lastYear) start ∧ last.ComesOn lastYear stop) ∧
        start ≤ date ∧ date ≤ stop := by
  have hlastYear : lastYear ≤ 10000 := hyears.2 lastYear hown
  have hinterval {year : Int} {start stop : Date}
      (hyear : first.yearOr year = first.yearOr lastYear) :
      first.interval? last year = some (start, stop) ↔
        first.ComesOn (first.yearOr lastYear) start ∧ last.ComesOn lastYear stop := by
    have hfirstYear : 0 ≤ first.yearOr lastYear ∧ first.yearOr lastYear ≤ 262142 :=
      yearOr_bounds (hyears.1.mono (by decide)) ⟨by omega, by omega⟩
    rw [interval?_dated hbounds.1 hbounds.2 (hyear ▸ hfirstYear) hown (by omega), hyear]
  cases hfirst : first.year? with
  | none => simp [holdsOn, hfirst, hown, liesBetween_iff, hinterval]
  | some firstYear =>
    have hsame : first.yearOr firstYear = first.yearOr lastYear := by
      rw [yearOr_dated hfirst, yearOr_dated hfirst]
    simp [holdsOn, hfirst, liesBetween_iff, hinterval hsame]

theorem holdsOn_begun {year : Nat} (hfirst : first.year? = some year) (hlast : last.year? = none) :
    (DateRange.days first last).holdsOn date = true ↔
      ∃ start stop, (first.ComesOn year start ∧ last.EndsOn year start stop) ∧
        start ≤ date ∧ date ≤ stop := by
  have hyear : year ≤ 9999 := hyears.1 year hfirst
  have hyearOr : first.yearOr year = year := yearOr_dated hfirst
  have hinterval (start stop : Date) : first.interval? last year = some (start, stop) ↔
      first.ComesOn year start ∧ last.EndsOn year start stop := by
    rw [interval?_undated hbounds.1 hbounds.2 (by rw [hyearOr]; omega) hlast
      ⟨by omega, by omega⟩, hyearOr]
  simp [holdsOn, hfirst, liesBetween_iff, hinterval]

omit hyears in
/-- Whichever years are looked at, a date is matched in its own year or in the year before. -/
theorem holdsOn_annual (hfirst : first.year? = none) (hlast : last.year? = none)
    (hdate : 1 ≤ date.year ∧ date.year ≤ 262141) :
    (DateRange.days first last).holdsOn date = true ↔
      ∃ year : Int, (0 ≤ year ∧ year ≤ 262141) ∧
        ∃ start stop, (first.ComesOn year start ∧ last.EndsOn year start stop) ∧
          start ≤ date ∧ date ≤ stop := by
  have hyearOr (year : Int) : first.yearOr year = year := yearOr_undated hfirst
  have hinterval {year : Int} (hyear : 0 ≤ year ∧ year ≤ 262141) :
      liesBetween date (first.interval? last year) = true ↔
        ∃ start stop, (first.ComesOn year start ∧ last.EndsOn year start stop) ∧
          start ≤ date ∧ date ≤ stop := by
    have hequal (start stop : Date) : first.interval? last year = some (start, stop) ↔
        first.ComesOn (first.yearOr year) start ∧ last.EndsOn year start stop :=
      interval?_undated hbounds.1 hbounds.2 (by rw [hyearOr]; omega) hlast hyear
    simp [liesBetween_iff, hequal, hyearOr]
  have hlooked : (DateRange.days first last).holdsOn date = true ↔
      liesBetween date (first.interval? last (date.year - 1)) = true ∨
        liesBetween date (first.interval? last date.year) = true := by
    simp [holdsOn, hfirst, hlast]
  rw [hlooked]
  constructor
  · rintro (hbefore | hsame)
    · exact ⟨date.year - 1, ⟨by omega, by omega⟩, (hinterval ⟨by omega, by omega⟩).1 hbefore⟩
    · exact ⟨date.year, ⟨by omega, hdate.2⟩, (hinterval ⟨by omega, hdate.2⟩).1 hsame⟩
  · rintro ⟨year, hyear, start, stop, ⟨hstart, hstop⟩, hle, hge⟩
    -- The beginning is in the year itself and the end at the latest in the year after.
    have hstartYear := hstart.year_eq ⟨hyear.1, by omega⟩
    have hstopYear := hstop.year_bounds hyear
    have hfrom := Date.year_le_of_le hle
    have hupTo := Date.year_le_of_le hge
    have hcandidate : year = date.year - 1 ∨ year = date.year := by
      omega
    rcases hcandidate with rfl | rfl
    · exact .inl ((hinterval hyear).2 ⟨start, stop, ⟨hstart, hstop⟩, hle, hge⟩)
    · exact .inr ((hinterval hyear).2 ⟨start, stop, ⟨hstart, hstop⟩, hle, hge⟩)

/-- Unless it is only the end that has a year, a range matches the dates that it means. -/
theorem holdsOn_days_iff (hsame : last.year?.isSome → first.year?.isSome)
    (hdate : 1 ≤ date.year ∧ date.year ≤ 262141) :
    (DateRange.days first last).holdsOn date = true ↔ first.Covers last date := by
  cases hlast : last.year? with
  | some lastYear =>
    obtain ⟨firstYear, hfirst⟩ := Option.isSome_iff_exists.1 (hsame (by simp [hlast]))
    rw [holdsOn_dated hbounds hyears hlast, covers_dated hfirst hlast, yearOr_dated hfirst]
  | none =>
    cases hfirst : first.year? with
    | some year => rw [holdsOn_begun hbounds hyears hfirst hlast, covers_begun hfirst hlast]
    | none => rw [holdsOn_annual hbounds hfirst hlast hdate, covers_annual hfirst hlast]

theorem not_endsFirst_of_holdsOn (h : (DateRange.days first last).holdsOn date = true) :
    ¬ (DateRange.days first last).EndsFirst := by
  rintro ⟨lastYear, start, stop, hown, hstart, hstop, hlt⟩
  obtain ⟨start', stop', ⟨hstart', hstop'⟩, hle, hge⟩ := (holdsOn_dated hbounds hyears hown).1 h
  obtain rfl := hstart.unique hstart'
  obtain rfl := hstop.unique hstop'
  rw [Date.lt_iff] at hlt
  rw [Date.le_iff] at hle hge
  omega

/-- An end that has a year is matched, unless it comes before the beginning. -/
theorem holdsOn_end {lastYear : Nat} {stop : Date} (hown : last.year? = some lastYear)
    (hstop : last.ComesOn lastYear stop) (h : ¬ (DateRange.days first last).EndsFirst) :
    (DateRange.days first last).holdsOn stop = true := by
  have hlastYear : lastYear ≤ 10000 := hyears.2 lastYear hown
  obtain ⟨start, hstart⟩ : ∃ start, first.ComesOn (first.yearOr lastYear) start :=
    exists_comesOn hbounds.1
      (yearOr_bounds (hyears.1.mono (by decide)) ⟨by omega, by omega⟩)
  have hle : start ≤ stop := Int.not_lt.1 fun hlt =>
    h ⟨lastYear, start, stop, hown, hstart, hstop, hlt⟩
  exact (holdsOn_dated hbounds hyears hown).2
    ⟨start, stop, ⟨hstart, hstop⟩, hle, Int.le_refl _⟩

/-- An end without a year is found on the way from the beginning. -/
theorem exists_holdsOn_undated (hown : last.year? = none) :
    ∃ date, (DateRange.days first last).holdsOn date = true := by
  have hinterval {year : Int} (hyear : 0 ≤ year ∧ year ≤ 262141) : ∃ start stop,
      (first.ComesOn year start ∧ last.EndsOn year start stop) ∧ start ≤ start ∧ start ≤ stop := by
    obtain ⟨start, hstart⟩ : ∃ start, first.ComesOn year start :=
      exists_comesOn hbounds.1 ⟨hyear.1, by omega⟩
    obtain ⟨stop, hstop⟩ := exists_endsOn hbounds.2 hyear start
    exact ⟨start, stop, ⟨hstart, hstop⟩, Int.le_refl _, hstop.le hstart hyear⟩
  cases hfirst : first.year? with
  | some year =>
    have hyear : year ≤ 9999 := hyears.1 year hfirst
    obtain ⟨start, stop, hends⟩ := hinterval (show (0 : Int) ≤ year ∧ _ by omega)
    exact ⟨start, (holdsOn_begun hbounds hyears hfirst hown).2 ⟨start, stop, hends⟩⟩
  | none =>
    obtain ⟨start, stop, hends⟩ := hinterval (show (0 : Int) ≤ 2000 ∧ _ by decide)
    have hyear : start.year = 2000 := hends.1.1.year_eq (by decide)
    exact ⟨start, (holdsOn_annual hbounds hfirst hown (by omega)).2
      ⟨2000, by decide, start, stop, hends⟩⟩

end Days

theorem exists_holdsOn_months {year : Option Nat} {first last : Month}
    (hyear : YearUpTo 9999 year) :
    ∃ date, (DateRange.months year first last).holdsOn date = true := by
  have hlength := Month.length_pos (isLeapYear (year.getD 2000)) first
  have hcalendar : year.getD 2000 ≤ 9999 := by
    cases year with
    | none => decide
    | some own => exact hyear own rfl
  obtain ⟨date, hdate⟩ : ∃ date, Date.ofParts? (year.getD 2000 : Nat) first 1 = some date :=
    Date.exists_ofParts? ⟨by omega, by omega⟩ ⟨Nat.le_refl 1, hlength⟩
  obtain ⟨hown, rfl, -⟩ := Date.ofParts?_eq_some_iff.1 hdate
  refine ⟨date, ?_⟩
  cases year with
  | none => exact cycleContains_first date.month.number last.number
  | some own =>
    have hsame : date.year = own := hown
    simp only [holdsOn, hsame]
    split <;> simp_all

/-- A range matches no date just if it ends first. -/
theorem exists_holdsOn_iff {range : DateRange} (hbounds : range.InBounds)
    (hyears : range.HasSmallYears) :
    (∃ date, range.holdsOn date = true) ↔ ¬ range.EndsFirst := by
  cases range with
  | months year first last => simp [EndsFirst, exists_holdsOn_months hyears]
  | days first last =>
    constructor
    · rintro ⟨date, hdate⟩
      exact not_endsFirst_of_holdsOn hbounds hyears hdate
    · intro hnot
      cases hown : last.year? with
      | none => exact exists_holdsOn_undated hbounds hyears hown
      | some lastYear =>
        have hlastYear : lastYear ≤ 10000 := hyears.2 lastYear hown
        obtain ⟨stop, hstop⟩ : ∃ stop, last.ComesOn lastYear stop :=
          exists_comesOn hbounds.2 ⟨by omega, by omega⟩
        exact ⟨stop, holdsOn_end hbounds hyears hown hstop hnot⟩

end DateRange

namespace Expression

variable {text : String} {expression : Expression} {rule : Rule}

theorem dates_of_read (hread : read text = .ok expression) (hrule : rule ∈ expression.rules)
    {range : DateRange} (hrange : range ∈ rule.selector.dates) :
    range.InBounds ∧ range.HasSmallYears := by
  have hbounds := (inBounds_of_read hread).rule rule hrule
  have hyears := hasSmallYears_of_readRules (read_eq_ok.1 hread).1 rule hrule
  exact ⟨hbounds.selector.dates range hrange, hyears.dates range hrange⟩

/-! ### Ranges that were read -/

/-- A range that was read means the dates between two dates. If only the beginning has a year, the
end is the first one from the beginning on, and if neither has, this goes for every year from 0 on,
though only the year of the date and the one before are looked at. -/
theorem holdsOn_iff_covers (hread : read text = .ok expression) (hrule : rule ∈ expression.rules)
    {first last : AnnualDay} (hrange : .days first last ∈ rule.selector.dates)
    (hsame : last.year?.isSome → first.year?.isSome) {date : Date}
    (hdate : 1 ≤ date.year ∧ date.year ≤ 262141) :
    (DateRange.days first last).holdsOn date = true ↔ first.Covers last date := by
  obtain ⟨hbounds, hyears⟩ := dates_of_read hread hrule hrange
  exact DateRange.holdsOn_days_iff hbounds hyears hsame hdate

/-- From Easter to the end of March: over New Year, unless Easter is in March. -/
def easterToMarch : Expression where
  given := "easter-Mar 31 off"
  source := "easter-Mar 31 off"
  rules := [{ selector := { dates := [.days (.easter none) (.fixed none .march 31)] } }]

/-- 10 January 2026. -/
def january2026 : Date := ⟨739625, by decide, by decide⟩

/-- In 2025, Easter was in April, so that the range lasted until March of 2026. -/
theorem holdsOn_easterToMarch :
    read "easter-Mar 31 off" = .ok easterToMarch ∧ january2026.year = 2026 ∧
      (DateRange.days (.easter none) (.fixed none .march 31)).holdsOn january2026 = true ∧
      AnnualDay.Covers (.easter none) (.fixed none .march 31) january2026 := by
  have hread : read "easter-Mar 31 off" = .ok easterToMarch := by rfl
  have hmatched :
      (DateRange.days (.easter none) (.fixed none .march 31)).holdsOn january2026 = true := by
    decide
  have hcovered : AnnualDay.Covers (.easter none) (.fixed none .march 31) january2026 :=
    (holdsOn_iff_covers hread (List.mem_singleton.2 rfl) (List.mem_singleton.2 rfl) nofun
      (by decide)).1 hmatched
  exact ⟨hread, by decide, hmatched, hcovered⟩

/-- A range that was read matches some date just if its end, in the year that is given for it, does
not come before its beginning; and then it matches that end. -/
theorem exists_holdsOn_iff_not_endsFirst (hread : read text = .ok expression)
    (hrule : rule ∈ expression.rules) {range : DateRange} (hrange : range ∈ rule.selector.dates) :
    ((∃ date, range.holdsOn date = true) ↔ ¬ range.EndsFirst) ∧
      ∀ (first last : AnnualDay) (lastYear : Nat) (stop : Date), range = .days first last →
        last.year? = some lastYear → last.ComesOn lastYear stop →
          (range.holdsOn stop = true ↔ ¬ range.EndsFirst) := by
  obtain ⟨hbounds, hyears⟩ := dates_of_read hread hrule hrange
  refine ⟨DateRange.exists_holdsOn_iff hbounds hyears, ?_⟩
  rintro first last lastYear stop rfl hown hstop
  constructor
  · exact DateRange.not_endsFirst_of_holdsOn hbounds hyears
  · exact DateRange.holdsOn_end hbounds hyears hown hstop

/-- From Easter to the end of May 2021, when Easter is in April. -/
def easterToMay : DateRange := .days (.easter none) (.fixed (some 2021) .may 31)

/-- From 24 December to 2 January 2020, which are looked for in the same year. -/
def christmasToNewYear : DateRange :=
  .days (.fixed none .december 24) (.fixed (some 2020) .january 2)

/-- Closed in a part of the year. -/
def closedIn (range : DateRange) : Expression where
  given := range.text ++ " off"
  source := range.text ++ " off"
  rules := [{ selector := { dates := [range] } }]

/-- 31 May 2021. -/
def may2021 : Date := ⟨737940, by decide, by decide⟩

theorem exists_holdsOn_easterToMay :
    read "easter-2021 May 31 off" = .ok (closedIn easterToMay) ∧
      AnnualDay.ComesOn (.fixed (some 2021) .may 31) 2021 may2021 ∧
      easterToMay.holdsOn may2021 = true ∧ ¬ easterToMay.EndsFirst ∧
      ∃ date, easterToMay.holdsOn date = true := by
  have hread : read "easter-2021 May 31 off" = .ok (closedIn easterToMay) := by rfl
  obtain ⟨hexists, hend⟩ := exists_holdsOn_iff_not_endsFirst hread (List.mem_singleton.2 rfl)
    (List.mem_singleton.2 (rfl : easterToMay = easterToMay))
  have hfound : AnnualDay.inYear? (.fixed (some 2021) .may 31) 2021 = some may2021 := by decide
  have hday : AnnualDay.InBounds (.fixed (some 2021) .may 31) := ⟨by decide, by decide⟩
  have hstop : AnnualDay.ComesOn (.fixed (some 2021) .may 31) 2021 may2021 :=
    (AnnualDay.inYear?_eq_some_iff hday (by decide)).1 hfound
  have hmatched : easterToMay.holdsOn may2021 = true := by decide
  have hnot := (hend _ _ 2021 may2021 rfl rfl hstop).1 hmatched
  exact ⟨hread, hstop, hmatched, hnot, hexists.2 hnot⟩

/-- The end of this range has a year and its beginning has none; it matches no date, not even that
end. -/
theorem not_holdsOn_christmasToNewYear :
    read "Dec 24-2020 Jan 02 off" = .ok (closedIn christmasToNewYear) ∧
      ∀ date, christmasToNewYear.holdsOn date = false := by
  refine ⟨by rfl, fun date => ?_⟩
  have hinterval : AnnualDay.interval? (.fixed none .december 24) (.fixed (some 2020) .january 2)
      2020 = some (⟨737782, by decide, by decide⟩, ⟨737425, by decide, by decide⟩) := by
    decide
  have hlooked : christmasToNewYear.holdsOn date = liesBetween date (AnnualDay.interval?
      (.fixed none .december 24) (.fixed (some 2020) .january 2) 2020) := rfl
  simp only [hlooked, hinterval, liesBetween, Date.le_iff, Bool.and_eq_false_iff,
    decide_eq_false_iff_not]
  omega

end Expression

end Timetable
