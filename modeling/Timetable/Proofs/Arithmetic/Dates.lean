import Timetable.Evaluation.Matching
import Timetable.Proofs.Arithmetic.Checked
import Timetable.Proofs.Calendar.IsoWeek
import Timetable.Proofs.Reading.Years

/-!
Checked arithmetic of dates.

Whether a selector matches a date is decided without a breach: `Selector.holdsOnChecked_eq`. No step
towards Easter leaves 32 bits, whatever the year. The other conditions rest on what is known of a
selector that was read: its steps are not zero, its years are at most 10000 and its weeks at most
53. The years of the calendar itself have fewer than 20 bits.
-/

namespace Timetable

open Width

/-! ### Easter -/

namespace Easter

/-- The month number and the day number of Easter, with checks. -/
def monthAndDayChecked (year : Int) : Checked (Int × Int) := do
  let golden ← signed32.remainder year 19
  let century ← signed32.quotient year 100
  let yearOfCentury ← signed32.remainder year 100
  let leapCenturies ← signed32.quotient century 4
  let centuryOfFour ← signed32.remainder century 4
  let lunarDays ← signed32.quotient (← signed32.plus century 8) 25
  let moonShift ← signed32.quotient
    (← signed32.plus (← signed32.minus century lunarDays) 1) 3
  let cycle ← signed32.plus (← signed32.times 19 golden) century
  let moon ← signed32.minus (← signed32.minus cycle leapCenturies) moonShift
  let epact ← signed32.remainder (← signed32.plus moon 15) 30
  let leapYears ← signed32.quotient yearOfCentury 4
  let yearOfFour ← signed32.remainder yearOfCentury 4
  let leaps ← signed32.plus (← signed32.plus 32 (← signed32.times 2 centuryOfFour))
    (← signed32.times 2 leapYears)
  let weekdayShift ← signed32.remainder
    (← signed32.minus (← signed32.minus leaps epact) yearOfFour) 7
  let lateness ← signed32.plus (← signed32.plus golden (← signed32.times 11 epact))
    (← signed32.times 22 weekdayShift)
  let lateMoon ← signed32.quotient lateness 451
  let sunday ← signed32.plus (← signed32.minus (← signed32.plus epact weekdayShift)
    (← signed32.times 7 lateMoon)) 114
  let day ← signed32.remainder sunday 31
  return (← signed32.quotient sunday 31, ← signed32.plus day 1)

/-- In all years of 32 bits, no step on the way to Easter leaves 32 bits. -/
theorem monthAndDayChecked_eq {year : Int} (h : signed32.Fits year) :
    monthAndDayChecked year = .ok (monthAndDay year) := by
  have hyear : -2147483648 ≤ year ∧ year ≤ 2147483647 := h
  have hfits : ∀ {a : Int}, -2147483648 ≤ a ∧ a ≤ 2147483647 → signed32.Fits a := id
  have hzero : signed32.Fits 0 := by decide
  -- Each result is named with its bounds, from which the sums that it goes into are seen to fit.
  obtain ⟨golden, hgolden, hgolden', _, _⟩ := exists_remainder (b := 19) h hzero (by decide)
  obtain ⟨century, hcentury, hcentury', _, _⟩ := exists_quotient (b := 100) h hzero (by decide)
  obtain ⟨years, hyears, hyears', _, _⟩ := exists_remainder (b := 100) h hzero (by decide)
  have hcenturyFits : signed32.Fits century := hfits (by omega)
  obtain ⟨leapCenturies, hleapCenturies, hleapCenturies', _, _⟩ :=
    exists_quotient (b := 4) hcenturyFits hzero (by decide)
  obtain ⟨ofFour, hofFour, hofFour', _, _⟩ :=
    exists_remainder (b := 4) hcenturyFits hzero (by decide)
  obtain ⟨lunarDays, hlunarDays, hlunarDays', _, _⟩ :=
    exists_quotient (a := century + 8) (b := 25) (hfits (by omega)) hzero (by decide)
  obtain ⟨moonShift, hmoonShift, hmoonShift', _, _⟩ :=
    exists_quotient (a := century - lunarDays + 1) (b := 3) (hfits (by omega)) hzero (by decide)
  obtain ⟨epact, hepact, hepact', _, _⟩ :=
    exists_remainder (a := 19 * golden + century - leapCenturies - moonShift + 15) (b := 30)
      (hfits (by omega)) hzero (by decide)
  obtain ⟨leapYears, hleapYears, hleapYears', _, _⟩ :=
    exists_quotient (a := years) (b := 4) (hfits (by omega)) hzero (by decide)
  obtain ⟨ofLeap, hofLeap, hofLeap', _, _⟩ :=
    exists_remainder (a := years) (b := 4) (hfits (by omega)) hzero (by decide)
  obtain ⟨weekdayShift, hweekdayShift, hweekdayShift', _, _⟩ :=
    exists_remainder (a := 32 + 2 * ofFour + 2 * leapYears - epact - ofLeap) (b := 7)
      (hfits (by omega)) hzero (by decide)
  obtain ⟨lateMoon, hlateMoon, hlateMoon', _, _⟩ :=
    exists_quotient (a := golden + 11 * epact + 22 * weekdayShift) (b := 451)
      (hfits (by omega)) hzero (by decide)
  have hsunday : signed32.Fits (epact + weekdayShift - 7 * lateMoon + 114) := hfits (by omega)
  obtain ⟨month, hmonth, hmonth', _, _⟩ := exists_quotient (b := 31) hsunday hzero (by decide)
  obtain ⟨day, hday, hday', _, _⟩ := exists_remainder (b := 31) hsunday hzero (by decide)
  have hmodel : monthAndDay year = (month, day + 1) := by
    -- The checks go from left to right, the formula takes the leap centuries off first.
    have hmoon : 19 * golden + (century - leapCenturies) - moonShift + 15 =
        19 * golden + century - leapCenturies - moonShift + 15 := by omega
    simp only [monthAndDay, hgolden', hcentury', hyears', hleapCenturies', hofFour', hlunarDays',
      hmoonShift', hmoon, hepact', hleapYears', hofLeap', hweekdayShift', hlateMoon', hmonth',
      hday']
  rw [hmodel, monthAndDayChecked]
  simp (disch := (apply hfits; omega)) only [↓plus_bind, ↓minus_bind, ↓times_bind,
    ↓bind_of_eq_ok hgolden, ↓bind_of_eq_ok hcentury, ↓bind_of_eq_ok hyears,
    ↓bind_of_eq_ok hleapCenturies, ↓bind_of_eq_ok hofFour, ↓bind_of_eq_ok hlunarDays,
    ↓bind_of_eq_ok hmoonShift, ↓bind_of_eq_ok hepact, ↓bind_of_eq_ok hleapYears,
    ↓bind_of_eq_ok hofLeap, ↓bind_of_eq_ok hweekdayShift, ↓bind_of_eq_ok hlateMoon,
    ↓bind_of_eq_ok hmonth, ↓bind_of_eq_ok hday]
  rfl

/-- Easter Sunday of a year, with checks. -/
def dateChecked? (year : Int) : Checked (Option Date) := do
  let (month, day) ← monthAndDayChecked year
  if 0 ≤ month ∧ 0 ≤ day then
    return (Month.ofNumber? month.toNat).bind fun m => Date.ofParts? year m day.toNat
  else return none

theorem dateChecked?_eq {year : Int} (h : signed32.Fits year) :
    dateChecked? year = .ok (date? year) := by
  rw [dateChecked?, date?, monthAndDayChecked_eq h, ok_bind]
  dsimp only
  split <;> rfl

end Easter

/-! ### Conditions on dates -/

theorem natCast_beq_zero (n : Nat) : ((n : Int) == 0) = (n == 0) := by
  cases n <;> rfl

/-- Whether a date lies in one of the years, with checks. -/
def YearRange.holdsOnChecked (range : YearRange) (date : Date) : Checked Bool := do
  let first ← unsigned16.fit range.first
  let last ← unsigned16.fit range.last
  let step ← unsigned16.fit range.step
  -- a year of too many bits is in no range
  if unsigned16.Fits date.year ∧ first ≤ date.year ∧ date.year ≤ last then
    let years ← unsigned16.minus date.year first
    return (← unsigned16.remainder years step) == 0
  else return false

/-- The steps of a range are not zero and its years fit, so that no date leads to a breach. -/
theorem YearRange.holdsOnChecked_eq {range : YearRange} (hbounds : range.InBounds)
    (hyears : range.HasSmallYears) (date : Date) :
    range.holdsOnChecked date = .ok (range.holdsOn date) := by
  obtain ⟨hleast, hgreatest⟩ := hbounds
  obtain ⟨hfirst, hlast⟩ := hyears
  rw [holdsOnChecked, fit_natCast (fits_unsigned16.2 (by omega)), ok_bind,
    fit_natCast (fits_unsigned16.2 (by omega)), ok_bind, fit_natCast (fits_unsigned16.2 hgreatest),
    ok_bind]
  have hsame : (unsigned16.Fits date.year ∧ (range.first : Int) ≤ date.year ∧
      date.year ≤ range.last) ↔
        0 ≤ date.year ∧ range.first ≤ date.year.toNat ∧ date.year.toNat ≤ range.last := by
    simp only [Width.Fits, unsigned16]
    omega
  by_cases hin : 0 ≤ date.year ∧ range.first ≤ date.year.toNat ∧ date.year.toNat ≤ range.last
  · obtain ⟨hnonneg, hafter, hbefore⟩ := hin
    have hyears : date.year - range.first = ((date.year.toNat - range.first : Nat) : Int) := by
      omega
    have hyearsFit : unsigned16.Fits ((date.year.toNat - range.first : Nat) : Int) :=
      fits_unsigned16.2 (by omega)
    rw [if_pos (hsame.2 ⟨hnonneg, hafter, hbefore⟩), minus_bind (hyears ▸ hyearsFit), hyears,
      remainder_natCast_eq hyearsFit (by decide) hleast, ok_bind, holdsOn]
    simp only [hnonneg, hafter, hbefore, decide_true, Bool.true_and, natCast_beq_zero]
    rfl
  · have hout : (decide (0 ≤ date.year) && decide (range.first ≤ date.year.toNat) &&
        decide (date.year.toNat ≤ range.last)) = false :=
      Bool.eq_false_iff.2 fun h => hin (by
        simpa only [Bool.and_eq_true, decide_eq_true_eq, and_assoc] using h)
    rw [if_neg (mt hsame.1 hin), holdsOn, hout]
    rfl

/-- The number of weeks since the first one of a range, with checks. A range over New Year goes on
counting from the year before. -/
def WeekRange.weeksSinceChecked (first : Int) (iso : IsoWeek) : Checked Int := do
  let week ← unsigned8.fit iso.week
  if first ≤ week then unsigned8.minus week first
  else do
    let before ← signed32.minus iso.year 1
    let length ← unsigned8.fit (IsoWeek.weeksInYear before)
    -- this difference stops at zero
    unsigned16.plus (max (length - first) 0) week

/-- If a range begins with a 53rd week that the year before does not have, no weeks of that year are
counted. In all other cases no difference is negative. -/
theorem WeekRange.weeksSinceChecked_eq {first : Nat} {iso : IsoWeek} (hfirst : first ≤ 53)
    (hyear : -262144 ≤ iso.year ∧ iso.year ≤ 262143) (hweek : iso.week ≤ 53) :
    weeksSinceChecked first iso = .ok ((if first ≤ iso.week then iso.week - first
      else IsoWeek.weeksInYear (iso.year - 1) - first + iso.week : Nat) : Int) := by
  have hlength := IsoWeek.weeksInYear_le (iso.year - 1)
  rw [weeksSinceChecked, fit_natCast (fits_unsigned8.2 (by omega)), ok_bind]
  by_cases hle : first ≤ iso.week
  · have hdifference : (iso.week : Int) - first = ((iso.week - first : Nat) : Int) := by omega
    have hfits : unsigned8.Fits ((iso.week - first : Nat) : Int) := fits_unsigned8.2 (by omega)
    rw [if_pos (Int.ofNat_le.2 hle), if_pos hle, minus_eq (hdifference ▸ hfits), hdifference]
  · have hsum : max ((IsoWeek.weeksInYear (iso.year - 1) : Int) - first) 0 + iso.week =
        ((IsoWeek.weeksInYear (iso.year - 1) - first + iso.week : Nat) : Int) := by omega
    have hfits : unsigned16.Fits
        ((IsoWeek.weeksInYear (iso.year - 1) - first + iso.week : Nat) : Int) :=
      fits_unsigned16.2 (by omega)
    rw [if_neg (mt Int.ofNat_le.1 hle), if_neg hle, minus_bind (fits_signed32.2 (by omega)),
      fit_natCast (fits_unsigned8.2 (by omega)), ok_bind, plus_eq (hsum ▸ hfits), hsum]

/-- Whether a date lies in one of the weeks, with checks. -/
def WeekRange.holdsOnChecked (range : WeekRange) (date : Date) : Checked Bool := do
  let first ← unsigned8.fit range.first
  let _ ← unsigned8.fit range.last
  let step ← unsigned8.fit range.step
  let weeks ← weeksSinceChecked first date.isoWeek
  if cycleContains range.first range.last date.isoWeek.week then
    return (← unsigned16.remainder weeks step) == 0
  else return false

theorem WeekRange.holdsOnChecked_eq {range : WeekRange} (hbounds : range.InBounds) (date : Date) :
    range.holdsOnChecked date = .ok (range.holdsOn date) := by
  obtain ⟨⟨-, hfirst⟩, ⟨-, hlast⟩, hleast, hgreatest⟩ := hbounds
  obtain ⟨hyear, hweek⟩ := date.isoWeek_bounds
  have hlength := IsoWeek.weeksInYear_le (date.isoWeek.year - 1)
  rw [holdsOnChecked, fit_natCast (fits_unsigned8.2 (by omega)), ok_bind,
    fit_natCast (fits_unsigned8.2 (by omega)), ok_bind, fit_natCast (fits_unsigned8.2 hgreatest),
    ok_bind, weeksSinceChecked_eq hfirst hyear hweek, ok_bind,
    remainder_natCast_eq (fits_unsigned16.2 (by split <;> omega)) (by decide) hleast, ok_bind,
    natCast_beq_zero, holdsOn]
  cases cycleContains range.first range.last date.isoWeek.week <;> rfl

/-- The year of a day, or a given one if it has none, with checks. -/
def AnnualDay.yearChecked (day : AnnualDay) (year : Int) : Checked Int :=
  match day.year? with
  | some own => unsigned16.fit own
  | none => .ok year

/-- The date of a day in its year, or in a given year if it has none, with checks. -/
def AnnualDay.inYearChecked (day : AnnualDay) (year : Int) : Checked (Option Date) := do
  let year ← day.yearChecked year
  match day with
  | .fixed _ month number =>
    let number ← unsigned8.fit number
    return Date.lastNotAfter? year month number.toNat
  | .easter _ => Easter.dateChecked? year

/-- A year of four digits, or the one behind it, is kept in 32 bits as it is in 16. -/
theorem AnnualDay.yearChecked_eq {day : AnnualDay} (hown : YearUpTo 10000 day.year?) {year : Int}
    (hyear : signed32.Fits year) :
    day.yearChecked year = .ok ((day.year?.map Int.ofNat).getD year) ∧
      signed32.Fits ((day.year?.map Int.ofNat).getD year) := by
  rw [yearChecked]
  cases hday : day.year? with
  | none => exact ⟨rfl, hyear⟩
  | some own =>
    have hle : own ≤ 10000 := hown own hday
    have hfits : signed32.Fits (own : Int) := fits_signed32.2 (by omega)
    exact ⟨fit_natCast (fits_unsigned16.2 (by omega)), hfits⟩

theorem AnnualDay.inYearChecked_eq {day : AnnualDay} (hbounds : day.InBounds)
    (hown : YearUpTo 10000 day.year?) {year : Int} (hyear : signed32.Fits year) :
    day.inYearChecked year = .ok (day.inYear? year) := by
  obtain ⟨hchecked, hfits⟩ := yearChecked_eq hown hyear
  rw [inYearChecked, hchecked, ok_bind]
  cases day with
  | easter => exact Easter.dateChecked?_eq hfits
  | fixed _ month number =>
    have hnumber : number ≤ 31 := hbounds.2
    dsimp only
    rw [fit_natCast (fits_unsigned8.2 (by omega)), ok_bind, Int.toNat_natCast]
    rfl

/-- The dates from one day to another, with checks. -/
def AnnualDay.intervalChecked (first last : AnnualDay) (year : Int) :
    Checked (Option (Date × Date)) := do
  match ← first.inYearChecked year with
  | none => return none
  | some start =>
    match ← last.inYearChecked year with
    | none => return none
    | some stop =>
      if stop < start ∧ last.year?.isNone then
        let following ← signed32.plus year 1
        return (← last.inYearChecked following).map fun stop => (start, stop)
      else return some (start, stop)

/-- The year after a year that is given to a range without one is within 32 bits, too. -/
theorem AnnualDay.intervalChecked_eq {first last : AnnualDay} (hfirst : first.InBounds)
    (hlast : last.InBounds) (hfirstYear : YearUpTo 10000 first.year?)
    (hlastYear : YearUpTo 10000 last.year?) {year : Int}
    (hyear : -300000 ≤ year ∧ year ≤ 300000) :
    first.intervalChecked last year = .ok (first.interval? last year) := by
  rw [intervalChecked, inYearChecked_eq hfirst hfirstYear (fits_signed32.2 (by omega)), ok_bind,
    interval?]
  cases first.inYear? year with
  | none => rfl
  | some start =>
    dsimp only
    rw [inYearChecked_eq hlast hlastYear (fits_signed32.2 (by omega)), ok_bind]
    cases last.inYear? year with
    | none => rfl
    | some stop =>
      simp only [Option.bind_eq_bind, Option.bind_some]
      split
      · rw [plus_bind (fits_signed32.2 (by omega)),
          inYearChecked_eq hlast hlastYear (fits_signed32.2 (by omega)), ok_bind]
        cases last.inYear? (year + 1) <;> rfl
      · rfl

/-- Whether a date lies in the part of the year, with checks. -/
def DateRange.holdsOnChecked (range : DateRange) (date : Date) : Checked Bool :=
  match range with
  | .months none first last => return cycleContains first.number last.number date.month.number
  | .months (some year) first last => do
    let year ← unsigned16.fit year
    if first.number ≤ last.number then
      return date.year == year && first.number ≤ date.month.number &&
        date.month.number ≤ last.number
    else if date.year == year && first.number ≤ date.month.number then return true
    else
      let following ← signed32.plus year 1
      return date.year == following && date.month.number ≤ last.number
  | .days first last =>
    match first.year?.or last.year? with
    | some year => do
      let year ← unsigned16.fit year
      return liesBetween date (← first.intervalChecked last year)
    | none => do
      let before ← signed32.minus date.year 1
      if liesBetween date (← first.intervalChecked last before) then return true
      else return liesBetween date (← first.intervalChecked last date.year)

/-- No part of the year leads to a breach on any date of the calendar, the first and the last one
included. -/
theorem DateRange.holdsOnChecked_eq {range : DateRange} (hbounds : range.InBounds)
    (hyears : range.HasSmallYears) (date : Date) :
    range.holdsOnChecked date = .ok (range.holdsOn date) := by
  obtain ⟨hdateFirst, hdateLast⟩ := date.year_bounds
  cases range with
  | months year first last =>
    cases year with
    | none => rfl
    | some year =>
      have hyear : year ≤ 9999 := hyears year rfl
      rw [holdsOnChecked, holdsOn, fit_natCast (fits_unsigned16.2 (by omega)), ok_bind]
      split
      · rfl
      · rw [plus_bind (fits_signed32.2 (by omega))]
        cases date.year == (year : Int) && decide (first.number ≤ date.month.number) <;> rfl
  | days first last =>
    obtain ⟨hfirst, hlast⟩ := hbounds
    obtain ⟨hfirstYear, hlastYear⟩ := hyears
    have hinterval : ∀ {year : Int}, -300000 ≤ year ∧ year ≤ 300000 →
        first.intervalChecked last year = .ok (first.interval? last year) :=
      AnnualDay.intervalChecked_eq hfirst hlast (hfirstYear.mono (by decide)) hlastYear
    rw [holdsOnChecked, holdsOn]
    cases hown : first.year?.or last.year? with
    | some year =>
      have hyear : year ≤ 10000 := by
        rcases Option.or_eq_some_iff.1 hown with hfirst | ⟨-, hlast⟩
        · exact hfirstYear.mono (by decide) year hfirst
        · exact hlastYear year hlast
      dsimp only
      rw [fit_natCast (fits_unsigned16.2 (by omega)), ok_bind, hinterval (by omega)]
      rfl
    | none =>
      dsimp only
      rw [minus_bind (fits_signed32.2 (by omega)), hinterval (by omega), ok_bind,
        hinterval (by omega), ok_bind]
      cases liesBetween date (first.interval? last (date.year - 1)) <;> rfl

/-! ### Selectors -/

/-- Whether a condition of a list holds, or the list asks for nothing, with checks. -/
def anyHoldsChecked {α : Type} (holds : α → Checked Bool) (conditions : List α) : Checked Bool :=
  if conditions.isEmpty then .ok true else conditions.anyM holds

theorem anyHoldsChecked_eq {α : Type} {checked : α → Checked Bool} {holds : α → Bool}
    {conditions : List α}
    (h : ∀ condition ∈ conditions, checked condition = .ok (holds condition)) :
    anyHoldsChecked checked conditions = .ok (anyHolds holds conditions) := by
  rw [anyHoldsChecked, anyHolds, anyM_eq_ok_any h]
  cases conditions.isEmpty <;> rfl

/-- Whether the selector matches a date, with checks. -/
def Selector.holdsOnChecked (holidays : HolidayCalendar) (selector : Selector) (date : Date) :
    Checked Bool :=
  anyHoldsChecked (·.holdsOnChecked date) selector.years <&&>
    anyHoldsChecked (·.holdsOnChecked date) selector.dates <&&>
    anyHoldsChecked (·.holdsOnChecked date) selector.weeks <&&>
    return anyHolds (·.holdsOn holidays date) selector.weekdays &&
      anyHolds (holidays · date) selector.holidays

/-- A selector in bounds can be compared with every date. -/
theorem Selector.holdsOnChecked_eq {selector : Selector} (hbounds : selector.InBounds)
    (hyears : selector.HasSmallYears) (holidays : HolidayCalendar) (date : Date) :
    selector.holdsOnChecked holidays date = .ok (selector.holdsOn holidays date) := by
  have hyearsChecked := anyHoldsChecked_eq fun range hrange =>
    YearRange.holdsOnChecked_eq (hbounds.years range hrange) (hyears.years range hrange) date
  have hdatesChecked := anyHoldsChecked_eq fun range hrange =>
    DateRange.holdsOnChecked_eq (hbounds.dates range hrange) (hyears.dates range hrange) date
  have hweeksChecked := anyHoldsChecked_eq fun range hrange =>
    WeekRange.holdsOnChecked_eq (hbounds.weeks range hrange) date
  rw [holdsOn, Bool.and_assoc, Bool.and_assoc, Bool.and_assoc]
  exact andM_eq_ok hyearsChecked (andM_eq_ok hdatesChecked (andM_eq_ok hweeksChecked rfl))

end Timetable
