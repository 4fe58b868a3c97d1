import Timetable.Calendar.Easter
import Timetable.Proofs.Calendar.Date

/-!
Easter is the Sunday after the full moon of spring.

The full moon is not observed but reckoned, from the place of the year in the moon's cycle of 19
years and from corrections by the century (`fullMoon`). The computation of Easter counts the days
from 21 March to that moon and on to the next Sunday, and goes back a week where the moon of the
cycle is a day late (`fullMoon_eq`, `lateMoon_eq`). From year 0 on it names a day of March or April,
and this day is the first Sunday after the full moon (`date?_eq_some_iff`).

Divisors are positive: quotients are rounded down and remainders are not negative.
-/

namespace Timetable.Easter

variable {year : Int} {date : Date}

/-! ### The full moon of spring -/

/-- The place of a year in the moon's cycle of 19 years, counted from 1. -/
def goldenNumber (year : Int) : Int := year % 19 + 1

/-- The century that a year belongs to. -/
def centuryOf (year : Int) : Int := year / 100 + 1

/-- The leap days that the centuries have gone without, up to a constant. -/
def droppedLeapDays (year : Int) : Int := 3 * centuryOf year / 4 - 12

/-- The days by which the moon has left its cycle of 19 years behind, up to a constant. -/
def lunarCorrection (year : Int) : Int := (8 * centuryOf year + 5) / 25 - 5

/-- The age of the moon at the beginning of a year, as its cycle has it. -/
def cycleEpact (year : Int) : Int :=
  (11 * goldenNumber year + 20 + lunarCorrection year - droppedLeapDays year) % 30

/-- The age of the moon at the beginning of a year: 24 is avoided, and in the second half of the
cycle also 25. -/
def epact (year : Int) : Int :=
  if cycleEpact year = 24 ∨ cycleEpact year = 25 ∧ 11 < goldenNumber year then cycleEpact year + 1
  else cycleEpact year

/-- The full moon of spring as a day of March, which may lie in April: the first one from 21 March
on. -/
def fullMoon (year : Int) : Int :=
  if 44 - epact year < 21 then 44 - epact year + 30 else 44 - epact year

/-- The number of a day that is counted from the beginning of March. -/
def marchDay (year day : Int) : Int :=
  startOfYear year + Month.march.daysBefore (isLeapYear year) + (day - 1)

/-- A date is the Sunday after the full moon of spring, and not on it. -/
def IsSundayAfterMoon (year : Int) (date : Date) : Prop :=
  IsLeast {other : Date | marchDay year (fullMoon year) < other.number ∧ other.weekday = .sunday}
    date

/-! ### The steps of the computation -/

/-- Days from 21 March to the full moon as the cycle has it. -/
def moonDelay (year : Int) : Int :=
  (19 * (year % 19) + (year / 100 - year / 100 / 4) -
    (year / 100 - (year / 100 + 8) / 25 + 1) / 3 + 15) % 30

/-- Days from the day after that full moon to a Sunday. -/
def weekdayShift (year : Int) : Int :=
  (32 + 2 * (year / 100 % 4) + 2 * (year % 100 / 4) - moonDelay year - year % 100 % 4) % 7

/-- Weeks by which that Sunday is late. -/
def lateMoon (year : Int) : Int :=
  (year % 19 + 11 * moonDelay year + 22 * weekdayShift year) / 451

/-- Easter Sunday as a day of March. -/
def easterSunday (year : Int) : Int := 22 + moonDelay year + weekdayShift year - 7 * lateMoon year

theorem moonDelay_bounds (year : Int) : 0 ≤ moonDelay year ∧ moonDelay year ≤ 29 := by
  rw [moonDelay]
  omega

theorem weekdayShift_bounds (year : Int) : 0 ≤ weekdayShift year ∧ weekdayShift year ≤ 6 := by
  rw [weekdayShift]
  omega

/-- From year 0 on it makes no difference how quotients are rounded. -/
theorem monthAndDay_eq (h : 0 ≤ year) :
    monthAndDay year = ((easterSunday year + 92) / 31, (easterSunday year + 92) % 31 + 1) := by
  have hdelay := moonDelay_bounds year
  have hshift := weekdayShift_bounds year
  have hgolden : year.tmod 19 = year % 19 := Int.tmod_eq_emod_of_nonneg h
  have hcentury : year.tdiv 100 = year / 100 := Int.tdiv_eq_ediv_of_nonneg h
  have hyears : year.tmod 100 = year % 100 := Int.tmod_eq_emod_of_nonneg h
  have hleapCenturies : (year / 100).tdiv 4 = year / 100 / 4 :=
    Int.tdiv_eq_ediv_of_nonneg (by omega)
  have hofFour : (year / 100).tmod 4 = year / 100 % 4 := Int.tmod_eq_emod_of_nonneg (by omega)
  have hlunarDays : (year / 100 + 8).tdiv 25 = (year / 100 + 8) / 25 :=
    Int.tdiv_eq_ediv_of_nonneg (by omega)
  have hmoonShift : (year / 100 - (year / 100 + 8) / 25 + 1).tdiv 3 =
      (year / 100 - (year / 100 + 8) / 25 + 1) / 3 := Int.tdiv_eq_ediv_of_nonneg (by omega)
  have hmoon : (19 * (year % 19) + (year / 100 - year / 100 / 4) -
      (year / 100 - (year / 100 + 8) / 25 + 1) / 3 + 15).tmod 30 = moonDelay year :=
    Int.tmod_eq_emod_of_nonneg (by omega)
  have hleapYears : (year % 100).tdiv 4 = year % 100 / 4 := Int.tdiv_eq_ediv_of_nonneg (by omega)
  have hofLeap : (year % 100).tmod 4 = year % 100 % 4 := Int.tmod_eq_emod_of_nonneg (by omega)
  have hweekday : (32 + 2 * (year / 100 % 4) + 2 * (year % 100 / 4) - moonDelay year -
      year % 100 % 4).tmod 7 = weekdayShift year := Int.tmod_eq_emod_of_nonneg (by omega)
  have hlate : (year % 19 + 11 * moonDelay year + 22 * weekdayShift year).tdiv 451 =
      lateMoon year := Int.tdiv_eq_ediv_of_nonneg (by omega)
  have hsunday : moonDelay year + weekdayShift year - 7 * lateMoon year + 114 =
      easterSunday year + 92 := by
    rw [easterSunday]
    omega
  have hnonneg : 0 ≤ easterSunday year + 92 := by
    rw [easterSunday, lateMoon]
    omega
  simp only [monthAndDay, hgolden, hcentury, hyears, hleapCenturies, hofFour, hlunarDays,
    hmoonShift, hmoon, hleapYears, hofLeap, hweekday, hlate, hsunday,
    Int.tdiv_eq_ediv_of_nonneg hnonneg, Int.tmod_eq_emod_of_nonneg hnonneg]

/-! ### The Sunday after the full moon -/

/-- Later moons of the cycle belong to smaller epacts. -/
theorem moonDelay_eq (year : Int) : moonDelay year = (23 - cycleEpact year) % 30 := by
  have hlunar (century : Int) :
      (century - (century + 8) / 25 + 1) / 3 = (8 * (century + 1) + 5) / 25 := by
    omega
  have hdropped (century : Int) : century - century / 4 = 3 * (century + 1) / 4 := by
    omega
  simp only [moonDelay, cycleEpact, lunarCorrection, droppedLeapDays, centuryOf, goldenNumber,
    hlunar, hdropped]
  omega

/-- The moon of the cycle is late: it is full on 19 April, or on 18 April in the second half of the
cycle. -/
def MoonIsLate (year : Int) : Prop :=
  moonDelay year = 29 ∨ moonDelay year = 28 ∧ 11 < goldenNumber year

instance (year : Int) : Decidable (MoonIsLate year) :=
  inferInstanceAs (Decidable (_ ∨ _ ∧ _))

/-- A moon that is late is taken to be full a day before. -/
theorem fullMoon_eq (year : Int) :
    fullMoon year = 21 + moonDelay year - if MoonIsLate year then 1 else 0 := by
  have hcycle : 0 ≤ cycleEpact year ∧ cycleEpact year ≤ 29 := by
    rw [cycleEpact]
    omega
  have hdelay := moonDelay_eq year
  rw [fullMoon, epact]
  by_cases hlate : MoonIsLate year
  · rw [if_pos hlate]
    rw [MoonIsLate] at hlate
    split <;> split <;> omega
  · rw [if_neg hlate]
    rw [MoonIsLate] at hlate
    split <;> split <;> omega

/-- A week is taken off if that day before is the Sunday's own. -/
theorem lateMoon_eq (year : Int) :
    lateMoon year = if MoonIsLate year ∧ weekdayShift year = 6 then 1 else 0 := by
  have hdelay := moonDelay_bounds year
  have hshift := weekdayShift_bounds year
  by_cases hweek : MoonIsLate year ∧ weekdayShift year = 6
  · rw [if_pos hweek, lateMoon]
    simp only [MoonIsLate, goldenNumber] at hweek
    omega
  · rw [if_neg hweek, lateMoon]
    simp only [MoonIsLate, goldenNumber] at hweek
    omega

/-- Easter is one of the seven days after the full moon. -/
theorem easterSunday_bounds (year : Int) :
    fullMoon year < easterSunday year ∧ easterSunday year ≤ fullMoon year + 7 := by
  have hshift := weekdayShift_bounds year
  rw [fullMoon_eq, easterSunday, lateMoon_eq]
  by_cases hlate : MoonIsLate year
  · simp only [hlate, true_and, if_true]
    split <;> omega
  · simp only [hlate, false_and, if_false]
    omega

/-- Easter lies between 22 March and 25 April. -/
theorem easterSunday_range (year : Int) : 22 ≤ easterSunday year ∧ easterSunday year ≤ 56 := by
  have hdelay := moonDelay_bounds year
  have hshift := weekdayShift_bounds year
  rw [easterSunday, lateMoon_eq]
  split <;> simp only [MoonIsLate] at * <;> omega

theorem marchDay_easterSunday (year : Int) : marchDay year (easterSunday year) % 7 = 6 := by
  -- A year from March to March begins with a leap day at its end, so that the year after tells.
  have hmarch : startOfYear year + Month.march.daysBefore (isLeapYear year) =
      startOfYear (year + 1) - 306 := by
    rw [startOfYear_succ]
    cases isLeapYear year <;> simp [Month.daysBefore] <;> omega
  have hleapYears : year / 4 = 25 * (year / 100) + year % 100 / 4 := by
    omega
  have hleapCenturies : year / 400 = year / 100 / 4 := by
    omega
  rw [marchDay, hmarch, startOfYear, Int.add_sub_cancel, hleapYears, hleapCenturies, easterSunday,
    weekdayShift]
  omega

theorem isLeast_easterSunday (year : Int) :
    IsLeast {number | marchDay year (fullMoon year) < number ∧ weekdayOf number = .sunday}
      (marchDay year (easterSunday year)) := by
  obtain ⟨hafter, hbefore⟩ := easterSunday_bounds year
  have hsunday := marchDay_easterSunday year
  constructor
  · constructor
    · simp only [marchDay]
      omega
    · simp [weekdayOf_eq_iff, hsunday, Weekday.index]
  · rintro number ⟨hmoon, hnumber⟩
    rw [weekdayOf_eq_iff] at hnumber
    simp only [marchDay, Weekday.index] at *
    omega

/-! ### Easter as a date -/

/-- A day of March or April is the Sunday after the full moon of spring. -/
structure FallsOn (year : Int) (month : Month) (day : Nat) : Prop where
  in_month : 1 ≤ day ∧ day ≤ month.length (isLeapYear year)
  in_spring : month = .march ∧ 22 ≤ day ∨ month = .april ∧ day ≤ 25
  isLeast : IsLeast {number | marchDay year (fullMoon year) < number ∧ weekdayOf number = .sunday}
    (dayNumber year month day)

theorem dayNumber_march (year : Int) (day : Nat) : dayNumber year .march day = marchDay year day :=
  rfl

/-- The days of April go on from those of March. -/
theorem dayNumber_april (year : Int) (day : Nat) :
    dayNumber year .april day = marchDay year (day + 31) := by
  rw [dayNumber, marchDay]
  cases isLeapYear year <;> simp [Month.daysBefore] <;> omega

theorem exists_fallsOn (h : 0 ≤ year) : ∃ (month : Month) (day : Nat),
    monthAndDay year = ((month.number : Int), (day : Int)) ∧ FallsOn year month day := by
  have hleast := isLeast_easterSunday year
  rw [monthAndDay_eq h]
  obtain ⟨hfirst, hlast⟩ := easterSunday_range year
  obtain ⟨sunday, hsunday⟩ := Int.eq_ofNat_of_zero_le (show 0 ≤ easterSunday year by omega)
  rw [hsunday] at hleast hfirst hlast ⊢
  by_cases hmarch : sunday ≤ 31
  · refine ⟨.march, sunday, ?_, ?_, .inl ⟨rfl, by omega⟩, ?_⟩
    · simp only [Month.number, Prod.mk.injEq]
      omega
    · simp only [Month.length]
      omega
    · rwa [dayNumber_march]
  · obtain ⟨day, rfl⟩ := Nat.exists_eq_add_of_le' (show 31 ≤ sunday by omega)
    refine ⟨.april, day, ?_, ?_, .inr ⟨rfl, by omega⟩, ?_⟩
    · simp only [Month.number, Prod.mk.injEq]
      omega
    · simp only [Month.length]
      omega
    · rwa [dayNumber_april]

theorem date?_eq_ofParts? {month : Month} {day : Nat}
    (h : monthAndDay year = ((month.number : Int), (day : Int))) :
    date? year = Date.ofParts? year month day := by
  simp [date?, h, Month.ofNumber?_number]

/-- The computation finds the Sunday after the full moon of spring, in every year of the calendar
from 0 on. -/
theorem exists_date? (h : 0 ≤ year ∧ year ≤ 262142) :
    ∃ date, date? year = some date ∧ date.year = year ∧ IsSundayAfterMoon year date := by
  obtain ⟨month, day, hparts, hfalls⟩ := exists_fallsOn h.1
  obtain ⟨date, hdate⟩ := Date.exists_ofParts? ⟨by omega, h.2⟩ hfalls.in_month
  obtain ⟨hyear, hmonth, hday⟩ := Date.ofParts?_eq_some_iff.1 hdate
  have hnumber := date.number_eq_dayNumber
  rw [hyear, hmonth, hday] at hnumber
  refine ⟨date, (date?_eq_ofParts? hparts).trans hdate, hyear, ?_, ?_⟩
  · have hsunday := hfalls.isLeast.1
    rwa [← hnumber] at hsunday
  · intro other hother
    have hle := hfalls.isLeast.2 hother
    rwa [← hnumber] at hle

theorem IsSundayAfterMoon.unique {other : Date} (h : IsSundayAfterMoon year date)
    (hother : IsSundayAfterMoon year other) : date = other :=
  Date.le_antisymm (h.2 hother.1) (hother.2 h.1)

theorem IsSundayAfterMoon.year_eq (h : IsSundayAfterMoon year date)
    (hyear : 0 ≤ year ∧ year ≤ 262142) : date.year = year := by
  obtain ⟨sunday, -, hsunday, hmoon⟩ := exists_date? hyear
  rwa [h.unique hmoon]

theorem date?_eq_some_iff (h : 0 ≤ year ∧ year ≤ 262142) :
    date? year = some date ↔ IsSundayAfterMoon year date := by
  obtain ⟨sunday, hsunday, -, hmoon⟩ := exists_date? h
  rw [hsunday, Option.some.injEq]
  constructor
  · rintro rfl
    exact hmoon
  · exact hmoon.unique

/-- From year 0 on, the computation names a day of spring that is the Sunday after the full moon,
however far the year lies in the future; and in the years of the calendar it is a date. -/
theorem fallsOn_monthAndDay (h : 0 ≤ year) : ∃ (month : Month) (day : Nat),
    monthAndDay year = ((month.number : Int), (day : Int)) ∧ FallsOn year month day ∧
      (year ≤ 262142 → ∃ date, date? year = some date ∧
        (date.year = year ∧ date.month = month ∧ date.day = day) ∧ date.weekday = .sunday ∧
          IsSundayAfterMoon year date) := by
  obtain ⟨month, day, hparts, hfalls⟩ := exists_fallsOn h
  refine ⟨month, day, hparts, hfalls, fun hlast => ?_⟩
  obtain ⟨date, hdate, -, hmoon⟩ := exists_date? ⟨h, hlast⟩
  have hnamed := Date.ofParts?_eq_some_iff.1 ((date?_eq_ofParts? hparts).symm.trans hdate)
  exact ⟨date, hdate, hnamed, hmoon.1.2, hmoon⟩

/-- In 1981 the moon is late, and without its day before Easter would fall on 26 April. -/
theorem fallsOn_1981 : (0 : Int) ≤ 1981 ∧ MoonIsLate 1981 ∧ weekdayShift 1981 = 6 ∧
    FallsOn 1981 .april 19 ∧ ∃ date, date? 1981 = some date ∧ date.weekday = .sunday := by
  obtain ⟨month, day, hparts, hfalls, hdate⟩ :=
    fallsOn_monthAndDay (show (0 : Int) ≤ 1981 by decide)
  have hcomputed : monthAndDay 1981 = (((Month.april.number : Nat) : Int), ((19 : Nat) : Int)) := by
    decide
  obtain ⟨hmonth, hday⟩ := Prod.mk.inj (hparts.symm.trans hcomputed)
  obtain rfl := Month.number_injective (Int.ofNat_inj.1 hmonth)
  obtain rfl := Int.ofNat_inj.1 hday
  obtain ⟨date, hdate, -, hsunday, -⟩ := hdate (by decide)
  exact ⟨by decide, by decide, by decide, hfalls, date, hdate, hsunday⟩

end Timetable.Easter
