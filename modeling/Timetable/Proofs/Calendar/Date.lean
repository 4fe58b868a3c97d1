import Mathlib.Order.Bounds.Defs
import Timetable.Calendar.Date

/-!
Years, months and days of a month.

A year holds the days from its own beginning to that of the next one (`yearOf_eq_iff`), and a month
of it likewise (`Month.ofDayOfYear_eq`). So a date is made up of its year, its month and its day of
the month in one way only (`Date.ofParts?_eq_some_iff`), and every day of every month of the
calendar's years is a date (`Date.exists_ofParts?`). Where a month lacks a day, the last of its days
before that one stands for it (`Date.lastNotAfter?_eq_some_iff`).
-/

namespace Timetable

/-! ### Years -/

theorem startOfYear_mono {year later : Int} (h : year ≤ later) :
    startOfYear year ≤ startOfYear later := by
  obtain ⟨count, rfl⟩ := Int.le.dest h
  clear h
  induction count with
  | zero => simp
  | succ count ih =>
    have hsucc := startOfYear_succ (year + count)
    rw [Int.natCast_succ, ← Int.add_assoc, hsucc]
    split <;> omega

/-- A year that holds a day is between the years that hold an earlier and a later one. -/
theorem yearOf_bounds {first day last : Int} (hfirst : startOfYear first ≤ day)
    (hlast : day < startOfYear (last + 1)) : first ≤ yearOf day ∧ yearOf day ≤ last := by
  have hle := startOfYear_yearOf_le day
  have hlt := lt_startOfYear_yearOf day
  constructor
  · refine Int.not_lt.1 fun hless => ?_
    have := startOfYear_mono (show yearOf day + 1 ≤ first by omega)
    omega
  · refine Int.not_lt.1 fun hmore => ?_
    have := startOfYear_mono (show last + 1 ≤ yearOf day by omega)
    omega

theorem yearOf_eq_iff {day year : Int} :
    yearOf day = year ↔ startOfYear year ≤ day ∧ day < startOfYear (year + 1) := by
  constructor
  · rintro rfl
    exact ⟨startOfYear_yearOf_le day, lt_startOfYear_yearOf day⟩
  · rintro ⟨hfirst, hlast⟩
    obtain ⟨hle, hge⟩ := yearOf_bounds hfirst hlast
    omega

/-! ### Months -/

namespace Month

variable {leap : Bool} {month : Month} {day : Nat}

theorem length_pos (leap : Bool) (month : Month) : 1 ≤ month.length leap := by
  cases month <;> cases leap <;> simp [length]

theorem daysBefore_add_length_le (leap : Bool) (month : Month) :
    month.daysBefore leap + month.length leap ≤ if leap then 366 else 365 := by
  cases month <;> cases leap <;> simp [daysBefore, length]

/-- The months leave no day of the year out. -/
theorem exists_month (h : day < if leap then 366 else 365) :
    ∃ month : Month, month.daysBefore leap ≤ day ∧
      day < month.daysBefore leap + month.length leap := by
  refine Classical.byContradiction fun hnone => ?_
  have hnot : ∀ month ∈ all, month.daysBefore leap ≤ day →
      month.daysBefore leap + month.length leap ≤ day :=
    fun month _ hfirst => Nat.not_lt.1 fun hlast => hnone ⟨month, hfirst, hlast⟩
  cases leap <;> simp [all, daysBefore, length] at h hnot <;> omega

theorem ofDayOfYear_eq (hfirst : month.daysBefore leap ≤ day)
    (hlast : day < month.daysBefore leap + month.length leap) : ofDayOfYear leap day = month := by
  have hlatest : all.reverse = [december, november, october, september, august, july, june, may,
    april, march, february, january] := rfl
  rw [ofDayOfYear, hlatest]
  -- Looking back from December, all months until this one begin after the day.
  cases leap <;> cases month <;> simp only [daysBefore, length] at hfirst hlast <;>
    simp (disch := (simp only [daysBefore, decide_eq_true_eq]; grind)) only
      [List.find?_cons_of_neg, List.find?_cons_of_pos, Option.getD_some]

end Month

/-! ### Weekdays -/

/-- The weekday of the day with a number. -/
def weekdayOf (number : Int) : Weekday := Weekday.ofIndex (number % 7).toNat

theorem weekdayOf_eq_iff {number : Int} {weekday : Weekday} :
    weekdayOf number = weekday ↔ number % 7 = weekday.index := by
  constructor
  · rintro rfl
    rw [weekdayOf, Weekday.index_ofIndex]
    omega
  · intro h
    rw [weekdayOf, h, Int.toNat_natCast, Weekday.ofIndex_index]

/-! ### Dates -/

/-- Days from 1 January of year 1 to a day of a month. -/
def dayNumber (year : Int) (month : Month) (day : Nat) : Int :=
  startOfYear year + month.daysBefore (isLeapYear year) + (day - 1)

namespace Date

variable {date : Date} {year : Int} {month : Month} {day : Nat}

theorem dayOfYear_lt (date : Date) :
    date.dayOfYear < if isLeapYear date.year then 366 else 365 := by
  have hlast : date.number < startOfYear (date.year + 1) := lt_startOfYear_yearOf date.number
  rw [startOfYear_succ] at hlast
  rw [dayOfYear]
  split at hlast <;> simp_all <;> omega

theorem month_bounds (date : Date) : date.month.daysBefore (isLeapYear date.year) ≤ date.dayOfYear ∧
    date.dayOfYear < date.month.daysBefore (isLeapYear date.year) +
      date.month.length (isLeapYear date.year) := by
  obtain ⟨month, hfirst, hlast⟩ := Month.exists_month date.dayOfYear_lt
  have hmonth : date.month = month := Month.ofDayOfYear_eq hfirst hlast
  rw [hmonth]
  exact ⟨hfirst, hlast⟩

theorem day_bounds (date : Date) :
    1 ≤ date.day ∧ date.day ≤ date.month.length (isLeapYear date.year) := by
  obtain ⟨hfirst, hlast⟩ := date.month_bounds
  rw [day]
  omega

theorem number_eq_dayNumber (date : Date) :
    date.number = dayNumber date.year date.month date.day := by
  have hstart : startOfYear date.year ≤ date.number := startOfYear_yearOf_le date.number
  have hoffset : date.number = startOfYear date.year + date.dayOfYear := by
    rw [dayOfYear]
    omega
  obtain ⟨hfirst, -⟩ := date.month_bounds
  rw [dayNumber, day, hoffset]
  omega

/-- The parts of a date are read off its number. -/
theorem parts_of_number (hday : 1 ≤ day ∧ day ≤ month.length (isLeapYear year))
    (hnumber : date.number = dayNumber year month day) :
    date.year = year ∧ date.month = month ∧ date.day = day := by
  have hwhole := Month.daysBefore_add_length_le (isLeapYear year) month
  have hyear : date.year = year := by
    rw [Date.year, yearOf_eq_iff, startOfYear_succ, hnumber, dayNumber]
    split at hwhole <;> simp_all <;> omega
  have hdayOfYear : date.dayOfYear = month.daysBefore (isLeapYear year) + (day - 1) := by
    rw [dayOfYear, hyear, hnumber, dayNumber]
    omega
  have hmonth : date.month = month := by
    rw [Date.month, hyear, hdayOfYear]
    exact Month.ofDayOfYear_eq (by omega) (by omega)
  refine ⟨hyear, hmonth, ?_⟩
  rw [Date.day, hmonth, hyear, hdayOfYear]
  omega

theorem ofParts?_eq_some_iff :
    ofParts? year month day = some date ↔
      date.year = year ∧ date.month = month ∧ date.day = day := by
  constructor
  · intro h
    rw [ofParts?] at h
    split at h
    · exact parts_of_number ‹_› (number_ofNumber? h)
    · cases h
  · rintro ⟨rfl, rfl, rfl⟩
    rw [ofParts?, if_pos date.day_bounds]
    have hnumber := date.number_eq_dayNumber
    rw [dayNumber] at hnumber
    rw [← hnumber, ofNumber?_number]

/-- The days of the calendar's years are the dates. -/
theorem exists_number_iff {number : Int} : (∃ date : Date, date.number = number) ↔
    startOfYear (-262143) ≤ number ∧ number < startOfYear (262142 + 1) := by
  have hbegin : startOfYear (-262143) = -95746130 := rfl
  have hend : startOfYear (262142 + 1) = 95745399 := rfl
  rw [hbegin, hend]
  constructor
  · rintro ⟨date, rfl⟩
    exact ⟨date.first_le, Int.lt_add_one_of_le date.le_last⟩
  · rintro ⟨hfirst, hlast⟩
    exact ⟨⟨number, hfirst, Int.le_of_lt_add_one hlast⟩, rfl⟩

theorem year_bounds (date : Date) : -262143 ≤ date.year ∧ date.year ≤ 262142 := by
  obtain ⟨hfirst, hlast⟩ := exists_number_iff.1 ⟨date, rfl⟩
  exact yearOf_bounds hfirst hlast

theorem exists_ofParts? (hyear : -262143 ≤ year ∧ year ≤ 262142)
    (hday : 1 ≤ day ∧ day ≤ month.length (isLeapYear year)) :
    ∃ date, ofParts? year month day = some date := by
  have hwhole := Month.daysBefore_add_length_le (isLeapYear year) month
  have hfirst := startOfYear_mono hyear.1
  have hlast := startOfYear_mono (show year + 1 ≤ 262142 + 1 by omega)
  have hsucc := startOfYear_succ year
  have hbefore : dayNumber year month day < startOfYear (year + 1) := by
    rw [dayNumber, hsucc]
    split at hwhole <;> simp_all <;> omega
  have hafter : startOfYear (-262143) ≤ dayNumber year month day := by
    rw [dayNumber]
    omega
  obtain ⟨date, hnumber⟩ := exists_number_iff.2 ⟨hafter, by omega⟩
  exact ⟨date, ofParts?_eq_some_iff.2 (parts_of_number hday hnumber)⟩

theorem le_antisymm {a b : Date} (hle : a ≤ b) (hge : b ≤ a) : a = b :=
  ext (Int.le_antisymm hle hge)

theorem lt_of_year_lt {a b : Date} (h : a.year < b.year) : a < b := by
  have ha : a.number < startOfYear (a.year + 1) := lt_startOfYear_yearOf a.number
  have hb : startOfYear b.year ≤ b.number := startOfYear_yearOf_le b.number
  have hyears := startOfYear_mono (show a.year + 1 ≤ b.year by omega)
  rw [lt_iff]
  omega

theorem year_le_of_le {a b : Date} (h : a ≤ b) : a.year ≤ b.year := by
  rw [le_iff] at h
  refine Int.not_lt.1 fun hless => ?_
  have hlt := lt_of_year_lt hless
  rw [lt_iff] at hlt
  omega

theorem le_of_day_le {a b : Date} (hyear : a.year = b.year) (hmonth : a.month = b.month)
    (hday : a.day ≤ b.day) : a ≤ b := by
  rw [le_iff, a.number_eq_dayNumber, b.number_eq_dayNumber, dayNumber, dayNumber, hyear, hmonth]
  omega

/-- The last of the days of a month that are not after a day number. -/
theorem isGreatest_of_lastNotAfter? {last : Date}
    (h : lastNotAfter? year month day = some last) :
    IsGreatest {other | other.year = year ∧ other.month = month ∧ other.day ≤ day} last := by
  obtain ⟨hyear, hmonth, hlast⟩ := ofParts?_eq_some_iff.1 h
  constructor
  · exact ⟨hyear, hmonth, by omega⟩
  · rintro other ⟨rfl, rfl, hother⟩
    have hbound := other.day_bounds
    exact le_of_day_le hyear.symm hmonth.symm (by omega)

theorem exists_lastNotAfter? (hyear : -262143 ≤ year ∧ year ≤ 262142) (hday : 1 ≤ day) :
    ∃ date, lastNotAfter? year month day = some date := by
  have hlength := Month.length_pos (isLeapYear year) month
  exact exists_ofParts? hyear (by omega)

theorem lastNotAfter?_eq_some_iff (hyear : -262143 ≤ year ∧ year ≤ 262142) (hday : 1 ≤ day) :
    lastNotAfter? year month day = some date ↔
      IsGreatest {other | other.year = year ∧ other.month = month ∧ other.day ≤ day} date := by
  constructor
  · exact isGreatest_of_lastNotAfter?
  · intro h
    obtain ⟨last, hlast⟩ : ∃ last, lastNotAfter? year month day = some last :=
      exists_lastNotAfter? hyear hday
    have hgreatest := isGreatest_of_lastNotAfter? hlast
    rw [hlast, Option.some.injEq]
    exact le_antisymm (h.2 hgreatest.1) (hgreatest.2 h.1)

end Date

end Timetable
