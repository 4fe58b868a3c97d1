import Timetable.Calendar.IsoWeek
import Timetable.Proofs.Calendar.Date

/-!
Weeks one after the other.

The weeks of a year follow each other from the Monday of its first week on, seven days apart, up to
the first week of the next year (`IsoWeek.ofDay_eq_iff`), and there are as many of them as the
number of weeks of the year says (`IsoWeek.firstMonday_succ`). So it is known on which day each week
begins, across New Year as well (`Date.IsMondayOf.number_eq`).
-/

namespace Timetable

namespace IsoWeek

variable {year day : Int} {week : Nat}

/-- The number of the Monday with which the first week of a year begins: it is the week that holds
the first Thursday. -/
def firstMonday (year : Int) : Int := startOfYear year + (3 - startOfYear year) % 7 - 3

/-- The Monday of the week that holds a day. -/
def monday (day : Int) : Int := day - day % 7

theorem weeksInYear_le (year : Int) : weeksInYear year ≤ 53 := by
  unfold weeksInYear
  split <;> decide

/-- The first week of a year begins at most three days before or after New Year. -/
theorem firstMonday_bounds (year : Int) : firstMonday year % 7 = 0 ∧
    startOfYear year - 3 ≤ firstMonday year ∧ firstMonday year ≤ startOfYear year + 3 := by
  rw [firstMonday]
  omega

/-- The weeks of a year fill the days up to the first week of the next year. -/
theorem firstMonday_succ (h : -262143 ≤ year ∧ year ≤ 262142) :
    firstMonday (year + 1) = firstMonday year + 7 * weeksInYear year := by
  have hsucc := startOfYear_succ year
  rw [firstMonday, firstMonday, weeksInYear]
  split at hsucc <;> split <;> omega

/-- A day lies in the week that begins on its Monday, which is a week of the year unless the first
week of the next year has begun. -/
theorem ofDay_eq_iff : ofDay day = ⟨year, week⟩ ↔
    1 ≤ week ∧ monday day = firstMonday year + 7 * (week - 1) ∧
      monday day < firstMonday (year + 1) := by
  have hthursday : thursday day = monday day + 3 := rfl
  have hmonday : monday day % 7 = 0 := by
    rw [monday]
    omega
  have hfirst := firstMonday_bounds year
  have hnext := firstMonday_bounds (year + 1)
  rw [ofDay, mk.injEq, hthursday, yearOf_eq_iff]
  constructor
  · rintro ⟨hyear, hweek⟩
    rw [yearOf_eq_iff.2 hyear] at hweek
    omega
  · rintro ⟨hweek, hnumber, hbefore⟩
    have hyear : startOfYear year ≤ monday day + 3 ∧
        monday day + 3 < startOfYear (year + 1) := by
      omega
    rw [yearOf_eq_iff.2 hyear]
    omega

end IsoWeek

namespace Date

open IsoWeek

variable {date : Date} {year : Int} {week : Nat}

theorem isoWeek_bounds (date : Date) :
    (-262144 ≤ date.isoWeek.year ∧ date.isoWeek.year ≤ 262143) ∧ date.isoWeek.week ≤ 53 := by
  have hfirst := date.first_le
  have hlast := date.le_last
  have hbegin : startOfYear (-262144) = -95746496 := by decide
  have hend : startOfYear (262143 + 1) = 95745764 := by decide
  refine ⟨yearOf_bounds ?_ ?_, ?_⟩
  · simp only [IsoWeek.thursday]
    omega
  · simp only [IsoWeek.thursday]
    omega
  · have hlt := lt_startOfYear_yearOf (IsoWeek.thursday date.number)
    rw [startOfYear_succ] at hlt
    simp only [isoWeek, IsoWeek.ofDay]
    split at hlt <;> omega

/-- The date is a Monday and begins a week. -/
structure IsMondayOf (date : Date) (week : IsoWeek) : Prop where
  weekday_eq : date.weekday = .monday
  isoWeek_eq : date.isoWeek = week

theorem monday_number (h : date.weekday = .monday) : monday date.number = date.number := by
  have hmonday : date.number % 7 = 0 := weekdayOf_eq_iff.1 h
  rw [monday]
  omega

/-- The Monday of a week is as many weeks after the first one as the week's number says. -/
theorem IsMondayOf.number_eq (h : date.IsMondayOf ⟨year, week⟩) :
    date.number = firstMonday year + 7 * (week - 1) := by
  obtain ⟨-, hnumber, -⟩ := ofDay_eq_iff.1 h.isoWeek_eq
  rwa [monday_number h.weekday_eq] at hnumber

theorem week_of_isoWeek (h : date.isoWeek = ⟨year, week⟩)
    (hyear : -262143 ≤ year ∧ year ≤ 262142) : 1 ≤ week ∧ week ≤ weeksInYear year := by
  obtain ⟨hweek, hnumber, hbefore⟩ := ofDay_eq_iff.1 h
  rw [firstMonday_succ hyear] at hbefore
  omega

/-- Every week of a year begins with a Monday, if the calendar does not end in it. -/
theorem exists_isMondayOf (hyear : -262142 ≤ year ∧ year ≤ 262141)
    (hweek : 1 ≤ week ∧ week ≤ weeksInYear year) : ∃ date : Date, date.IsMondayOf ⟨year, week⟩ := by
  obtain ⟨hmonday, hfrom, -⟩ := firstMonday_bounds year
  obtain ⟨-, -, hupTo⟩ := firstMonday_bounds (year + 1)
  rw [firstMonday_succ ⟨by omega, by omega⟩] at hupTo
  have hbegin : startOfYear (-262143) ≤ firstMonday year + 7 * (week - 1) := by
    have hstart := startOfYear_mono (show -262143 + 1 ≤ year by omega)
    have hlength := startOfYear_succ (-262143)
    split at hlength <;> omega
  have hend : firstMonday year + 7 * (week - 1) < startOfYear (262142 + 1) := by
    have hstop := startOfYear_mono (show year + 1 ≤ 262142 + 1 by omega)
    omega
  obtain ⟨date, hnumber⟩ := exists_number_iff.2 ⟨hbegin, hend⟩
  have hweekday : date.weekday = .monday := weekdayOf_eq_iff.2 (by
    rw [hnumber, Weekday.index]
    omega)
  refine ⟨date, hweekday, ofDay_eq_iff.2 ⟨hweek.1, ?_, ?_⟩⟩
  · rw [monday_number hweekday, hnumber]
  · rw [monday_number hweekday, hnumber, firstMonday_succ ⟨by omega, by omega⟩]
    omega

end Date

end Timetable
