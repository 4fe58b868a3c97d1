import Mathlib.Data.Set.Card
import Mathlib.Order.Interval.Finset.Nat
import Timetable.Evaluation.Matching
import Timetable.Proofs.Calendar.IsoWeek

/-!
Steps of a week range count real weeks.

Whether a week is one of every so many is decided by week numbers, and over New Year by the length
of the year before. The weeks that are counted this way are those that lie between two Mondays of
the calendar, the first of which begins the range (`WeekRange.holdsOn_iff_mondaysApart`).
-/

namespace Timetable

/-- The number of weeks that belong to a year. -/
noncomputable def IsoWeek.count (year : Int) : Nat :=
  {week | ∃ date : Date, date.isoWeek = ⟨year, week⟩}.ncard

theorem IsoWeek.count_eq {year : Int} (h : -262142 ≤ year ∧ year ≤ 262141) :
    count year = weeksInYear year := by
  have hweeks : {week | ∃ date : Date, date.isoWeek = ⟨year, week⟩} =
      Set.Icc 1 (weeksInYear year) := by
    ext week
    constructor
    · rintro ⟨date, hdate⟩
      exact Date.week_of_isoWeek hdate ⟨by omega, by omega⟩
    · intro hweek
      obtain ⟨date, hdate⟩ := Date.exists_isMondayOf h hweek
      exact ⟨date, hdate.isoWeek_eq⟩
  rw [count, hweeks, Set.ncard_eq_toFinset_card', Set.toFinset_Icc, Nat.card_Icc]
  simp

/-- A range of a cycle is passed through from its first element on, over the end of the cycle if its
last element comes before. -/
theorem cycleContains_iff {first last element : Nat} : cycleContains first last element = true ↔
    first ≤ element ∧ element ≤ last ∨ last < first ∧ (first ≤ element ∨ element ≤ last) := by
  rw [cycleContains]
  split <;> simp <;> omega

namespace WeekRange

variable {range : WeekRange} {date : Date}

/-- The year in which a range began that a week may belong to: the week before the first one
belongs to a range of the year before. -/
def yearBegun (range : WeekRange) (week : IsoWeek) : Int :=
  if range.first ≤ week.week then week.year else week.year - 1

/-- The weeks since the first one of a range, as they are counted. -/
def weeksSince (range : WeekRange) (week : IsoWeek) : Nat :=
  if range.first ≤ week.week then week.week - range.first
  else IsoWeek.weeksInYear (week.year - 1) - range.first + week.week

theorem holdsOn_iff : range.holdsOn date = true ↔
    cycleContains range.first range.last date.isoWeek.week = true ∧
      range.step ∣ range.weeksSince date.isoWeek := by
  rw [holdsOn, Bool.and_eq_true, beq_iff_eq, Nat.dvd_iff_mod_eq_zero]
  rfl

/-- As many weeks are counted as lie between the Mondays. -/
theorem seven_mul_weeksSince {week : IsoWeek} {start monday : Date}
    (hyear : -262142 ≤ week.year ∧ week.year ≤ 262142)
    (hfirst : range.first ≤ IsoWeek.weeksInYear (range.yearBegun week))
    (hstart : start.IsMondayOf ⟨range.yearBegun week, range.first⟩)
    (hmonday : monday.IsMondayOf week) :
    (7 * range.weeksSince week : Int) = monday.number - start.number := by
  rw [hstart.number_eq, hmonday.number_eq]
  by_cases hwithin : range.first ≤ week.week
  · simp only [yearBegun, weeksSince, if_pos hwithin]
    omega
  · have hnext := IsoWeek.firstMonday_succ
      (show -262143 ≤ week.year - 1 ∧ week.year - 1 ≤ 262142 by omega)
    rw [Int.sub_add_cancel] at hnext
    simp only [yearBegun, weeksSince, if_neg hwithin] at *
    omega

/-- In the interior of the calendar, a week range matches a date just if the week of the date lies
in the range, over New Year if it is reversed, and its Monday comes a multiple of as many weeks as
the step says after the Monday of the range's first week. Both Mondays are dates, provided that the
year in which the range began has that first week. -/
theorem holdsOn_iff_mondaysApart (hfirst : 1 ≤ range.first)
    (hdate : -262141 ≤ date.isoWeek.year ∧ date.isoWeek.year ≤ 262140)
    (hweeks : range.first ≤ IsoWeek.count (range.yearBegun date.isoWeek)) :
    (∃ start : Date, start.IsMondayOf ⟨range.yearBegun date.isoWeek, range.first⟩) ∧
      (∃ monday : Date, monday.IsMondayOf date.isoWeek) ∧
      ∀ start monday : Date, start.IsMondayOf ⟨range.yearBegun date.isoWeek, range.first⟩ →
        monday.IsMondayOf date.isoWeek →
          (range.holdsOn date = true ↔
            (range.first ≤ date.isoWeek.week ∧ date.isoWeek.week ≤ range.last ∨
              range.last < range.first ∧
                (range.first ≤ date.isoWeek.week ∨ date.isoWeek.week ≤ range.last)) ∧
            7 * (range.step : Int) ∣ monday.number - start.number) := by
  rw [holdsOn_iff, cycleContains_iff]
  generalize hweek : date.isoWeek = week at *
  have hbegun : -262142 ≤ range.yearBegun week ∧ range.yearBegun week ≤ 262141 := by
    rw [yearBegun]
    split <;> omega
  rw [IsoWeek.count_eq hbegun] at hweeks
  have hexists : 1 ≤ week.week ∧ week.week ≤ IsoWeek.weeksInYear week.year :=
    Date.week_of_isoWeek hweek ⟨by omega, by omega⟩
  refine ⟨Date.exists_isMondayOf hbegun ⟨hfirst, hweeks⟩,
    Date.exists_isMondayOf ⟨by omega, by omega⟩ hexists, fun start monday hstart hmonday => ?_⟩
  have hdays := seven_mul_weeksSince ⟨by omega, by omega⟩ hweeks hstart hmonday
  rw [← hdays, ← Int.natCast_dvd_natCast, Int.mul_dvd_mul_iff_left (by decide)]

/-- Every second week from week 50 on, to week 2 of the next year. -/
def midwinter : WeekRange := ⟨50, 2, 2⟩

/-- Monday, 7 December 2020, which begins week 50. -/
def december2020 : Date := ⟨737765, by decide, by decide⟩

/-- Monday, 4 January 2021, which begins week 1. -/
def january2021 : Date := ⟨737793, by decide, by decide⟩

/-- As 2020 has 53 weeks, week 1 of 2021 is the fifth week of the range, four weeks after the
first. -/
theorem holdsOn_midwinter : midwinter.first ≤ IsoWeek.count 2020 ∧
    december2020.IsMondayOf ⟨2020, 50⟩ ∧ january2021.IsMondayOf ⟨2021, 1⟩ ∧
    january2021.number - december2020.number = 28 ∧ midwinter.holdsOn january2021 = true := by
  have hweeks : midwinter.first ≤ IsoWeek.count 2020 := by
    rw [IsoWeek.count_eq (by decide)]
    decide
  have hstart : december2020.IsMondayOf ⟨2020, 50⟩ := ⟨by decide, by decide⟩
  have hmonday : january2021.IsMondayOf ⟨2021, 1⟩ := ⟨by decide, by decide⟩
  have hdate : -262141 ≤ january2021.isoWeek.year ∧ january2021.isoWeek.year ≤ 262140 := by
    decide
  obtain ⟨-, -, hiff⟩ := holdsOn_iff_mondaysApart (by decide) hdate hweeks
  exact ⟨hweeks, hstart, hmonday, by decide,
    (hiff december2020 january2021 hstart hmonday).2 ⟨by decide, by decide⟩⟩

end WeekRange

end Timetable
