import Timetable.Proofs.Reading.Selector

/-!
Weekdays and holidays are read as they are written.

They stand in one of three orders, and the grammar has an alternative for each: holidays on
weekdays, weekdays before holidays and holidays before weekdays. Each alternative refuses the texts
of those tried after it, so that the days always come back (`reads_days`).
-/

namespace Timetable

namespace Grammar

open Peg

variable {rest source : List Char}

/-! ### Weekdays and holidays -/

theorem reads_weekdayRange {first last : Weekday} (hrest : GoesOn .weekdays rest) :
    weekdayRange.Reads ((WeekdayRange.days first last).text.toList ++ rest) rest
      fun form => form.interpret = .ok (.days first last) := by
  have hoccurrences : occurrences.Refuses rest := Refuses.map (Refuses.located (Refuses.named
    (hrest.refuses_token (by decide) []).andThen))
  have hplain := Ends.seq (reads_optional_none hoccurrences rfl)
    (reads_optional_none hrest.refuses_dayOffset rfl)
  unfold WeekdayRange.text
  dsimp only
  rw [String.toList_append, List.append_assoc]
  by_cases heq : first = last
  · obtain rfl := heq
    rw [if_pos rfl]
    apply Ends.named
    refine Ends.map (Ends.seq (Ends.seq (reads_weekday first rest)
      (reads_optional_none (hrest.refuses_token (by decide) []).andThen rfl))
      hplain) ?_
    rintro ⟨⟨day, other⟩, occurrences, offset⟩ ⟨⟨hday, hother⟩, hoccurrences, hoffset⟩
    dsimp only at hday hother hoccurrences hoffset
    subst hday hother hoccurrences hoffset
    rfl
  · rw [if_neg heq, String.toList_append, List.append_assoc]
    apply Ends.named
    refine Ends.map (Ends.seq (Ends.seq (reads_weekday first _)
      (Ends.optional (Ends.andThen (reads_token_cons '-' _) (reads_weekday last rest))))
      hplain) ?_
    rintro ⟨⟨day, other⟩, occurrences, offset⟩ ⟨⟨hday, last', hother, hlast⟩, hoccurrences, hoffset⟩
    dsimp only at hday hother hoccurrences hoffset
    subst hday hother hlast hoccurrences hoffset
    rfl

theorem reads_holiday {kind : Holiday} (hrest : GoesOn .holidays rest) :
    holiday.Reads (kind.abbreviation.toList ++ rest) rest
      fun form => form.interpret = .ok kind := by
  have hkind : (choice (named (word "PH" Holiday.publicHoliday))
      (named (word "SH" Holiday.schoolHoliday))).Reads (kind.abbreviation.toList ++ rest) rest
      (· = kind) := by
    cases kind <;> exact fun _ => ⟨_, _, rfl, rfl, rfl⟩
  apply Ends.named
  refine Ends.map (Ends.seq hkind
    (reads_optional_none hrest.refuses_dayOffset rfl)) ?_
  rintro ⟨_, _⟩ ⟨rfl, rfl⟩
  rfl

theorem mem_weekdayRanges {pairs : List (Weekday × Weekday)} {range : WeekdayRange}
    (h : range ∈ weekdayRanges pairs) : ∃ first last, range = .days first last := by
  obtain ⟨pair, -, rfl⟩ := List.mem_map.1 h
  exact ⟨pair.1, pair.2, rfl⟩

theorem weekdayRanges_ne_nil {pairs : List (Weekday × Weekday)} (h : pairs ≠ []) :
    weekdayRanges pairs ≠ [] := by
  rw [weekdayRanges, Ne, List.map_eq_nil_iff]
  exact h

theorem reads_weekdays {pairs : List (Weekday × Weekday)} (hne : pairs ≠ [])
    (hrest : GoesOn .weekdays rest) (hstop : ((token [',']).andThen weekdayRange).Refuses rest) :
    weekdays.Reads
      ((String.intercalate "," ((weekdayRanges pairs).map WeekdayRange.text)).toList ++ rest) rest
      fun forms => forms.mapM WeekdayForm.interpret = .ok (weekdayRanges pairs) := by
  apply Ends.named
  refine @reads_separatedBy _ _ _ _ weekdayRange _ WeekdayForm.interpret
    WeekdayRange.text (GoesOn .weekdays) _ consumes_comma (fun _ _ => reads_token_cons ',' _)
    (goesOn_comma .weekdays) hrest _ (weekdayRanges_ne_nil hne) ?_ hstop
  intro range hmem rest hrest
  obtain ⟨first, last, rfl⟩ := mem_weekdayRanges hmem
  exact reads_weekdayRange hrest

theorem reads_holidays {kinds : List Holiday} (hne : kinds ≠ []) (hrest : GoesOn .holidays rest)
    (hstop : ((token [',']).andThen holiday).Refuses rest) :
    holidays.Reads
      ((String.intercalate "," (kinds.map Holiday.abbreviation)).toList ++ rest) rest
      fun forms => forms.mapM HolidayForm.interpret = .ok kinds :=
  Ends.named (@reads_separatedBy _ _ _ _ holiday _ HolidayForm.interpret Holiday.abbreviation
    (GoesOn .holidays) _ consumes_comma (fun _ _ => reads_token_cons ',' _)
    (goesOn_comma .holidays) hrest _ hne (fun _ _ _ => reads_holiday) hstop)

theorem begins_weekdays {pairs : List (Weekday × Weekday)} (hne : pairs ≠ [])
    (rest : List Char) : Begins .weekdays
      ((String.intercalate "," ((weekdayRanges pairs).map WeekdayRange.text)).toList ++ rest) := by
  obtain ⟨pair, pairs, rfl⟩ := List.exists_cons_of_ne_nil hne
  rw [weekdayRanges, List.map_cons, List.map_cons, toList_intercalate_cons, List.append_assoc,
    WeekdayRange.text, String.toList_append, List.append_assoc]
  exact .weekday pair.1 _

theorem begins_holidays {kinds : List Holiday} (hne : kinds ≠ []) (rest : List Char) :
    Begins .holidays
      ((String.intercalate "," (kinds.map Holiday.abbreviation)).toList ++ rest) := by
  obtain ⟨kind, kinds, rfl⟩ := List.exists_cons_of_ne_nil hne
  rw [List.map_cons, toList_intercalate_cons, List.append_assoc]
  exact .holiday kind _

/-- Weekdays and holidays, as they are written. -/
def daysWords (selector : Selector) : List String :=
  listed "" (selector.holidays.map Holiday.abbreviation) ++
    listed "" (selector.weekdays.map WeekdayRange.text)

/-- Holidays that are demanded come before the weekdays. -/
theorem toList_holidaysOnWeekdays {kinds : List Holiday} {ranges : List WeekdayRange}
    (hkinds : kinds ≠ []) (hranges : ranges ≠ []) :
    (String.intercalate " " (listed "" (kinds.map Holiday.abbreviation) ++
      listed "" (ranges.map WeekdayRange.text))).toList =
        (String.intercalate "," (kinds.map Holiday.abbreviation)).toList ++
          ' ' :: (String.intercalate "," (ranges.map WeekdayRange.text)).toList := by
  rw [toList_intercalate_append _ _ (listed_ne_nil.2 hkinds), trail_listed _ _ hranges, listed,
    if_neg (by simpa using hkinds)]
  simp

/-- Without them, the conditions on weekdays stand alone. -/
theorem toList_weekdaysAlone {ranges : List WeekdayRange} (hne : ranges ≠ []) :
    (String.intercalate " " (listed "" (([] : List Holiday).map Holiday.abbreviation) ++
      listed "" (ranges.map WeekdayRange.text))).toList =
        (String.intercalate "," (ranges.map WeekdayRange.text)).toList := by
  rw [List.map_nil, listed, if_pos List.isEmpty_nil, List.nil_append, listed,
    if_neg (by simpa using hne)]
  simp

theorem toList_weekdaysThenHolidays {pairs : List (Weekday × Weekday)} (kinds : List Holiday)
    (hpairs : pairs ≠ []) :
    (String.intercalate " " (listed "" (([] : List Holiday).map Holiday.abbreviation) ++
      listed "" ((weekdayRanges pairs ++ kinds.map WeekdayRange.holiday).map
        WeekdayRange.text))).toList =
      (String.intercalate "," ((weekdayRanges pairs).map WeekdayRange.text)).toList ++
        trail "," (kinds.map Holiday.abbreviation) := by
  have hkinds : (kinds.map WeekdayRange.holiday).map WeekdayRange.text =
      kinds.map Holiday.abbreviation := List.map_map
  rw [toList_weekdaysAlone (List.append_ne_nil_of_left_ne_nil (weekdayRanges_ne_nil hpairs) _),
    List.map_append, hkinds, toList_intercalate_append]
  simpa using weekdayRanges_ne_nil hpairs

theorem toList_holidaysThenWeekdays (pairs : List (Weekday × Weekday)) {kinds : List Holiday}
    (hkinds : kinds ≠ []) :
    (String.intercalate " " (listed "" (([] : List Holiday).map Holiday.abbreviation) ++
      listed "" ((kinds.map WeekdayRange.holiday ++ weekdayRanges pairs).map
        WeekdayRange.text))).toList =
      (String.intercalate "," (kinds.map Holiday.abbreviation)).toList ++
        trail "," ((weekdayRanges pairs).map WeekdayRange.text) := by
  have htexts : (kinds.map WeekdayRange.holiday).map WeekdayRange.text =
      kinds.map Holiday.abbreviation := List.map_map
  rw [toList_weekdaysAlone (List.append_ne_nil_of_left_ne_nil (by simpa using hkinds) _),
    List.map_append, htexts, toList_intercalate_append]
  simpa using hkinds

/-- Holidays behind weekdays, if there are any. -/
theorem reads_holidaysBehind {kinds : List Holiday} (hrest : After .weekdays rest) :
    (afterComma holidays).Reads (trail "," (kinds.map Holiday.abbreviation) ++ rest) rest
      fun forms => forms.mapM HolidayForm.interpret = .ok kinds := by
  by_cases hne : kinds = []
  · subst hne
    refine Ends.map (reads_optional_none (hrest.refuses_comma _) rfl) ?_
    rintro _ rfl
    rfl
  · rw [trail_eq _ (by simpa using hne), List.append_assoc]
    refine Ends.map (Ends.optional (Ends.andThen (reads_token_cons ',' _)
      (reads_holidays hne (.inr (hrest.mono (by decide))) (hrest.refuses_comma _)))) ?_
    rintro _ ⟨forms, rfl, h⟩
    exact h

/-- Weekdays behind holidays, if there are any. -/
theorem reads_weekdaysBehind {pairs : List (Weekday × Weekday)} (hrest : After .weekdays rest) :
    (afterComma weekdays).Reads
      (trail "," ((weekdayRanges pairs).map WeekdayRange.text) ++ rest) rest
      fun forms => forms.mapM WeekdayForm.interpret = .ok (weekdayRanges pairs) := by
  by_cases hne : pairs = []
  · subst hne
    refine Ends.map (reads_optional_none (hrest.refuses_comma _) rfl) ?_
    rintro _ rfl
    rfl
  · rw [trail_eq _ (by simpa using weekdayRanges_ne_nil hne), List.append_assoc]
    refine Ends.map (Ends.optional (Ends.andThen (reads_token_cons ',' _)
      (reads_weekdays hne (.inr hrest) (hrest.refuses_comma _)))) ?_
    rintro _ ⟨forms, rfl, h⟩
    exact h

/-- Weekdays are read up to the holidays behind them. -/
theorem reads_weekdays_before {pairs : List (Weekday × Weekday)} (hpairs : pairs ≠ [])
    (kinds : List Holiday) (hrest : After .weekdays rest) :
    weekdays.Reads
      ((String.intercalate "," ((weekdayRanges pairs).map WeekdayRange.text)).toList ++
        (trail "," (kinds.map Holiday.abbreviation) ++ rest))
      (trail "," (kinds.map Holiday.abbreviation) ++ rest)
      fun forms => forms.mapM WeekdayForm.interpret = .ok (weekdayRanges pairs) := by
  apply reads_weekdays hpairs
  · exact @follows_trail _ Holiday.abbreviation (GoesOn .weekdays) rest (goesOn_comma .weekdays)
      (.inr hrest) kinds
  · by_cases hnil : kinds = []
    · subst hnil
      exact hrest.refuses_comma _
    · rw [trail_eq _ (by simpa using hnil), List.append_assoc]
      exact Refuses.andThen_right (reads_token_cons ',' _)
        ((begins_holidays hnil rest).refused (show Part.weekdays ≠ .holidays by decide))

/-- Holidays are read up to the weekdays behind them. -/
theorem reads_holidays_before {kinds : List Holiday} (hkinds : kinds ≠ [])
    (pairs : List (Weekday × Weekday)) (hrest : After .weekdays rest) :
    holidays.Reads
      ((String.intercalate "," (kinds.map Holiday.abbreviation)).toList ++
        (trail "," ((weekdayRanges pairs).map WeekdayRange.text) ++ rest))
      (trail "," ((weekdayRanges pairs).map WeekdayRange.text) ++ rest)
      fun forms => forms.mapM HolidayForm.interpret = .ok kinds := by
  apply reads_holidays hkinds
  · exact @follows_trail _ WeekdayRange.text (GoesOn .holidays) rest (goesOn_comma .holidays)
      (.inr (hrest.mono (by decide))) (weekdayRanges pairs)
  · by_cases hnil : pairs = []
    · subst hnil
      exact hrest.refuses_comma _
    · rw [trail_eq _ (by simpa using weekdayRanges_ne_nil hnil), List.append_assoc]
      exact Refuses.andThen_right (reads_token_cons ',' _)
        ((begins_weekdays hnil rest).refused (show Part.holidays ≠ .weekdays by decide))

/-- Holidays are not demanded beside weekdays where the latter do not come behind a blank. -/
theorem refuses_holidaysOnWeekdays {kinds : List Holiday} {pairs : List (Weekday × Weekday)}
    (hne : kinds ≠ []) (hrest : After .weekdays rest) :
    holidaysOnWeekdays.Refuses
      ((String.intercalate "," (kinds.map Holiday.abbreviation)).toList ++
        (trail "," ((weekdayRanges pairs).map WeekdayRange.text) ++ rest)) := by
  have hholidays := reads_holidays_before hne pairs hrest
  apply Refuses.named
  apply Refuses.map
  by_cases hpairs : pairs = []
  · subst hpairs
    obtain ⟨other, source, rfl, hbegins, hlt⟩ := hrest
    exact Refuses.seq_right (Ends.followedBy hholidays (reads_someSpace hbegins.refuses_space))
      (hbegins.refuses_weekdays (ne_of_rank_lt hlt))
  · apply Refuses.seq_left
    apply Refuses.followedBy_right hholidays
    rw [trail_eq _ (by simpa using weekdayRanges_ne_nil hpairs), List.append_assoc]
    exact refuses_someSpace (refuses_space (by decide))

theorem reads_days {selector : Selector}
    (h : WrittenDays selector.weekdays selector.holidays) (hne : daysWords selector ≠ [])
    (hrest : After .weekdays rest) :
    days.Reads ((String.intercalate " " (daysWords selector)).toList ++ rest) rest
      fun form => form.interpret = .ok (selector.weekdays, selector.holidays) := by
  unfold daysWords at hne ⊢
  generalize selector.weekdays = weekdays at h hne ⊢
  generalize selector.holidays = demanded at h hne ⊢
  cases h with
  | none => exact absurd rfl hne
  | @holidaysOnWeekdays pairs _ hpairs hkinds =>
    have hbegins := begins_weekdays hpairs rest
    rw [toList_holidaysOnWeekdays hkinds (weekdayRanges_ne_nil hpairs), List.append_assoc,
      List.cons_append]
    apply Ends.named
    refine Ends.choice_left (Ends.named (Ends.map (Ends.seq (Ends.followedBy
      (reads_holidays hkinds (.inr (.of_begins hbegins (by decide))) (refuses_comma_blank _ _))
      (reads_someSpace hbegins.refuses_space)) (reads_weekdays hpairs (.inr hrest)
        (hrest.refuses_comma _))) ?_))
    rintro ⟨holidayForms, weekdayForms⟩ ⟨hholidays, hweekdays⟩
    exact bind_eq_ok.2 ⟨demanded, hholidays, bind_eq_ok.2 ⟨_, hweekdays, rfl⟩⟩
  | @weekdaysThenHolidays pairs kinds hpairs =>
    rw [toList_weekdaysThenHolidays kinds hpairs, List.append_assoc]
    apply Ends.named
    refine Ends.choice_right (Refuses.named (Refuses.map (Refuses.seq_left
      (Refuses.followedBy ((begins_weekdays hpairs _).refuses_holidays (by decide))))))
      (Ends.choice_left (Ends.map (Ends.seq (reads_weekdays_before hpairs kinds hrest)
        (reads_holidaysBehind hrest)) ?_))
    rintro ⟨weekdayForms, holidayForms⟩ ⟨hweekdays, hholidays⟩
    exact bind_eq_ok.2 ⟨_, hweekdays, bind_eq_ok.2 ⟨kinds, hholidays, rfl⟩⟩
  | @holidaysThenWeekdays pairs kinds hkinds =>
    rw [toList_holidaysThenWeekdays pairs hkinds, List.append_assoc]
    apply Ends.named
    refine Ends.choice_right (refuses_holidaysOnWeekdays hkinds hrest)
      (Ends.choice_right (Refuses.map (Refuses.seq_left
        ((begins_holidays hkinds _).refuses_weekdays (by decide)))) (Ends.choice_left
          (Ends.map (Ends.seq (reads_holidays_before hkinds pairs hrest)
            (reads_weekdaysBehind hrest)) ?_)))
    rintro ⟨holidayForms, weekdayForms⟩ ⟨hholidays, hweekdays⟩
    exact bind_eq_ok.2 ⟨kinds, hholidays, bind_eq_ok.2 ⟨_, hweekdays, rfl⟩⟩

theorem begins_days {selector : Selector}
    (h : WrittenDays selector.weekdays selector.holidays) (hne : daysWords selector ≠ [])
    (rest : List Char) :
    ∃ part, (part = .holidays ∨ part = .weekdays) ∧
      Begins part ((String.intercalate " " (daysWords selector)).toList ++ rest) := by
  unfold daysWords at hne ⊢
  generalize selector.weekdays = weekdays at h hne ⊢
  generalize selector.holidays = demanded at h hne ⊢
  cases h with
  | none => exact absurd rfl hne
  | holidaysOnWeekdays hpairs hkinds =>
    rw [toList_holidaysOnWeekdays hkinds (weekdayRanges_ne_nil hpairs), List.append_assoc]
    exact ⟨.holidays, .inl rfl, begins_holidays hkinds _⟩
  | weekdaysThenHolidays kinds hpairs =>
    rw [toList_weekdaysThenHolidays kinds hpairs, List.append_assoc]
    exact ⟨.weekdays, .inr rfl, begins_weekdays hpairs _⟩
  | holidaysThenWeekdays pairs hkinds =>
    rw [toList_holidaysThenWeekdays pairs hkinds, List.append_assoc]
    exact ⟨.holidays, .inl rfl, begins_holidays hkinds _⟩

end Grammar

end Timetable
