import Timetable.Proofs.Building.Days

/-!
What is built from a tree is what the form means: weeks, dates and years.

A year has four digits, so that the year after it fits 16 bits.
-/

namespace Timetable.Grammar

open Peg

/-! ### Weeks and years -/

/-- A range of weeks is built, with its step of eight bits. -/
theorem mirrors_weekRange :
    Tree.weekRange.Mirrors (Tree.Named .weekRange (Builds Build.weekRange WeekForm.interpret))
      weekRange := by
  refine Tree.mirrors_map (Tree.mirrors_both mirrors_weekNumber (Tree.mirrors_maybe
    (Tree.mirrors_both (Tree.mirrors_behind (token ['-']) mirrors_weekNumber)
      (Tree.mirrors_maybe (Tree.mirrors_behind (token ['/']) mirrors_number))))) ?_
  rintro tree ⟨first, tail⟩ hsymbol ⟨_, rest, hchildren, ⟨opening, rfl, -, hfirst⟩, htail⟩
  rw [Builds, Build.weekRange, expect_eq hsymbol, hchildren]
  simp only [ok_bind, Build.next, List.cons_append, List.nil_append, hfirst.out,
    WeekForm.interpret, refusing_bind]
  refine congrArg _ (funext fun week => ?_)
  cases tail with
  | none =>
    obtain rfl : rest = [] := htail
    rfl
  | some tail =>
    obtain ⟨last, step⟩ := tail
    obtain ⟨_, steps, rfl, ⟨second, rfl, -, hlast⟩, hstep⟩ := htail
    rw [List.singleton_append, Build.lastWeek, hlast.out]
    simp only [bind_assoc, pure_bind,
      step_bind_eq (show 2 ^ 8 = 255 + 1 from rfl) (by decide) .weekStep hstep,
      Option.map_some, Option.bind_some, refusing_bind]
    rfl

theorem mirrors_weeks : Tree.weeks.Mirrors (Tree.Named .weeks
    (Builds (Build.listOf .weeks Build.weekRange) fun forms => forms.mapM WeekForm.interpret))
      weeks :=
  mirrors_list (Tree.mirrors_behind _ (Tree.mirrors_listOf mirrors_weekRange _))

/-- The parts behind the first year of a range. -/
def YearEndParts (trees : List Tree) : YearEndForm → Prop
  | .missing => trees = []
  | .plus => ∃ second, trees = [second] ∧ second.symbol = .yearPlus
  | .upTo last step => ∃ second steps, trees = second :: steps ∧ second.symbol = .year ∧
      Build.year second = .ok (Decimal.value last) ∧
      Tree.Maybe (Tree.Named .number IsNumber) steps step

/-- Behind the first year there is another one with an optional step, a plus sign, or nothing. -/
theorem mirrors_yearEnd : (firstOf
    [Tree.both (Tree.behind (token ['-']) Tree.year)
        (Tree.maybe (Tree.behind (token ['/']) Tree.number)),
      Tree.yearPlus, pure []]).Mirrors YearEndParts (firstOf
    [map (fun parts => .upTo parts.1 parts.2)
        (seq ((token ['-']).andThen year) (optional ((token ['/']).andThen number))),
      map (fun _ => .plus) plus,
      pure .missing]) := by
  have hupTo := Tree.mirrors_both (Tree.mirrors_behind (token ['-']) mirrors_year)
    (Tree.mirrors_maybe (Tree.mirrors_behind (token ['/']) mirrors_number))
  have hplus : Tree.yearPlus.Mirrors (Tree.Named .yearPlus fun _ _ => True) plus :=
    Tree.mirrors_mark .yearPlus _
  have hmissing : (pure [] : Peg (List Tree)).Mirrors YearEndParts (pure .missing) :=
    mirrors_pure rfl
  refine (hupTo.map_right ?_).choice ((hplus.map_right ?_).choice (hmissing.choice mirrors_fail))
  · rintro _ ⟨last, step⟩ ⟨_, steps, rfl, ⟨second, rfl, hsecond, hlast, -⟩, hstep⟩
    exact ⟨second, steps, rfl, hsecond, hlast, hstep⟩
  · rintro _ _ ⟨second, rfl, hsecond, -⟩
    exact ⟨second, rfl, hsecond⟩

/-- A range of years is built, with its step of 16 bits. -/
theorem mirrors_yearRange :
    Tree.yearRange.Mirrors (Tree.Named .yearRange (Builds Build.yearRange YearForm.interpret))
      yearRange := by
  refine Tree.mirrors_map (Tree.mirrors_both mirrors_year mirrors_yearEnd) ?_
  rintro tree ⟨first, ending⟩ hsymbol ⟨_, rest, hchildren, ⟨opening, rfl, -, hfirst, -⟩, hend⟩
  rw [Builds, Build.yearRange, expect_eq hsymbol, hchildren]
  simp only [ok_bind, Build.next, List.cons_append, List.nil_append, hfirst, YearForm.interpret]
  cases ending with
  | missing =>
    obtain rfl : rest = [] := hend
    rfl
  | plus =>
    obtain ⟨second, rfl, hsecond⟩ := hend
    simp only [Build.yearEnd, hsecond]
    rfl
  | upTo last step =>
    obtain ⟨second, steps, rfl, hsecond, hlast, hstep⟩ := hend
    simp only [Build.yearEnd, hsecond, hlast, ok_bind, bind_assoc, pure_bind,
      step_bind_eq (show 2 ^ 16 = 65535 + 1 from rfl) (by decide) .yearStep hstep,
      refusing_bind]
    rfl

theorem mirrors_years : Tree.years.Mirrors (Tree.Named .years
    (Builds (Build.listOf .years Build.yearRange) fun forms => forms.mapM YearForm.interpret))
      years :=
  mirrors_list (Tree.mirrors_listOf mirrors_yearRange _)

/-! ### Dates -/

/-- A year that may be missing, as it is built. -/
abbrev LeadingYear : List Tree → Option (List Char) → Prop :=
  Tree.Maybe (Tree.Named .year fun tree row =>
    Build.year tree = .ok (Decimal.value row) ∧ Decimal.value row ≤ 9999)

theorem mirrors_leadingYear : Tree.leadingYear.Mirrors LeadingYear leadingYear :=
  Tree.mirrors_maybe (Tree.mirrors_before mirrors_year someSpace)

/-- The year of a part is there just if it was read, provided that no other year stands behind it.
-/
theorem leadingYear_eq {trees rest : List Tree} {row? : Option (List Char)}
    (h : LeadingYear trees row?) (hrest : ∀ part ∈ rest.head?, part.symbol ≠ .year) :
    Build.leadingYear (trees ++ rest) = .ok (row?.map Decimal.value, rest) := by
  cases row? with
  | some row =>
    obtain ⟨first, rfl, hfirst, hyear, -⟩ := h
    rw [List.singleton_append, Build.leadingYear, if_pos hfirst, hyear]
    rfl
  | none =>
    obtain rfl : trees = [] := h
    cases rest with
    | nil => rfl
    | cons part rest => exact if_neg (hrest part rfl)

theorem yearUpTo_of_leadingYear {trees : List Tree} {row? : Option (List Char)}
    (h : LeadingYear trees row?) : ∀ year ∈ row?.map Decimal.value, year ≤ 9999 := by
  cases row? with
  | some row =>
    obtain ⟨_, -, -, -, hle⟩ := h
    rintro _ ⟨⟩
    exact hle
  | none => nofun

/-- The parts of a day behind its year. -/
def DayParts (trees : List Tree) : Option (Month × List Char) → Prop
  | some (name, row) => ∃ first second, trees = [first, second] ∧ first.symbol = .month ∧
      Build.month first = .ok name ∧ Build.dayNumber second = .ok (interpretDayNumber row)
  | none => ∃ first, trees = [first] ∧ first.symbol = .easter

theorem mirrors_dayParts :
    (choice (Tree.both (Tree.before Tree.month someSpace) Tree.dayNumber)
      (Tree.leaf .easter (token "easter".toList))).Mirrors DayParts
        (choice (map some (seq (month.followedBy someSpace) dayNumber))
          (named (word "easter" none))) := by
  refine ((Tree.mirrors_both (Tree.mirrors_before mirrors_month someSpace)
    mirrors_dayNumber).map_right ?_).choice ((Tree.mirrors_leaf_word .easter "easter" _).mono ?_)
  · rintro _ ⟨name, row⟩ ⟨_, _, rfl, ⟨first, rfl, hfirst, hname⟩, ⟨second, rfl, -, -, hrow⟩⟩
    exact ⟨first, second, rfl, hfirst, hname, hrow⟩
  · rintro _ _ ⟨first, rfl, hfirst, rfl⟩
    exact ⟨first, rfl, hfirst⟩

/-- A day is built, and its year has four digits at most. -/
def IsDay (tree : Tree) (form : DayForm) : Prop :=
  Build.day tree = .ok form.interpret ∧ ∀ year ∈ form.interpret.year?, year ≤ 9999

/-- A part that is read as a day has a month and a number, or is Easter. -/
theorem mirrors_day : Tree.day.Mirrors (Tree.Named .day IsDay) day := by
  refine Tree.mirrors_map (Tree.mirrors_both mirrors_leadingYear mirrors_dayParts) ?_
  rintro tree ⟨row?, fixed?⟩ hsymbol ⟨years, rest, hchildren, hyear, hparts⟩
  rw [IsDay, Build.day, expect_eq hsymbol, hchildren, ok_bind]
  cases fixed? with
  | none =>
    obtain ⟨first, rfl, hfirst⟩ := hparts
    rw [leadingYear_eq hyear (by rintro _ ⟨⟩; rw [hfirst]; decide)]
    simp only [ok_bind, Build.next, hfirst]
    exact ⟨rfl, yearUpTo_of_leadingYear hyear⟩
  | some fixed =>
    obtain ⟨name, row⟩ := fixed
    obtain ⟨first, second, rfl, hfirst, hname, hrow⟩ := hparts
    rw [leadingYear_eq hyear (by rintro _ ⟨⟩; rw [hfirst]; decide)]
    simp only [ok_bind, Build.next, hfirst, hname, hrow]
    exact ⟨rfl, yearUpTo_of_leadingYear hyear⟩

/-- The year after one of four digits fits 16 bits. -/
theorem nextYear?_eq {year? : Option Nat} (h : ∀ year ∈ year?, year ≤ 9999) :
    Build.nextYear? year? = .ok (year?.map (· + 1)) := by
  cases year? with
  | none => rfl
  | some year =>
    have hle := h year rfl
    rw [Build.nextYear?, Build.fitsUnsigned, if_pos (by omega)]
    rfl

/-- A number alone means a day of the same month or of the next one, which may lie in the next year;
behind Easter it is refused. -/
theorem numberedDay_eq {first : AnnualDay} (hfirst : ∀ year ∈ first.year?, year ≤ 9999)
    {tree : Tree} {whole : Fragment} (hwhole : tree.whole = whole)
    (hnumber : Build.dayNumber tree = .ok (interpretDayNumber whole.text)) :
    Build.numberedDay first tree = refusing ((LastDayForm.number whole).interpret first) := by
  rw [Build.numberedDay, hnumber, ok_bind]
  cases first with
  | easter year? => exact refuse_eq hwhole _
  | fixed year? month number =>
    dsimp only [LastDayForm.interpret]
    have hyear : ∀ year ∈ year?, year ≤ 9999 := hfirst
    have hnext : month.next = .january ↔ month = .december := by cases month <;> decide
    by_cases hlt : interpretDayNumber whole.text < number
    · rw [if_pos hlt, if_pos hlt]
      by_cases hlast : month = .december
      · rw [if_pos (hnext.2 hlast), if_pos hlast, nextYear?_eq hyear]
        rfl
      · rw [if_neg (fun h => hlast (hnext.1 h)), if_neg hlast]
        rfl
    · rw [if_neg hlt, if_neg hlt]
      rfl

/-- The last day of a range is built, whatever the first day is. -/
def IsLastDay (tree : Tree) (form : LastDayForm) : Prop :=
  ∀ first : AnnualDay, (∀ year ∈ first.year?, year ≤ 9999) →
    Build.lastDay first tree = refusing (form.interpret first)

/-- The last day of a range is built for every first day that may be read. -/
theorem mirrors_lastDay : Tree.lastDay.Mirrors (Tree.Named .lastDay IsLastDay) lastDay := by
  have hday : Tree.day.Mirrors (Tree.Within .lastDay IsLastDay) (map .day day) := by
    refine mirrors_day.map_right ?_
    rintro _ form ⟨inner, rfl, hinner, hform, -⟩ tree hsymbol hchildren first -
    rw [Build.lastDay, expect_eq hsymbol, hchildren]
    simp only [ok_bind, Build.next, hinner, hform]
    rfl
  have hnumber : Tree.dayNumber.Mirrors (Tree.Within .lastDay IsLastDay)
      (map (fun parts => LastDayForm.number parts.2) (located dayNumber)) := by
    refine (Tree.mirrors_kept mirrors_dayNumber).map_right ?_
    rintro _ ⟨row, whole⟩ ⟨inner, rfl, hinner, ⟨htext, hrow⟩, hwhole⟩ tree hsymbol hchildren first
      hfirst
    rw [Build.lastDay, expect_eq hsymbol, hchildren]
    simp only [ok_bind, Build.next, hinner]
    have hsame : row = whole.text := htext.symm.trans (congrArg Fragment.text hwhole)
    exact numberedDay_eq hfirst hwhole (hsame ▸ hrow)
  exact Tree.mirrors_within (hday.choice hnumber)

/-- The parts behind the first day of a range. -/
def DayEndParts (trees : List Tree) : DayEndForm → Prop
  | .missing => trees = []
  | .plus => ∃ second, trees = [second] ∧ second.symbol = .datePlus
  | .upTo last offset => ∃ second rest, trees = second :: rest ∧ second.symbol = .lastDay ∧
      IsLastDay second last ∧
      Tree.Maybe (Tree.Named .dayOffset fun tree whole => tree.whole = whole) rest offset

/-- Behind the first day there is another one, a plus sign, or nothing. -/
theorem mirrors_dayEnd : (firstOf
    [Tree.behind (spaced "-") (Tree.both Tree.lastDay (Tree.maybe Tree.dayOffset)), Tree.datePlus,
      pure []]).Mirrors DayEndParts dayEnd := by
  have hupTo := Tree.mirrors_behind (spaced "-")
    (Tree.mirrors_both mirrors_lastDay (Tree.mirrors_maybe mirrors_dayOffset))
  have hplus : Tree.datePlus.Mirrors (Tree.Named .datePlus fun _ _ => True) plus :=
    Tree.mirrors_mark .datePlus _
  have hmissing : (pure [] : Peg (List Tree)).Mirrors DayEndParts (pure .missing) :=
    mirrors_pure rfl
  refine (hupTo.map_right ?_).choice ((hplus.map_right ?_).choice (hmissing.choice mirrors_fail))
  · rintro _ ⟨last, offset⟩ ⟨_, rest, rfl, ⟨second, rfl, hsecond, hlast⟩, hoffset⟩
    exact ⟨second, rest, rfl, hsecond, hlast, hoffset⟩
  · rintro _ _ ⟨second, rfl, hsecond, -⟩
    exact ⟨second, rfl, hsecond⟩

/-- The parts of a range, of which it is built as its meaning. -/
abbrev DateParts : List Tree → DateForm → Prop :=
  Tree.Within .dateRange (Builds Build.dateRange DateForm.interpret)

theorem openEnd_eq (first : AnnualDay) :
    Build.openEnd first = .fixed (first.year?.map fun _ => 9999) .december 31 := by
  unfold Build.openEnd
  cases first.year? <;> rfl

/-- A range of days is built; days by which others are meant are refused, those of the first day
before those of the last one. -/
theorem mirrors_dateParts_days : (Tree.both Tree.day (Tree.both (Tree.maybe Tree.dayOffset) (firstOf
    [Tree.behind (spaced "-") (Tree.both Tree.lastDay (Tree.maybe Tree.dayOffset)), Tree.datePlus,
      pure []]))).Mirrors DateParts
        (map (fun parts => .days parts.1 parts.2.1 parts.2.2)
          (seq day (seq (optional dayOffset) dayEnd))) := by
  refine (Tree.mirrors_both mirrors_day
    (Tree.mirrors_both (Tree.mirrors_maybe mirrors_dayOffset) mirrors_dayEnd)).map_right ?_
  rintro _ ⟨first, offset, ending⟩ ⟨_, _, rfl, ⟨opening, rfl, hopening, hfirst, hyear⟩,
    ⟨offsets, ends, rfl, hoffset, hends⟩⟩ tree hsymbol hchildren
  rw [Builds, Build.dateRange, expect_eq hsymbol, hchildren]
  simp only [ok_bind, Build.next, List.cons_append, List.nil_append, hopening, if_pos, hfirst,
    DateForm.interpret]
  cases offset with
  | some whole =>
    obtain ⟨part, rfl, hpart, hwhole⟩ := hoffset
    simp only [List.cons_append, Build.dayEnd, hpart, refuse_eq hwhole]
    rfl
  | none =>
    obtain rfl : offsets = [] := hoffset
    rw [List.nil_append]
    cases ending with
    | missing =>
      obtain rfl : ends = [] := hends
      rfl
    | plus =>
      obtain ⟨second, rfl, hsecond⟩ := hends
      simp only [Build.dayEnd, hsecond, openEnd_eq]
      rfl
    | upTo last offset =>
      obtain ⟨second, rest, rfl, hsecond, hlast, hoffset⟩ := hends
      simp only [Build.dayEnd, hsecond, hlast _ hyear, bind_assoc, pure_bind, unmoved_eq hoffset,
        refuseIfPresent, refusing_bind]
      rfl

/-- A range of months is built. It does not begin with a day, so that its parts are not mistaken. -/
theorem mirrors_dateParts_months :
    (Tree.both Tree.leadingYear (Tree.both Tree.month
      (Tree.maybe (Tree.behind (token ['-']) Tree.month)))).Mirrors DateParts
        (map (fun parts => .months parts.1 parts.2.1 parts.2.2)
          (seq leadingYear (seq month (optional ((token ['-']).andThen month))))) := by
  refine (Tree.mirrors_both mirrors_leadingYear (Tree.mirrors_both mirrors_month
    (Tree.mirrors_maybe (Tree.mirrors_behind (token ['-']) mirrors_month)))).map_right ?_
  rintro _ ⟨row?, first, last⟩ ⟨years, _, rfl, hyear,
    ⟨_, lasts, rfl, ⟨second, rfl, hsecond, hfirst⟩, hlast⟩⟩ tree hsymbol hchildren
  have hnotYear : ∀ part ∈ (second :: lasts).head?, part.symbol ≠ .year := by
    rintro _ ⟨⟩
    rw [hsecond]
    decide
  have hopening : ∃ opening rest, years ++ second :: lasts = opening :: rest ∧
      opening.symbol ≠ .day := by
    cases row? with
    | some row =>
      obtain ⟨opening, rfl, hopening, -⟩ := hyear
      exact ⟨opening, _, rfl, by rw [hopening]; decide⟩
    | none =>
      obtain rfl : years = [] := hyear
      exact ⟨second, _, rfl, by rw [hsecond]; decide⟩
  have hlasts : Build.lastMonth first lasts = .ok (last.getD first) := by
    cases last with
    | some name =>
      obtain ⟨third, rfl, -, hname⟩ := hlast
      exact hname
    | none =>
      obtain rfl : lasts = [] := hlast
      rfl
  obtain ⟨opening, rest, hparts, hother⟩ := hopening
  have hleading := leadingYear_eq hyear hnotYear
  rw [List.singleton_append] at hchildren
  rw [hparts] at hchildren hleading
  rw [Builds, Build.dateRange, expect_eq hsymbol, hchildren]
  simp only [ok_bind, Build.next, if_neg hother, hleading, hfirst, hlasts]
  rfl

/-- A part of the year is built as it was read, by its days or by its months. -/
theorem mirrors_dateRange :
    Tree.dateRange.Mirrors (Tree.Named .dateRange (Builds Build.dateRange DateForm.interpret))
      dateRange :=
  Tree.mirrors_within (mirrors_dateParts_days.choice mirrors_dateParts_months)

theorem mirrors_dates : Tree.dates.Mirrors (Tree.Named .dates
    (Builds (Build.listOf .dates Build.dateRange) fun forms => forms.mapM DateForm.interpret))
      dates :=
  mirrors_list (Tree.mirrors_listOf mirrors_dateRange _)

end Timetable.Grammar
