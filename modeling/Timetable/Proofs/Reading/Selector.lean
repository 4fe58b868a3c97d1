import Timetable.Proofs.Reading.Conditions

/-!
Which selectors are read as they are written.

The lists of a selector are written one after the other with a blank between them, and each of them
is read up to the next one. The one exception is a single year before a date of every year, which
is read as the year of that date (`YearApart`); with it, `Selector.Faithful` says exactly when the
conditions on years, dates and weeks come back (`reads_wide`, `yields_wide`).
-/

namespace Timetable

/-! ### What is faithful -/

/-- The year that is written first. -/
def DateRange.year? : DateRange → Option Nat
  | .months year _ _ => year
  | .days first _ => first.year?

/-- A single year stands apart from the dates behind it if the first of them has a year of its
own. -/
def YearApart : List YearRange → List DateRange → Prop
  | [range], date :: _ => range.first = range.last → date.year? ≠ none
  | _, _ => True

instance (years : List YearRange) (dates : List DateRange) : Decidable (YearApart years dates) :=
  match years, dates with
  | [range], date :: _ => inferInstanceAs (Decidable (range.first = range.last → date.year? ≠ none))
  | [_], [] => .isTrue trivial
  | [], _ => .isTrue trivial
  | _ :: _ :: _, _ => .isTrue trivial

/-- The conditions on years and dates come back. -/
def LeadFaithful (years : List YearRange) (dates : List DateRange) : Prop :=
  (∀ range ∈ years, range.Faithful) ∧ (∀ range ∈ dates, range.Faithful) ∧ YearApart years dates

instance (years : List YearRange) (dates : List DateRange) :
    Decidable (LeadFaithful years dates) :=
  inferInstanceAs (Decidable (_ ∧ _ ∧ _))

/-- All conditions come back. -/
def Selector.Faithful (selector : Selector) : Prop :=
  LeadFaithful selector.years selector.dates ∧ ∀ range ∈ selector.weeks, range.Faithful

instance (selector : Selector) : Decidable selector.Faithful := inferInstanceAs (Decidable (_ ∧ _))

/-! ### The lists of a selector -/

/-- A list that is not empty, as a word. -/
def listed (lead : String) (items : List String) : List String :=
  if items.isEmpty then [] else [lead ++ String.intercalate "," items]

theorem Selector.groups_eq (selector : Selector) : selector.groups =
    listed "" (selector.years.map YearRange.text) ++
      listed "" (selector.dates.map DateRange.text) ++
      listed "week " (selector.weeks.map WeekRange.text) ++
      listed "" (selector.holidays.map Holiday.abbreviation) ++
      listed "" (selector.weekdays.map WeekdayRange.text) := rfl

theorem listed_eq_nil {β : Type} {lead : String} {text : β → String} {items : List β} :
    listed lead (items.map text) = [] ↔ items = [] := by
  cases items <;> simp [listed]

/-- The list as the text behind a blank, if it is not empty. -/
theorem trail_listed {β : Type} (lead : String) (text : β → String) {items : List β}
    (h : items ≠ []) : trail " " (listed lead (items.map text)) =
      ' ' :: (lead.toList ++ (String.intercalate "," (items.map text)).toList) := by
  obtain ⟨b, items, rfl⟩ := List.exists_cons_of_ne_nil h
  rw [listed, if_neg (by simp), trail_cons, String.toList_append]
  simp [trail]

namespace Grammar

open Peg

variable {rest source : List Char}

theorem refuses_comma_blank {α : Type} (item : Peg α) (source : List Char) :
    ((token [',']).andThen item).Refuses (' ' :: source) :=
  Refuses.andThen (refuses_token_cons (by decide))

/-! ### Years, dates and weeks -/

theorem reads_years {ranges : List YearRange} (hne : ranges ≠ [])
    (hfaithful : ∀ range ∈ ranges, range.Faithful) (hbounds : ∀ range ∈ ranges, range.InBounds) :
    years.Reads ((String.intercalate "," (ranges.map YearRange.text)).toList ++ ' ' :: source)
      (' ' :: source) fun forms => forms.mapM YearForm.interpret = .ok ranges :=
  Ends.named (@reads_separatedBy _ _ _ _ yearRange _ YearForm.interpret YearRange.text Stops _
    consumes_comma (fun _ _ => reads_token_cons ',' _) stops_comma ⟨' ', source, rfl, .inr rfl⟩ _
    hne (fun range hmem _ => reads_yearRange (hfaithful range hmem) (hbounds range hmem))
    (refuses_comma_blank _ _))

theorem yields_years {ranges : List YearRange} (h : ∃ range ∈ ranges, ¬ range.Faithful)
    (hbounds : ∀ range ∈ ranges, range.InBounds) :
    years.Yields ((String.intercalate "," (ranges.map YearRange.text)).toList ++ ' ' :: source)
      fun forms => forms.mapM YearForm.interpret ≠ .ok ranges :=
  Yields.named (@yields_separatedBy _ _ _ _ yearRange _ YearForm.interpret YearRange.text Stops _
    consumes_comma (fun _ _ => reads_token_cons ',' _) stops_comma ⟨' ', source, rfl, .inr rfl⟩ _ _
    (fun range hmem hfaithful _ => reads_yearRange hfaithful (hbounds range hmem))
    (fun _ _ hfaithful _ => yields_yearRange hfaithful) h)

theorem After.refuses_comma {α : Type} {part : Part} (h : After part rest) (item : Peg α) :
    ((token [',']).andThen item).Refuses rest :=
  Refuses.andThen (h.refuses_token (by decide) [])

theorem reads_dates {ranges : List DateRange} (hne : ranges ≠ [])
    (hfaithful : ∀ range ∈ ranges, range.Faithful) (hbounds : ∀ range ∈ ranges, range.InBounds)
    (hrest : After .dates rest) :
    dates.Reads ((String.intercalate "," (ranges.map DateRange.text)).toList ++ rest) rest
      fun forms => forms.mapM DateForm.interpret = .ok ranges :=
  Ends.named (@reads_separatedBy _ _ _ _ dateRange _ DateForm.interpret DateRange.text
    (GoesOn .dates) _ consumes_comma (fun _ _ => reads_token_cons ',' _) (goesOn_comma .dates)
    (.inr hrest) _ hne
    (fun range hmem _ => reads_dateRange (hfaithful range hmem) (hbounds range hmem))
    (hrest.refuses_comma _))

theorem yields_dates {ranges : List DateRange} (h : ∃ range ∈ ranges, ¬ range.Faithful)
    (hbounds : ∀ range ∈ ranges, range.InBounds) (hrest : After .dates rest) :
    dates.Yields ((String.intercalate "," (ranges.map DateRange.text)).toList ++ rest)
      fun forms => forms.mapM DateForm.interpret ≠ .ok ranges :=
  Yields.named (@yields_separatedBy _ _ _ _ dateRange _ DateForm.interpret DateRange.text
    (GoesOn .dates) _ consumes_comma (fun _ _ => reads_token_cons ',' _) (goesOn_comma .dates)
    (.inr hrest) _ _ (fun range hmem hfaithful _ => reads_dateRange hfaithful (hbounds range hmem))
    (fun range hmem hfaithful _ _ => yields_dateRange hfaithful (hbounds range hmem)) h)

theorem digit_twoDigits (n : Nat) (rest : List Char) :
    space.Refuses ((Decimal.twoDigits n).toList ++ rest) :=
  refuses_space_digits Decimal.isDigit_twoDigits (Decimal.twoDigits_ne_nil n)

theorem reads_week (first : WeekRange) (others : List WeekRange) (rest : List Char) :
    ((token "week".toList).andThen someSpace).Reads
      ("week ".toList ++ ((String.intercalate "," ((first :: others).map WeekRange.text)).toList ++
        rest))
      ((String.intercalate "," ((first :: others).map WeekRange.text)).toList ++ rest)
      fun _ => True := by
  have hspace : space.Refuses
      ((String.intercalate "," ((first :: others).map WeekRange.text)).toList ++ rest) := by
    rw [List.map_cons, toList_intercalate_cons, WeekRange.text, String.toList_append,
      List.append_assoc, List.append_assoc]
    exact digit_twoDigits _ _
  exact Ends.andThen (@reads_token "week".toList _ (fun _ => True) trivial)
    (reads_someSpace hspace)

theorem reads_weeks {ranges : List WeekRange} (hne : ranges ≠ [])
    (hfaithful : ∀ range ∈ ranges, range.Faithful) (hbounds : ∀ range ∈ ranges, range.InBounds)
    (hrest : After .weeks rest) :
    weeks.Reads
      ("week ".toList ++ ((String.intercalate "," (ranges.map WeekRange.text)).toList ++ rest)) rest
      fun forms => forms.mapM WeekForm.interpret = .ok ranges := by
  obtain ⟨first, others, rfl⟩ := List.exists_cons_of_ne_nil hne
  exact Ends.named (Ends.andThen (reads_week first others rest)
    (@reads_separatedBy _ _ _ _ weekRange _ WeekForm.interpret WeekRange.text Stops _
      consumes_comma (fun _ _ => reads_token_cons ',' _) stops_comma (GoesOn.stops (.inr hrest)) _
      hne (fun range hmem _ => reads_weekRange (hfaithful range hmem) (hbounds range hmem))
      (hrest.refuses_comma _)))

theorem yields_weeks {ranges : List WeekRange} (h : ∃ range ∈ ranges, ¬ range.Faithful)
    (hbounds : ∀ range ∈ ranges, range.InBounds) (hrest : After .weeks rest) :
    weeks.Yields
      ("week ".toList ++ ((String.intercalate "," (ranges.map WeekRange.text)).toList ++ rest))
      fun forms => forms.mapM WeekForm.interpret ≠ .ok ranges := by
  obtain ⟨range, hmem, hbad⟩ := h
  obtain ⟨first, others, rfl⟩ := List.exists_cons_of_ne_nil (List.ne_nil_of_mem hmem)
  exact Yields.named (Yields.andThen_right (reads_week first others rest)
    (@yields_separatedBy _ _ _ _ weekRange _ WeekForm.interpret WeekRange.text Stops _
      consumes_comma (fun _ _ => reads_token_cons ',' _) stops_comma (GoesOn.stops (.inr hrest)) _ _
      (fun range hmem hfaithful _ => reads_weekRange hfaithful (hbounds range hmem))
      (fun range hmem hfaithful _ => yields_weekRange hfaithful (hbounds range hmem))
      ⟨range, hmem, hbad⟩))

/-! ### Lists that may be missing -/

theorem begins_dates {ranges : List DateRange} (hne : ranges ≠ []) (rest : List Char) :
    Begins .dates ((String.intercalate "," (ranges.map DateRange.text)).toList ++ rest) := by
  obtain ⟨first, others, rfl⟩ := List.exists_cons_of_ne_nil hne
  rw [List.map_cons, toList_intercalate_cons, List.append_assoc]
  exact begins_dateRange first _

theorem After.of_begins {part other : Part} (h : Begins other source)
    (hlt : part.rank < other.rank) : After part (' ' :: source) :=
  ⟨other, source, rfl, h, hlt⟩

/-- Nothing is read behind a blank if a later part begins there. -/
theorem After.refuses_blank {α : Type} {item : Peg α} {part : Part} (h : After part rest)
    (hitem : ∀ other source, Begins other source → part.rank < other.rank → item.Refuses source) :
    (someSpace.andThen item).Refuses rest := by
  obtain ⟨other, source, rfl, hbegins, hlt⟩ := h
  exact Refuses.andThen_right (reads_someSpace hbegins.refuses_space)
    (hitem other source hbegins hlt)

/-- A list of ranges behind a blank, or nothing if there are none. -/
theorem reads_listBehind {ε ρ φ : Type} {item : Peg (List φ)} {interpret : φ → Except ε ρ}
    {ranges : List ρ} {text : List Char} (hnone : ranges = [] → text = [])
    (hrefuses : (someSpace.andThen item).Refuses rest)
    (hitem : ranges ≠ [] → ∃ source, text = ' ' :: source ∧ space.Refuses (source ++ rest) ∧
      item.Reads (source ++ rest) rest fun forms => forms.mapM interpret = .ok ranges) :
    (optional (someSpace.andThen item)).Reads (text ++ rest) rest
      fun forms => (forms.getD []).mapM interpret = .ok ranges := by
  by_cases hne : ranges = []
  · rw [hnone hne, List.nil_append, hne]
    exact reads_optional_none hrefuses rfl
  · obtain ⟨source, rfl, hspace, hreads⟩ := hitem hne
    refine Ends.mono (Ends.optional (Ends.andThen (reads_someSpace hspace) hreads)) ?_
    rintro _ ⟨forms, rfl, h⟩
    exact h

/-- A list of ranges behind a blank that is not read as what it was written for. -/
theorem yields_listBehind {ε ρ φ : Type} {item : Peg (List φ)} {interpret : φ → Except ε ρ}
    {ranges : List ρ} (hne : ranges ≠ []) (hspace : space.Refuses source)
    (hitem : item.Yields source fun forms => forms.mapM interpret ≠ .ok ranges) :
    (optional (someSpace.andThen item)).Yields (' ' :: source)
      fun forms => (forms.getD []).mapM interpret ≠ .ok ranges := by
  refine Yields.choice (Yields.map (Yields.andThen_right (reads_someSpace hspace) hitem)
    fun _ => id) (yields_pure ?_)
  intro heq
  exact hne (mapM_nil_eq_ok.1 heq)

theorem reads_datesBehind {ranges : List DateRange} (hfaithful : ∀ range ∈ ranges, range.Faithful)
    (hbounds : ∀ range ∈ ranges, range.InBounds) (hrest : After .dates rest) :
    (optional (someSpace.andThen dates)).Reads
      (trail " " (listed "" (ranges.map DateRange.text)) ++ rest) rest
      fun forms => (forms.getD []).mapM DateForm.interpret = .ok ranges :=
  reads_listBehind (fun hnone => by rw [hnone]; rfl)
    (hrest.refuses_blank fun _ _ hbegins hlt => hbegins.refuses_dates (ne_of_rank_lt hlt))
    fun hne => ⟨_, trail_listed _ _ hne, (begins_dates hne rest).refuses_space,
      reads_dates hne hfaithful hbounds hrest⟩

theorem yields_datesBehind {ranges : List DateRange} (h : ∃ range ∈ ranges, ¬ range.Faithful)
    (hbounds : ∀ range ∈ ranges, range.InBounds) (hrest : After .dates rest) :
    (optional (someSpace.andThen dates)).Yields
      (trail " " (listed "" (ranges.map DateRange.text)) ++ rest)
      fun forms => (forms.getD []).mapM DateForm.interpret ≠ .ok ranges := by
  obtain ⟨range, hmem, hbad⟩ := h
  have hne := List.ne_nil_of_mem hmem
  rw [trail_listed _ _ hne]
  exact yields_listBehind hne (begins_dates hne rest).refuses_space
    (yields_dates ⟨range, hmem, hbad⟩ hbounds hrest)

theorem reads_weeksBehind {ranges : List WeekRange} (hfaithful : ∀ range ∈ ranges, range.Faithful)
    (hbounds : ∀ range ∈ ranges, range.InBounds) (hrest : After .weeks rest) :
    (optional (someSpace.andThen weeks)).Reads
      (trail " " (listed "week " (ranges.map WeekRange.text)) ++ rest) rest
      fun forms => (forms.getD []).mapM WeekForm.interpret = .ok ranges := by
  refine reads_listBehind (fun hnone => by rw [hnone]; rfl)
    (hrest.refuses_blank fun _ _ hbegins hlt => hbegins.refuses_weeks (ne_of_rank_lt hlt))
    fun hne => ⟨_, trail_listed _ _ hne, refuses_space (by decide), ?_⟩
  rw [List.append_assoc]
  exact reads_weeks hne hfaithful hbounds hrest

theorem yields_weeksBehind {ranges : List WeekRange} (h : ∃ range ∈ ranges, ¬ range.Faithful)
    (hbounds : ∀ range ∈ ranges, range.InBounds) (hrest : After .weeks rest) :
    (optional (someSpace.andThen weeks)).Yields
      (trail " " (listed "week " (ranges.map WeekRange.text)) ++ rest)
      fun forms => (forms.getD []).mapM WeekForm.interpret ≠ .ok ranges := by
  obtain ⟨range, hmem, hbad⟩ := h
  have hne := List.ne_nil_of_mem hmem
  rw [trail_listed _ _ hne, List.cons_append, List.append_assoc]
  exact yields_listBehind hne (refuses_space (by decide))
    (yields_weeks ⟨range, hmem, hbad⟩ hbounds hrest)

/-- What comes after the dates of a rule, with weeks or without. -/
theorem after_dates_weeks (ranges : List WeekRange) (hrest : After .weeks rest) :
    After .dates (trail " " (listed "week " (ranges.map WeekRange.text)) ++ rest) := by
  by_cases hne : ranges = []
  · subst hne
    exact hrest.mono (by decide)
  · rw [trail_listed _ _ hne, List.cons_append, List.append_assoc]
    exact After.of_begins (.week _) (by decide)

/-! ### Years before dates -/

/-- A year before a blank is read as that of a date, but the date has to come then. -/
theorem refuses_dateRange_year {number : Nat} (hnumber : FourDigits number)
    (hmonth : month.Refuses source) (heaster : (token "easter".toList).Refuses source)
    (hspace : space.Refuses source) :
    dateRange.Refuses ((Decimal.natural number).toList ++ ' ' :: source) := by
  have hlead : leadingYear.Reads ((Decimal.natural number).toList ++ ' ' :: source) source _ :=
    Ends.optional (Ends.followedBy (reads_year hnumber (noDigit_cons rfl))
      (reads_someSpace hspace))
  exact (refuses_date (hlead.mono fun _ _ => trivial) hmonth heaster).2

/-- A year with something else than a blank behind it is not that of a date. -/
theorem refuses_dateRange_of_ne_blank {number : Nat} {c : Char} (hnumber : FourDigits number)
    (hdigit : c.isDigit = false) (hc : c ≠ ' ') :
    dateRange.Refuses ((Decimal.natural number).toList ++ c :: source) := by
  have hlead : (year.followedBy someSpace).Refuses
      ((Decimal.natural number).toList ++ c :: source) :=
    Refuses.followedBy_right (reads_year hnumber (noDigit_cons hdigit))
      (refuses_someSpace (refuses_space hc))
  obtain ⟨d, tail, heq, hd⟩ := @isDigit_head _ (c :: source)
    (@Decimal.isDigit_natural number) (Decimal.natural_ne_nil number)
  rw [heq] at hlead ⊢
  obtain ⟨hmonth, heaster, -⟩ := refuses_of_isDigit hd tail
  exact (refuses_date (reads_optional_none hlead trivial) hmonth heaster).2

/-- Years are not read as dates, unless a lone year stands before a date without one. -/
theorem refuses_dates_years {ranges : List YearRange} (hne : ranges ≠ [])
    (hfaithful : ∀ range ∈ ranges, range.Faithful)
    (hsource : ∀ range, ranges = [range] → range.first = range.last → month.Refuses source ∧
      (token "easter".toList).Refuses source ∧ space.Refuses source) :
    dates.Refuses ((String.intercalate "," (ranges.map YearRange.text)).toList ++
      ' ' :: source) := by
  obtain ⟨range, others, rfl⟩ := List.exists_cons_of_ne_nil hne
  obtain ⟨hfirst, -, hstep⟩ := hfaithful range List.mem_cons_self
  apply Refuses.named
  refine refuses_separatedBy ?_
  rw [List.map_cons, toList_intercalate_cons, YearRange.text, String.toList_append,
    toList_rangeTail, List.append_assoc, List.append_assoc, List.append_assoc]
  by_cases heq : range.first = range.last
  · rw [if_pos heq, hstep heq]
    cases others with
    | nil =>
      obtain ⟨hmonth, heaster, hspace⟩ := hsource range rfl heq
      exact refuses_dateRange_year hfirst hmonth heaster hspace
    | cons other others =>
      exact refuses_dateRange_of_ne_blank hfirst (c := ',') rfl (by decide)
  · rw [if_neg heq]
    exact refuses_dateRange_of_ne_blank hfirst (c := '-') rfl (by decide)

theorem fits_dayEnd (source : List Char) : dayEnd.Fits source fun _ => True :=
  fits_choice (fits_choice (Ends.choice_left (reads_pure trivial).fits))

/-- A year before a day of every year makes it a day of that year. -/
theorem fits_day_year {number : Nat} {annual : AnnualDay} (hnumber : FourDigits number)
    (hyear : annual.year? = none) (hbounds : annual.InBounds)
    (hrest : ∀ c ∈ rest.head?, (c.isDigit || c == ':') = false) :
    day.Reads ((Decimal.natural number).toList ++ ' ' :: (annual.text.toList ++ rest)) rest
      fun _ => True := by
  have hfour : ∀ year ∈ some number, FourDigits year := by
    rintro _ ⟨⟩
    exact hnumber
  cases annual with
  | fixed year? name dayNumber =>
    obtain rfl : year? = none := hyear
    have hday := @reads_day rest (.fixed (some number) name dayNumber) hfour hbounds hrest
    have htext : (AnnualDay.fixed (some number) name dayNumber).text.toList ++ rest =
        (Decimal.natural number).toList ++
          ' ' :: ((AnnualDay.fixed none name dayNumber).text.toList ++ rest) := by
      simp [AnnualDay.text, yearLead]
    exact Ends.mono (htext ▸ hday) fun _ _ => trivial
  | easter year? =>
    obtain rfl : year? = none := hyear
    have hday := @reads_day rest (.easter (some number)) hfour trivial hrest
    have htext : (AnnualDay.easter (some number)).text.toList ++ rest =
        (Decimal.natural number).toList ++
          ' ' :: ((AnnualDay.easter none).text.toList ++ rest) := by
      simp [AnnualDay.text, yearLead]
    exact Ends.mono (htext ▸ hday) fun _ _ => trivial

/-- A lone year before a date without one is read as the year of that date. -/
theorem fits_dates_year {number : Nat} {range : DateRange} {others : List DateRange}
    (hnumber : FourDigits number) (hyear : range.year? = none) (hbounds : range.InBounds)
    (hrest : After .dates rest) :
    dates.Fits ((Decimal.natural number).toList ++
      ' ' :: ((String.intercalate "," ((range :: others).map DateRange.text)).toList ++ rest))
      fun _ => True := by
  have hgoes := @follows_trail _ DateRange.text (GoesOn .dates) rest (goesOn_comma .dates)
    (.inr hrest) others
  rw [List.map_cons, toList_intercalate_cons, List.append_assoc]
  have hitem : dateRange.Fits ((Decimal.natural number).toList ++
      ' ' :: (range.text.toList ++ (trail "," (others.map DateRange.text) ++ rest)))
      fun _ => True := by
    generalize trail "," (others.map DateRange.text) ++ rest = tail at hgoes
    cases range with
    | months year? first last =>
      obtain rfl : year? = none := hyear
      unfold DateRange.text
      rw [String.toList_append, String.toList_append, List.append_assoc, List.append_assoc]
      have hlead := Ends.optional (Ends.followedBy
        (@reads_year (' ' :: (first.abbreviation.toList ++
          ((if first = last then "" else "-" ++ last.abbreviation).toList ++ tail))) number
          hnumber (noDigit_cons rfl)) (reads_someSpace (Begins.month first _).refuses_space))
      exact Ends.named (fits_choice (Ends.map (Ends.seq hlead (Ends.seq (reads_month first _)
        (fits_optional _))) fun _ _ => trivial))
    | days first last =>
      unfold DateRange.text
      rw [String.toList_append, List.append_assoc]
      have htail : ∀ c ∈ ((if first = last then "" else "-" ++ last.text).toList ++ tail).head?,
          (c.isDigit || c == ':') = false := by
        split
        · exact hgoes.not_digit_or_colon
        · rw [String.toList_append]
          rintro _ ⟨⟩
          rfl
      exact Ends.named (Ends.choice_left (Ends.map (Ends.seq
        (fits_day_year hnumber hyear hbounds.1 htail)
        (Ends.seq_left (fits_optional _) fun _ => fits_dayEnd _)) fun _ _ => trivial))
  exact Ends.named (Ends.map (Ends.seq_left hitem fun _ => fits_many _) fun _ _ => trivial)

/-! ### Years and dates together -/

/-- The years and the dates of a rule, as `wide` reads them. -/
def wideLead : Peg (List YearForm × List DateForm) :=
  choice (map (fun dates => ([], dates)) dates)
    (map (fun parts => (parts.1, parts.2.getD []))
      (seq years (optional (someSpace.andThen dates))))

/-- The years and the dates of a rule, as they are written. -/
def leadWords (ranges : List YearRange) (parts : List DateRange) : List String :=
  listed "" (ranges.map YearRange.text) ++ listed "" (parts.map DateRange.text)

variable {ranges : List YearRange} {parts : List DateRange}

theorem toList_leadWords (hne : ranges ≠ []) :
    (String.intercalate " " (leadWords ranges parts)).toList =
      (String.intercalate "," (ranges.map YearRange.text)).toList ++
        trail " " (listed "" (parts.map DateRange.text)) := by
  obtain ⟨first, others, rfl⟩ := List.exists_cons_of_ne_nil hne
  rw [leadWords, listed, if_neg (by simp), List.singleton_append, toList_intercalate_cons]
  simp

theorem toList_leadWords_nil (hne : parts ≠ []) :
    (String.intercalate " " (leadWords [] parts)).toList =
      (String.intercalate "," (parts.map DateRange.text)).toList := by
  obtain ⟨first, others, rfl⟩ := List.exists_cons_of_ne_nil hne
  simp [leadWords, listed]

/-- After years comes a blank, be there dates or not. -/
theorem exists_blank (parts : List DateRange) (hrest : After .dates rest) :
    ∃ source, trail " " (listed "" (parts.map DateRange.text)) ++ rest = ' ' :: source := by
  by_cases hne : parts = []
  · obtain ⟨other, source, rfl, -, -⟩ := hrest
    exact ⟨source, by rw [hne]; rfl⟩
  · exact ⟨_, by rw [trail_listed _ _ hne]; rfl⟩

theorem toList_yearLead (number : Nat) :
    (yearLead (some number)).toList = (Decimal.natural number).toList ++ [' '] := by
  rw [yearLead, String.toList_append]
  rfl

theorem exists_dateTail (range : DateRange) :
    ∃ tail, range.text.toList = (yearLead range.year?).toList ++ tail := by
  cases range with
  | months year? first last => simp [DateRange.text, DateRange.year?]
  | days first last =>
    obtain ⟨tail, htail⟩ := exists_dayTail first
    simp [DateRange.text, DateRange.year?, htail]

theorem refuses_dates_lead (hne : ranges ≠ []) (hfaithful : LeadFaithful ranges parts)
    (hrest : After .dates rest) :
    dates.Refuses ((String.intercalate " " (leadWords ranges parts)).toList ++ rest) := by
  obtain ⟨hyears, hdates, hapart⟩ := hfaithful
  rw [toList_leadWords hne, List.append_assoc]
  cases parts with
  | nil =>
    obtain ⟨other, source, rfl, hbegins, hlt⟩ := hrest
    obtain ⟨-, -, -, hmonth, heaster⟩ := hbegins.refused (ne_of_rank_lt hlt).symm
    exact refuses_dates_years hne hyears fun _ _ _ => ⟨hmonth, heaster, hbegins.refuses_space⟩
  | cons date others =>
    rw [trail_listed _ _ (List.cons_ne_nil _ _), List.cons_append]
    refine refuses_dates_years hne hyears ?_
    intro range hrange heq
    have hyear : date.year? ≠ none := by
      subst hrange
      exact hapart heq
    obtain ⟨number, hnumber⟩ := Option.ne_none_iff_exists'.1 hyear
    obtain ⟨tail, htail⟩ := exists_dateTail date
    rw [List.map_cons, toList_intercalate_cons, htail, hnumber, toList_yearLead, List.append_assoc,
      List.append_assoc, List.append_assoc, List.append_assoc]
    obtain ⟨c, after, heq, hc⟩ := @isDigit_head _
      ([' '] ++ (tail ++ (trail "," (others.map DateRange.text) ++ rest)))
      (@Decimal.isDigit_natural number) (Decimal.natural_ne_nil number)
    obtain ⟨hmonth, heaster, -⟩ := refuses_of_isDigit hc after
    have hspace := @refuses_space_digits _
      ([' '] ++ (tail ++ (trail "," (others.map DateRange.text) ++ rest)))
      (@Decimal.isDigit_natural number) (Decimal.natural_ne_nil number)
    rw [heq] at hspace
    exact heq ▸ ⟨hmonth, heaster, hspace⟩

theorem reads_wideLead (hne : ranges ≠ [] ∨ parts ≠ []) (hfaithful : LeadFaithful ranges parts)
    (hyears : ∀ range ∈ ranges, range.InBounds) (hdates : ∀ range ∈ parts, range.InBounds)
    (hrest : After .dates rest) :
    wideLead.Reads ((String.intercalate " " (leadWords ranges parts)).toList ++ rest) rest
      fun forms => forms.1.mapM YearForm.interpret = .ok ranges ∧
        forms.2.mapM DateForm.interpret = .ok parts := by
  by_cases hranges : ranges = []
  · subst hranges
    have hparts := hne.resolve_left fun h => h rfl
    rw [toList_leadWords_nil hparts]
    exact Ends.choice_left (Ends.map (reads_dates hparts hfaithful.2.1 hdates hrest)
      fun _ h => ⟨rfl, h⟩)
  · have hrefuses := refuses_dates_lead hranges hfaithful hrest
    have hbehind := reads_datesBehind hfaithful.2.1 hdates hrest
    obtain ⟨source, hsource⟩ := exists_blank parts hrest
    rw [toList_leadWords hranges, List.append_assoc] at hrefuses ⊢
    rw [hsource] at hrefuses hbehind ⊢
    exact Ends.choice_right hrefuses.map (Ends.map (Ends.seq
      (reads_years hranges hfaithful.1 hyears) hbehind) fun _ h => h)

theorem exists_of_not_yearApart (h : ¬ YearApart ranges parts) :
    ∃ range date others, ranges = [range] ∧ parts = date :: others ∧ range.first = range.last ∧
      date.year? = none := by
  match ranges, parts with
  | [range], date :: others =>
    obtain ⟨heq, hyear⟩ := Classical.not_imp.1 h
    exact ⟨range, date, others, rfl, rfl, heq, Classical.not_not.1 hyear⟩
  | [], _ => exact absurd trivial h
  | [_], [] => exact absurd trivial h
  | _ :: _ :: _, _ => exact absurd trivial h

theorem forall_of_not_exists_not {β : Type} {p : β → Prop} {items : List β}
    (h : ¬ ∃ b ∈ items, ¬ p b) : ∀ b ∈ items, p b :=
  fun b hmem => Classical.byContradiction fun hb => h ⟨b, hmem, hb⟩

theorem yields_wideLead (hfaithful : ¬ LeadFaithful ranges parts)
    (hyears : ∀ range ∈ ranges, range.InBounds) (hdates : ∀ range ∈ parts, range.InBounds)
    (hrest : After .dates rest) :
    wideLead.Yields ((String.intercalate " " (leadWords ranges parts)).toList ++ rest)
      fun forms => ¬ (forms.1.mapM YearForm.interpret = .ok ranges ∧
        forms.2.mapM DateForm.interpret = .ok parts) := by
  have hnil : ∀ source, years.Yields source fun forms => forms ≠ [] := fun _ =>
    Yields.named yields_separatedBy_ne_nil
  by_cases hranges : ranges = []
  · subst hranges
    have hbad : ∃ range ∈ parts, ¬ range.Faithful := Classical.byContradiction fun hnone =>
      hfaithful ⟨List.forall_mem_nil _, forall_of_not_exists_not hnone, trivial⟩
    obtain ⟨range, hmem, -⟩ := id hbad
    rw [toList_leadWords_nil (List.ne_nil_of_mem hmem)]
    refine Yields.choice (Yields.map (yields_dates hbad hdates hrest) fun _ h heq => h heq.2) ?_
    refine Yields.map (Yields.seq_left (hnil _)) fun forms hforms heq => hforms ?_
    exact List.eq_nil_of_length_eq_zero (length_of_mapM_eq_ok heq.1).symm
  · have hfirst : ∀ source, (map (fun dates => (([] : List YearForm), dates)) dates).Yields source
        fun forms => ¬ (forms.1.mapM YearForm.interpret = .ok ranges ∧
          forms.2.mapM DateForm.interpret = .ok parts) := fun _ =>
      Yields.map yields_true fun _ _ heq => hranges (mapM_nil_eq_ok.1 heq.1)
    rw [toList_leadWords hranges, List.append_assoc]
    by_cases hyearsBad : ∃ range ∈ ranges, ¬ range.Faithful
    · obtain ⟨source, hsource⟩ := exists_blank parts hrest
      rw [hsource]
      exact Yields.choice (hfirst _) (Yields.map (Yields.seq_left
        (yields_years hyearsBad hyears)) fun _ h heq => h heq.1)
    have hgood := forall_of_not_exists_not hyearsBad
    by_cases hdatesBad : ∃ range ∈ parts, ¬ range.Faithful
    · have hbehind := yields_datesBehind hdatesBad hdates hrest
      obtain ⟨source, hsource⟩ := exists_blank parts hrest
      rw [hsource] at hbehind ⊢
      exact Yields.choice (hfirst _) (Yields.map (Yields.seq_right
        (reads_years hranges hgood hyears) hbehind) fun _ h heq => h.2 heq.2)
    · -- Only a lone year before a date is left, which the dates take for themselves.
      obtain ⟨range, date, others, rfl, rfl, heq, hyear⟩ := exists_of_not_yearApart fun hapart =>
        hfaithful ⟨hgood, forall_of_not_exists_not hdatesBad, hapart⟩
      obtain ⟨hfour, -, hstep⟩ := hgood range (List.mem_singleton_self range)
      have htext : (String.intercalate "," ([range].map YearRange.text)).toList =
          (Decimal.natural range.first).toList := by
        simp [YearRange.text, rangeTail, heq, hstep heq]
      rw [trail_listed _ _ (List.cons_ne_nil _ _), htext]
      exact (Ends.choice_left (Ends.map (fits_dates_year hfour hyear
        (hdates date List.mem_cons_self) hrest) fun _ _ heq =>
          hranges (mapM_nil_eq_ok.1 heq.1))).yields

/-! ### Years, dates and weeks together -/

/-- The years, the dates and the weeks of a rule, as they are written. -/
def wideWords (selector : Selector) : List String :=
  leadWords selector.years selector.dates ++ listed "week " (selector.weeks.map WeekRange.text)

variable {selector : Selector}

theorem listed_ne_nil {β : Type} {lead : String} {text : β → String} {items : List β} :
    listed lead (items.map text) ≠ [] ↔ items ≠ [] :=
  not_congr listed_eq_nil

theorem leadWords_ne_nil : leadWords ranges parts ≠ [] ↔ ranges ≠ [] ∨ parts ≠ [] := by
  rw [leadWords, Ne, List.append_eq_nil_iff, Classical.not_and_iff_not_or_not]
  exact or_congr listed_ne_nil listed_ne_nil

/-- Weeks alone come after the word for them. -/
theorem toList_wideWords_weeks (hlead : leadWords selector.years selector.dates = [])
    (hweeks : selector.weeks ≠ []) : (String.intercalate " " (wideWords selector)).toList =
      "week ".toList ++ (String.intercalate "," (selector.weeks.map WeekRange.text)).toList := by
  rw [wideWords, hlead, List.nil_append, listed, if_neg (by simpa using hweeks)]
  simp

theorem refuses_wideLead_week (source : List Char) :
    wideLead.Refuses ("week".toList ++ source) := by
  have hbegins := Begins.week source
  exact Refuses.choice (hbegins.refuses_dates (by decide)).map
    (Refuses.map (Refuses.seq_left (hbegins.refuses_years (by decide))))

theorem nil_of_leadWords (hlead : leadWords selector.years selector.dates = []) :
    selector.years = [] ∧ selector.dates = [] := by
  have hnil := mt leadWords_ne_nil.2 (Classical.not_not.2 hlead)
  exact ⟨Classical.byContradiction fun h => hnil (.inl h),
    Classical.byContradiction fun h => hnil (.inr h)⟩

theorem reads_wide (hne : wideWords selector ≠ []) (hfaithful : selector.Faithful)
    (hbounds : selector.InBounds) (hrest : After .weeks rest) :
    wide.Reads ((String.intercalate " " (wideWords selector)).toList ++ rest) rest
      fun form => form.interpret = .ok { selector with weekdays := [], holidays := [] } := by
  by_cases hlead : leadWords selector.years selector.dates = []
  · obtain ⟨hyears, hdates⟩ := nil_of_leadWords hlead
    have hweeks : selector.weeks ≠ [] := by
      intro h
      exact hne (by rw [wideWords, hlead, h]; rfl)
    rw [toList_wideWords_weeks hlead hweeks, List.append_assoc]
    apply Ends.named
    refine Ends.choice_right (Refuses.map (Refuses.seq_left
      (refuses_wideLead_week _))) (Ends.map
        (reads_weeks hweeks hfaithful.2 hbounds.weeks hrest) ?_)
    intro _ h
    exact WideForm.interpret_eq_ok.2
      ⟨congrArg Except.ok hyears.symm, congrArg Except.ok hdates.symm, h, rfl, rfl⟩
  · have hbehind := reads_weeksBehind hfaithful.2 hbounds.weeks hrest
    have hafter := after_dates_weeks selector.weeks hrest
    rw [wideWords, toList_intercalate_append _ _ hlead, List.append_assoc]
    apply Ends.named
    refine Ends.choice_left (Ends.map (Ends.seq (reads_wideLead
      (leadWords_ne_nil.1 hlead) hfaithful.1 hbounds.years hbounds.dates hafter) hbehind) ?_)
    intro _ h
    exact WideForm.interpret_eq_ok.2 ⟨h.1.1, h.1.2, h.2, rfl, rfl⟩

/-- Conditions that are not faithful are not read as they are written. -/
theorem yields_wide (hfaithful : ¬ selector.Faithful)
    (hbounds : selector.InBounds) (hrest : After .weeks rest) :
    wide.Yields ((String.intercalate " " (wideWords selector)).toList ++ rest)
      fun form => form.interpret ≠ .ok { selector with weekdays := [], holidays := [] } := by
  by_cases hlead : leadWords selector.years selector.dates = []
  · obtain ⟨hyears, hdates⟩ := nil_of_leadWords hlead
    have hbad : ∃ range ∈ selector.weeks, ¬ range.Faithful := Classical.byContradiction fun h =>
      hfaithful ⟨by rw [hyears, hdates]; exact ⟨List.forall_mem_nil _, List.forall_mem_nil _,
        trivial⟩, forall_of_not_exists_not h⟩
    obtain ⟨range, hmem, -⟩ := id hbad
    rw [toList_wideWords_weeks hlead (List.ne_nil_of_mem hmem), List.append_assoc]
    apply Yields.named
    refine Yields.choice (Refuses.map (Refuses.seq_left
      (refuses_wideLead_week _))).yields (Yields.map (yields_weeks hbad hbounds.weeks hrest) ?_)
    intro _ h heq
    exact h (WideForm.interpret_eq_ok.1 heq).2.2.1
  · have hafter := after_dates_weeks selector.weeks hrest
    rw [wideWords, toList_intercalate_append _ _ hlead, List.append_assoc]
    apply Yields.named
    refine Yields.choice ?_ ?_
    · by_cases hleadFaithful : LeadFaithful selector.years selector.dates
      · have hbad : ∃ range ∈ selector.weeks, ¬ range.Faithful :=
          Classical.byContradiction fun h =>
            hfaithful ⟨hleadFaithful, forall_of_not_exists_not h⟩
        refine Yields.map (Yields.seq_right (reads_wideLead (leadWords_ne_nil.1 hlead)
          hleadFaithful hbounds.years hbounds.dates hafter)
          (yields_weeksBehind hbad hbounds.weeks hrest)) ?_
        intro _ h heq
        exact h.2 (WideForm.interpret_eq_ok.1 heq).2.2.1
      · refine Yields.map (Yields.seq_left (yields_wideLead hleadFaithful hbounds.years
          hbounds.dates hafter)) ?_
        intro _ h heq
        obtain ⟨hyears, hdates, -⟩ := WideForm.interpret_eq_ok.1 heq
        exact h ⟨hyears, hdates⟩
    · -- Weeks alone leave out the years and the dates.
      refine Yields.map yields_true ?_
      intro _ _ heq
      obtain ⟨hyears, hdates, -⟩ := WideForm.interpret_eq_ok.1 heq
      rcases leadWords_ne_nil.1 hlead with h | h
      · exact h (mapM_nil_eq_ok.1 hyears)
      · exact h (mapM_nil_eq_ok.1 hdates)

end Grammar

end Timetable
