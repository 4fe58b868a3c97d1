import Timetable.Proofs.Grammar.Lists
import Timetable.Proofs.Grammar.Words
import Timetable.Proofs.Reading.Bounds

/-!
Which conditions on years, weeks and dates are read as they are written.

A condition is read as itself if its years have four digits and a range of a single year or week has
no step (`Faithful`). If not, it is refused or read as another one: the text has lost the padding of
the year, or the end that a step needs before it. Each kind of condition has two lemmas, one for
either case, and `Lists` carries them over to lists.
-/

namespace Timetable

/-! ### What is faithful -/

/-- A year that the grammar reads. -/
def FourDigits (year : Nat) : Prop := 1000 ≤ year ∧ year ≤ 9999

instance (year : Nat) : Decidable (FourDigits year) :=
  inferInstanceAs (Decidable (1000 ≤ year ∧ year ≤ 9999))

/-- Both years have four digits, and a single year has no step. -/
def YearRange.Faithful (range : YearRange) : Prop :=
  FourDigits range.first ∧ FourDigits range.last ∧ (range.first = range.last → range.step = 1)

instance (range : YearRange) : Decidable range.Faithful :=
  inferInstanceAs (Decidable (_ ∧ _ ∧ (_ → _)))

/-- A single week has no step. -/
def WeekRange.Faithful (range : WeekRange) : Prop := range.first = range.last → range.step = 1

instance (range : WeekRange) : Decidable range.Faithful := inferInstanceAs (Decidable (_ → _))

/-- The year has four digits if there is one. -/
def AnnualDay.Faithful (day : AnnualDay) : Prop := ∀ year ∈ day.year?, FourDigits year

instance (day : AnnualDay) : Decidable day.Faithful :=
  inferInstanceAs (Decidable (∀ year ∈ day.year?, FourDigits year))

/-- All years have four digits. -/
def DateRange.Faithful : DateRange → Prop
  | .months year? _ _ => ∀ year ∈ year?, FourDigits year
  | .days first last => first.Faithful ∧ last.Faithful

instance (range : DateRange) : Decidable range.Faithful :=
  match range with
  | .months year? _ _ => inferInstanceAs (Decidable (∀ year ∈ year?, FourDigits year))
  | .days first last => inferInstanceAs (Decidable (first.Faithful ∧ last.Faithful))

namespace Grammar

open Peg

variable {rest source : List Char}

/-! ### The end of a number -/

/-- A comma or a blank comes first. -/
def Stops (rest : List Char) : Prop := ∃ c source, rest = c :: source ∧ (c = ',' ∨ c = ' ')

theorem stops_comma (source : List Char) : Stops (',' :: source) := ⟨',', source, rfl, .inl rfl⟩

theorem Stops.noDigit (h : Stops rest) : NoDigit rest := by
  obtain ⟨c, source, rfl, rfl | rfl⟩ := h <;> exact noDigit_cons rfl

theorem Stops.refuses_token (h : Stops rest) {c : Char} (hc : c ∉ [',', ' '])
    (text : List Char) : (token (c :: text)).Refuses rest := by
  obtain ⟨d, source, rfl, hd⟩ := h
  apply refuses_token_cons
  rintro rfl
  exact hc (by simpa using hd)

theorem noDigit_step {step : Nat} (hrest : Stops rest) :
    NoDigit ((if step = 1 then "" else "/" ++ Decimal.natural step).toList ++ rest) := by
  split
  · exact hrest.noDigit
  · rw [String.toList_append]
    exact @noDigit_cons _ '/' rfl

theorem reads_step {step greatest : Nat} {limit : Limit} (hstep : 1 ≤ step ∧ step ≤ greatest)
    (hgreatest : greatest < UInt64.size) (hrest : Stops rest) :
    (optional ((token ['/']).andThen number)).Reads
      ((if step = 1 then "" else "/" ++ Decimal.natural step).toList ++ rest) rest
      fun digits => interpretStep digits greatest limit = .ok step := by
  by_cases hone : step = 1
  · rw [if_pos hone]
    exact reads_optional_none (hrest.refuses_token (by decide) []).andThen
      (hone ▸ rfl)
  · rw [if_neg hone, String.toList_append, List.append_assoc]
    refine Ends.mono (Ends.optional (Ends.andThen (reads_token_cons '/' _)
      (reads_number hrest.noDigit))) ?_
    rintro _ ⟨_, rfl, rfl⟩
    unfold interpretStep
    dsimp only
    rw [Decimal.value_natural, if_neg (by omega), if_pos hstep]

/-! ### Years -/

theorem toList_rangeTail (last : Option String) (step : Nat) :
    (rangeTail last step).toList = (last.elim [] fun text => '-' :: text.toList) ++
      (if step = 1 then "" else "/" ++ Decimal.natural step).toList := by
  unfold rangeTail
  cases last <;> simp

theorem reads_yearRange {range : YearRange} (hfaithful : range.Faithful)
    (hbounds : range.InBounds) (hrest : Stops rest) :
    yearRange.Reads (range.text.toList ++ rest) rest fun form => form.interpret = .ok range := by
  obtain ⟨first, last, step⟩ := range
  obtain ⟨hfirst, hlast, hstep⟩ := hfaithful
  unfold YearRange.text
  dsimp only at hfirst hlast hstep ⊢
  rw [String.toList_append, toList_rangeTail, List.append_assoc]
  by_cases heq : first = last
  · obtain rfl := heq
    obtain rfl := hstep rfl
    rw [if_pos rfl, if_pos rfl]
    apply Ends.named
    refine Ends.map (Ends.seq (reads_year hfirst hrest.noDigit)
      (Ends.choice_right ?_ (Ends.choice_right ?_ (Ends.choice_left (reads_pure rfl))))) ?_
    · exact (hrest.refuses_token (by decide) []).andThen.seq_left.map
    · exact (hrest.refuses_token (by decide) []).named.map
    · rintro ⟨digits, ending⟩ ⟨hvalue, hending⟩
      dsimp only at hvalue hending
      subst hvalue hending
      rfl
  · have hafter := @noDigit_step _ step hrest
    have hlater := Ends.seq (Ends.andThen (reads_token_cons '-' _) (reads_year hlast hafter))
      (@reads_step _ _ _ .yearStep hbounds (by decide) hrest)
    rw [if_neg heq, List.append_assoc]
    apply Ends.named
    refine Ends.map (Ends.seq (reads_year hfirst (@noDigit_cons _ '-' rfl))
      (Ends.choice_left hlater.map_self)) ?_
    rintro ⟨digits, ending⟩ ⟨hvalue, ⟨last', step'⟩, ⟨hvalue', hstep'⟩, rfl⟩
    dsimp only at hvalue hvalue' hstep'
    refine bind_eq_ok.2 ⟨step, hstep', ?_⟩
    rw [hvalue, hvalue']
    rfl

/-- After the first number of a range comes its end, its step or what comes after it. -/
theorem rangeTail_head (last : Option String) (step : Nat) (hrest : Stops rest) :
    ∃ c source, (rangeTail last step).toList ++ rest = c :: source ∧
      (c = '-' ∨ c = '/' ∨ c = ',' ∨ c = ' ') := by
  rw [toList_rangeTail]
  cases last with
  | some text => exact ⟨'-', _, rfl, .inl rfl⟩
  | none =>
    by_cases hone : step = 1
    · obtain ⟨c, source, rfl, hc⟩ := hrest
      rw [if_pos hone]
      exact ⟨c, source, rfl, .inr (.inr hc)⟩
    · rw [if_neg hone, String.toList_append]
      exact ⟨'/', _, rfl, .inr (.inl rfl)⟩

theorem noDigit_rangeTail (last : Option String) (step : Nat) (hrest : Stops rest) :
    NoDigit ((rangeTail last step).toList ++ rest) := by
  obtain ⟨c, source, heq, hc⟩ := rangeTail_head last step hrest
  rw [heq]
  rcases hc with rfl | rfl | rfl | rfl <;> exact noDigit_cons rfl

/-- No end is read where the text has none, nor where it has one that is refused. -/
theorem refuses_rangeEnd {α : Type} {ending : Peg α} {last : Option String} {step : Nat}
    (hrest : Stops rest)
    (h : ∀ text ∈ last, ∀ rest, NoDigit rest → ending.Refuses (text.toList ++ rest)) :
    ((token ['-']).andThen ending).Refuses ((rangeTail last step).toList ++ rest) := by
  rw [toList_rangeTail, List.append_assoc]
  cases last with
  | none =>
    apply Refuses.andThen
    by_cases hone : step = 1
    · rw [if_pos hone]
      exact hrest.refuses_token (by decide) []
    · rw [if_neg hone, String.toList_append]
      exact @refuses_token_cons _ '-' '/' [] (by decide)
  | some text =>
    exact Refuses.andThen_right (reads_token_cons '-' _) (h text rfl _ (noDigit_step hrest))

/-- A range of years that is not faithful is not read as itself. -/
theorem yields_yearRange {range : YearRange} (hfaithful : ¬ range.Faithful) (hrest : Stops rest) :
    yearRange.Yields (range.text.toList ++ rest) fun form => form.interpret ≠ .ok range := by
  obtain ⟨first, last, step⟩ := range
  unfold YearRange.text
  rw [String.toList_append, List.append_assoc]
  dsimp only
  generalize htail : (if first = last then none else some (Decimal.natural last)) = tail
  have hno := noDigit_rangeTail tail step hrest
  by_cases hfirst : FourDigits first
  · -- Whatever comes after the first year, no end of the range is read there.
    have hend : ((token ['-']).andThen year).Refuses ((rangeTail tail step).toList ++ rest) := by
      refine refuses_rangeEnd hrest ?_
      rintro _ rfl after hafter
      split at htail
      · cases htail
      · rename_i hne
        obtain rfl := Option.some.inj htail
        exact refuses_year (fun hlast => hfaithful ⟨hfirst, hlast, fun heq => absurd heq hne⟩)
          hafter
    have hplus : plus.Refuses ((rangeTail tail step).toList ++ rest) := by
      obtain ⟨c, source, heq, hc⟩ := rangeTail_head tail step hrest
      rw [heq]
      apply Refuses.named
      rcases hc with rfl | rfl | rfl | rfl <;> exact fun _ => rfl
    apply Yields.named
    refine Yields.map (Yields.seq_right (reads_year hfirst hno) (Yields.choice
      hend.seq_left.map.yields (Yields.choice hplus.map.yields (Yields.choice
        (yields_pure rfl) refuses_fail.yields)))) ?_
    rintro ⟨digits, ending⟩ ⟨hvalue, hending⟩ h
    dsimp only at hvalue hending
    subst hvalue hending
    obtain ⟨-, rfl, rfl⟩ := YearRange.mk.inj (Except.ok.inj h)
    exact hfaithful ⟨hfirst, hfirst, fun _ => rfl⟩
  · exact (Refuses.named (Refuses.map (Refuses.seq_left (refuses_year hfirst hno)))).yields

/-! ### Weeks -/

theorem interpretWeekNumber_eq_ok {digits : List Char} {week : Nat}
    (hvalue : Decimal.value digits = week) (hbounds : 1 ≤ week ∧ week ≤ 53) :
    interpretWeekNumber digits = .ok week := by
  unfold interpretWeekNumber
  dsimp only
  rw [hvalue, if_pos hbounds]

theorem reads_weekRange {range : WeekRange} (hfaithful : range.Faithful)
    (hbounds : range.InBounds) (hrest : Stops rest) :
    weekRange.Reads (range.text.toList ++ rest) rest fun form => form.interpret = .ok range := by
  obtain ⟨first, last, step⟩ := range
  obtain ⟨hfirst, hlast, hstep⟩ := hbounds
  unfold WeekRange.text
  dsimp only at hfirst hlast hstep ⊢
  rw [String.toList_append, toList_rangeTail, List.append_assoc]
  by_cases heq : first = last
  · obtain rfl := heq
    obtain rfl := hfaithful rfl
    rw [if_pos rfl, if_pos rfl]
    apply Ends.named
    refine Ends.map (Ends.seq (reads_weekNumber (by omega) hrest.noDigit)
      (reads_optional_none ?_ rfl)) ?_
    · exact (hrest.refuses_token (by decide) []).andThen.seq_left
    · rintro ⟨digits, ending⟩ ⟨hvalue, hending⟩
      dsimp only at hvalue hending
      subst hending
      exact WeekForm.interpret_eq_ok.2 ⟨interpretWeekNumber_eq_ok hvalue hfirst, rfl, rfl⟩
  · have hafter := @noDigit_step _ step hrest
    have hlater := Ends.seq
      (Ends.andThen (reads_token_cons '-' _) (reads_weekNumber (show last < 100 by omega) hafter))
      (@reads_step _ _ _ .weekStep hstep (by decide) hrest)
    rw [if_neg heq, List.append_assoc]
    apply Ends.named
    refine Ends.map (Ends.seq
      (reads_weekNumber (by omega) (@noDigit_cons _ '-' rfl)) (Ends.optional hlater)) ?_
    rintro ⟨digits, ending⟩ ⟨hvalue, ⟨last', step'⟩, rfl, hvalue', hstep'⟩
    exact WeekForm.interpret_eq_ok.2 ⟨interpretWeekNumber_eq_ok hvalue hfirst,
      interpretWeekNumber_eq_ok hvalue' hlast, hstep'⟩

/-- A single week with a step is not read as itself. -/
theorem yields_weekRange {range : WeekRange} (hfaithful : ¬ range.Faithful)
    (hbounds : range.InBounds) (hrest : Stops rest) :
    weekRange.Yields (range.text.toList ++ rest) fun form => form.interpret ≠ .ok range := by
  obtain ⟨first, last, step⟩ := range
  obtain ⟨heq, hstep⟩ := Classical.not_imp.1 hfaithful
  unfold WeekRange.text
  dsimp only at heq hstep ⊢
  rw [if_pos heq, String.toList_append, List.append_assoc]
  have hend : ((token ['-']).andThen weekNumber).Refuses
      ((rangeTail none step).toList ++ rest) := refuses_rangeEnd hrest nofun
  apply Yields.named
  refine Yields.map (Yields.seq_right (reads_weekNumber
    (show first < 100 from Nat.lt_of_le_of_lt hbounds.1.2 (by decide))
    (noDigit_rangeTail none step hrest)) (reads_optional_none hend.seq_left rfl).yields) ?_
  rintro ⟨digits, ending⟩ ⟨-, hending⟩ h
  dsimp only at hending
  subst hending
  exact hstep (Except.ok.inj (WeekForm.interpret_eq_ok.1 h).2.2).symm

/-! ### Dates -/

theorem GoesOn.stops {part : Part} (h : GoesOn part rest) : Stops rest := by
  rcases h with ⟨source, rfl⟩ | ⟨other, source, rfl, -, -⟩
  · exact ⟨',', source, rfl, .inl rfl⟩
  · exact ⟨' ', source, rfl, .inr rfl⟩

/-- A year before a date is read if it has four digits. -/
theorem reads_leadingYear {year? : Option Nat} (hyear : ∀ year ∈ year?, FourDigits year)
    (hspace : space.Refuses source) (hno : year.Refuses source) :
    leadingYear.Reads ((yearLead year?).toList ++ source) source
      fun digits => digits.map Decimal.value = year? := by
  cases year? with
  | none => exact reads_optional_none hno.followedBy rfl
  | some number =>
    rw [yearLead, String.toList_append, List.append_assoc]
    refine Ends.mono (Ends.optional (Ends.followedBy
      (reads_year (hyear number rfl) (@noDigit_cons _ ' ' rfl)) (reads_someSpace hspace))) ?_
    rintro _ ⟨digits, rfl, rfl⟩
    rfl

/-- A month name or the word for Easter comes first. -/
theorem refuses_year_month (name : Month) (rest : List Char) :
    year.Refuses (name.abbreviation.toList ++ rest) := by
  cases name <;> exact fun _ => rfl

theorem interpretDayNumber_eq {digits : List Char} {number : Nat}
    (hvalue : Decimal.value digits = number) (hbounds : 1 ≤ number ∧ number ≤ 31) :
    interpretDayNumber digits = number := by
  unfold interpretDayNumber
  omega

theorem reads_day {annual : AnnualDay} (hfaithful : annual.Faithful) (hbounds : annual.InBounds)
    (hrest : ∀ c ∈ rest.head?, (c.isDigit || c == ':') = false) :
    day.Reads (annual.text.toList ++ rest) rest fun form => form.interpret = annual := by
  cases annual with
  | fixed year? name number =>
    have hlead := @reads_leadingYear
      (name.abbreviation.toList ++ ' ' :: ((Decimal.twoDigits number).toList ++ rest)) year?
      hfaithful (Begins.month name _).refuses_space (refuses_year_month name _)
    have hnumber := @reads_dayNumber rest number (Nat.lt_of_le_of_lt hbounds.2 (by decide)) hrest
    have hspace : space.Refuses ((Decimal.twoDigits number).toList ++ rest) :=
      refuses_space_digits Decimal.isDigit_twoDigits (Decimal.twoDigits_ne_nil number)
    unfold AnnualDay.text
    simp only [String.toList_append, List.append_assoc]
    apply Ends.named
    refine Ends.map (Ends.seq hlead (Ends.choice_left (Ends.map_self (Ends.seq
      (Ends.followedBy (reads_month name _) (reads_someSpace hspace)) hnumber)))) ?_
    rintro ⟨digits, fixed⟩ ⟨hyear, ⟨month, written⟩, ⟨rfl, hwritten⟩, rfl⟩
    dsimp only [DayForm.interpret] at hyear hwritten ⊢
    rw [hyear, interpretDayNumber_eq hwritten hbounds]
  | easter year? =>
    have hlead := @reads_leadingYear ("easter".toList ++ rest) year? hfaithful
      (Begins.easter rest).refuses_space (fun _ => rfl)
    unfold AnnualDay.text
    rw [String.toList_append, List.append_assoc]
    apply Ends.named
    refine Ends.map (Ends.seq hlead (Ends.choice_right ?_
      (Ends.named (reads_word "easter" none rest)))) ?_
    · exact fun _ => rfl
    · rintro ⟨digits, fixed⟩ ⟨hyear, hfixed⟩
      dsimp only at hyear hfixed
      subst hyear hfixed
      rfl

/-- A date begins with a year, with a month or with the word for Easter. -/
theorem begins_lead {year? : Option Nat} (h : Begins .dates source) :
    Begins .dates ((yearLead year?).toList ++ source) := by
  cases year? with
  | none => exact h
  | some number =>
    rw [yearLead, String.toList_append, List.append_assoc]
    exact .numeral Decimal.isDigit_natural (Decimal.natural_ne_nil number)
      (@noDigit_cons _ ' ' rfl) (by simp)

theorem begins_day (annual : AnnualDay) (rest : List Char) :
    Begins .dates (annual.text.toList ++ rest) := by
  cases annual with
  | fixed year? name number =>
    unfold AnnualDay.text
    simp only [String.toList_append, List.append_assoc]
    exact begins_lead (.month name _)
  | easter year? =>
    unfold AnnualDay.text
    rw [String.toList_append, List.append_assoc]
    exact begins_lead (.easter rest)

theorem begins_dateRange (range : DateRange) (rest : List Char) :
    Begins .dates (range.text.toList ++ rest) := by
  cases range with
  | months year? first last =>
    unfold DateRange.text
    rw [String.toList_append, String.toList_append, List.append_assoc, List.append_assoc]
    exact begins_lead (.month first _)
  | days first last =>
    unfold DateRange.text
    rw [String.toList_append, List.append_assoc]
    exact begins_day first _

/-- Behind a month there is no number of a day, unless one was written there. -/
theorem refuses_day_month {year? : Option Nat} {name : Month}
    (hyear : ∀ year ∈ year?, FourDigits year)
    (hrest : (∃ source, rest = '-' :: source) ∨ GoesOn .dates rest) :
    day.Refuses ((yearLead year?).toList ++ (name.abbreviation.toList ++ rest)) := by
  apply Refuses.named
  refine Refuses.map (Refuses.seq_right (reads_leadingYear hyear
    (Begins.month name rest).refuses_space (refuses_year_month name rest)) (Refuses.choice
      (Refuses.map ?_) ?_))
  · rcases hrest with ⟨source, rfl⟩ | ⟨source, rfl⟩ | ⟨other, source, rfl, hbegins, hlt⟩
    · exact Refuses.seq_left (Refuses.followedBy_right (reads_month name _)
        (refuses_someSpace (refuses_space (by decide))))
    · exact Refuses.seq_left (Refuses.followedBy_right (reads_month name _)
        (refuses_someSpace (refuses_space (by decide))))
    · exact Refuses.seq_right (Ends.followedBy (reads_month name _)
        (reads_someSpace hbegins.refuses_space)) (hbegins.refused (ne_of_rank_lt hlt).symm).2.2.1
  · cases name <;> exact fun _ => rfl

theorem GoesOn.not_digit_or_colon {part : Part} (h : GoesOn part rest) :
    ∀ c ∈ rest.head?, (c.isDigit || c == ':') = false := by
  rcases h with ⟨source, rfl⟩ | ⟨other, source, rfl, -, -⟩ <;> rintro _ ⟨⟩ <;> rfl

theorem reads_dayEnd_missing (hrest : GoesOn .dates rest) :
    dayEnd.Reads rest rest (· = .missing) := by
  have hspaced : (spaced "-").Refuses rest :=
    @GoesOn.refuses_spaced _ _ hrest "-" '-' [] rfl (by decide) rfl
  exact Ends.choice_right hspaced.andThen.map (Ends.choice_right
    (hrest.refuses_token (by decide) []).named.map (Ends.choice_left (reads_pure rfl)))

/-- A last day behind a hyphen. -/
theorem reads_hyphen (annual : AnnualDay) (rest : List Char) :
    (spaced "-").Reads ('-' :: (annual.text.toList ++ rest)) (annual.text.toList ++ rest)
      fun _ => True :=
  @reads_spaced _ "-" _ (refuses_space (by decide))
    (reads_spaces_none (begins_day annual rest).refuses_space)

theorem refuses_dayOffset_hyphen (source : List Char) : dayOffset.Refuses ('-' :: source) :=
  Refuses.map (Refuses.located (Refuses.named (Refuses.followedBy (Refuses.andThen
    (refuses_someSpace (refuses_space (by decide)))))))

theorem hyphen_not_digit_or_colon (source : List Char) :
    ∀ c ∈ ('-' :: source).head?, (c.isDigit || c == ':') = false := by
  rintro _ ⟨⟩
  rfl

theorem reads_lastDay {annual : AnnualDay} (first : AnnualDay) (hfaithful : annual.Faithful)
    (hbounds : annual.InBounds) (hrest : GoesOn .dates rest) :
    dayEnd.Reads ('-' :: (annual.text.toList ++ rest)) rest fun form =>
      ∃ last, form = .upTo last none ∧ last.interpret first = .ok annual := by
  have hlast : lastDay.Reads (annual.text.toList ++ rest) rest
      fun last => last.interpret first = .ok annual :=
    Ends.named (Ends.choice_left (Ends.map
      (reads_day hfaithful hbounds hrest.not_digit_or_colon) fun _ h => congrArg Except.ok h))
  refine Ends.choice_left (Ends.map (Ends.andThen (reads_hyphen annual rest) (Ends.seq hlast
    (reads_optional_none hrest.refuses_dayOffset rfl))) ?_)
  rintro ⟨last, offset⟩ ⟨hlast, rfl⟩
  exact ⟨last, rfl, hlast⟩

/-- The last month of a range, which a lone month does not have. -/
theorem reads_lastMonth (first last : Month) (hrest : GoesOn .dates rest) :
    (optional ((token ['-']).andThen month)).Reads
      ((if first = last then "" else "-" ++ last.abbreviation).toList ++ rest) rest
      fun found => found.getD first = last := by
  by_cases heq : first = last
  · rw [if_pos heq]
    exact reads_optional_none (hrest.refuses_token (by decide) []).andThen heq
  · rw [if_neg heq, String.toList_append, List.append_assoc]
    refine Ends.mono (Ends.optional (Ends.andThen (reads_token_cons '-' _)
      (reads_month last rest))) ?_
    rintro _ ⟨found, rfl, rfl⟩
    rfl

theorem lastMonth_goesOn (first last : Month) (hrest : GoesOn .dates rest) :
    (∃ source, (if first = last then "" else "-" ++ last.abbreviation).toList ++ rest
        = '-' :: source) ∨
      GoesOn .dates ((if first = last then "" else "-" ++ last.abbreviation).toList ++ rest) := by
  by_cases heq : first = last
  · rw [if_pos heq]
    exact .inr hrest
  · rw [if_neg heq, String.toList_append, List.append_assoc]
    exact .inl ⟨_, rfl⟩

theorem reads_dateRange {range : DateRange} (hfaithful : range.Faithful)
    (hbounds : range.InBounds) (hrest : GoesOn .dates rest) :
    dateRange.Reads (range.text.toList ++ rest) rest fun form => form.interpret = .ok range := by
  cases range with
  | months year? first last =>
    unfold DateRange.text
    rw [String.toList_append, String.toList_append, List.append_assoc, List.append_assoc]
    apply Ends.named
    refine Ends.choice_right (Refuses.map (Refuses.seq_left
      (refuses_day_month hfaithful (lastMonth_goesOn first last hrest)))) (Ends.map (Ends.seq
        (reads_leadingYear hfaithful (Begins.month first _).refuses_space
          (refuses_year_month first _))
        (Ends.seq (reads_month first _) (reads_lastMonth first last hrest))) ?_)
    rintro ⟨digits, month, other⟩ ⟨hyear, hmonth, hlast⟩
    dsimp only at hyear hmonth hlast
    subst hyear hmonth hlast
    rfl
  | days first last =>
    unfold DateRange.text
    rw [String.toList_append, List.append_assoc]
    by_cases heq : first = last
    · obtain rfl := heq
      rw [if_pos rfl]
      apply Ends.named
      refine Ends.choice_left (Ends.map (Ends.seq
        (reads_day hfaithful.1 hbounds.1 hrest.not_digit_or_colon) (Ends.seq
          (reads_optional_none hrest.refuses_dayOffset rfl) (reads_dayEnd_missing hrest))) ?_)
      rintro ⟨day, offset, ending⟩ ⟨hday, hoffset, hending⟩
      dsimp only at hday hoffset hending
      subst hday hoffset hending
      rfl
    · rw [if_neg heq, String.toList_append, List.append_assoc]
      apply Ends.named
      refine Ends.choice_left (Ends.map (Ends.seq
        (reads_day hfaithful.1 hbounds.1 (hyphen_not_digit_or_colon _)) (Ends.seq
          (reads_optional_none (refuses_dayOffset_hyphen _) rfl)
          (reads_lastDay first hfaithful.2 hbounds.2 hrest))) ?_)
      rintro ⟨day, offset, ending⟩ ⟨hday, hoffset, last', hending, hlast⟩
      dsimp only at hday hoffset hending
      subst hday hoffset hending
      exact bind_eq_ok.2 ⟨(), rfl, bind_eq_ok.2 ⟨last, hlast, bind_eq_ok.2 ⟨(), rfl, rfl⟩⟩⟩

/-- Before a date, a year that has not four digits is not read, and the date is not either. -/
theorem refuses_lead {year? : Option Nat} (hyear : ¬ ∀ year ∈ year?, FourDigits year)
    (source : List Char) : day.Refuses ((yearLead year?).toList ++ source) ∧
      dateRange.Refuses ((yearLead year?).toList ++ source) := by
  cases year? with
  | none => exact absurd nofun hyear
  | some number =>
    have hnumber : ¬ FourDigits number := fun h => hyear (by rintro _ ⟨⟩; exact h)
    have hno := @refuses_year (' ' :: source) number hnumber (noDigit_cons rfl)
    obtain ⟨c, tail, heq, hc⟩ := @isDigit_head _ (' ' :: source)
      (@Decimal.isDigit_natural number) (Decimal.natural_ne_nil number)
    rw [yearLead, String.toList_append, List.append_assoc]
    change day.Refuses ((Decimal.natural number).toList ++ ' ' :: source) ∧
      dateRange.Refuses ((Decimal.natural number).toList ++ ' ' :: source)
    rw [heq] at hno ⊢
    obtain ⟨hmonth, heaster, -⟩ := refuses_of_isDigit hc tail
    exact refuses_date (reads_optional_none hno.followedBy trivial) hmonth heaster

theorem exists_dayTail (annual : AnnualDay) :
    ∃ tail, annual.text.toList = (yearLead annual.year?).toList ++ tail := by
  cases annual <;> simp [AnnualDay.text, AnnualDay.year?]

/-- A lone day number lies in the year of the first day or in the one after it. -/
theorem year?_of_number {fragment : Fragment} {first last : AnnualDay}
    (h : (LastDayForm.number fragment).interpret first = .ok last) :
    last.year? = first.year? ∨ last.year? = first.year?.map (· + 1) := by
  cases first with
  | easter year? => cases h
  | fixed year? name number =>
    dsimp only [LastDayForm.interpret] at h
    split at h
    · obtain rfl := Except.ok.inj h
      dsimp only [AnnualDay.year?]
      split
      · exact .inr rfl
      · exact .inl rfl
    · obtain rfl := Except.ok.inj h
      exact .inl rfl

/-- A last day whose year has not four digits is not read as itself. -/
theorem yields_lastDay {first last : AnnualDay} (hfirst : first.Faithful)
    (hlast : ¬ last.Faithful) (rest : List Char) :
    lastDay.Yields (last.text.toList ++ rest) fun form => form.interpret first ≠ .ok last := by
  obtain ⟨tail, htext⟩ := exists_dayTail last
  rw [htext, List.append_assoc]
  apply Yields.named
  refine Yields.choice (refuses_lead hlast _).1.map.yields ?_
  have hyears : ¬ ∀ year ∈ last.year?, FourDigits year := hlast
  cases hyear : last.year? with
  | none =>
    rw [hyear] at hyears
    exact absurd nofun hyears
  | some number =>
    have hnumber : ¬ FourDigits number := by
      intro h
      rw [hyear] at hyears
      exact hyears (by rintro _ ⟨⟩; exact h)
    rw [yearLead, String.toList_append, List.append_assoc]
    by_cases hshort : number < 100
    · -- The year may be read as the number of a day, but the year that is meant is then another.
      refine Yields.map yields_true ?_
      intro parts _ h
      rcases year?_of_number h with heq | heq
      · exact hnumber (hfirst number (heq ▸ hyear))
      · obtain ⟨year, hmem, hsucc⟩ := Option.map_eq_some_iff.1 (heq.symm.trans hyear)
        have := hfirst year hmem
        unfold FourDigits at this
        omega
    · have hlong := mt Decimal.length_natural_le_two.1 hshort
      exact (Refuses.map (Refuses.located (Refuses.named (refuses_digits Decimal.isDigit_natural
        (by decide) (fun c hc => by simp [hc]) (@noDigit_cons _ ' ' rfl)
        (.inr (Nat.lt_of_not_le hlong)))))).yields

/-- Behind a first day, another last day is read or none. -/
theorem yields_dayEnd {first last : AnnualDay} (hfirst : first.Faithful)
    (hlast : ¬ last.Faithful) (rest : List Char) :
    dayEnd.Yields ('-' :: (last.text.toList ++ rest)) fun form => form = .missing ∨
      ∃ other offset, form = .upTo other offset ∧ other.interpret first ≠ .ok last := by
  have hplus : plus.Refuses ('-' :: (last.text.toList ++ rest)) :=
    Refuses.named (refuses_token_cons (by decide))
  refine Yields.choice (Yields.map (Yields.andThen_right (reads_hyphen last rest)
    (yields_lastDay hfirst hlast rest).seq_left) ?_) (Yields.choice hplus.map.yields
      (Yields.choice (yields_pure (.inl rfl)) refuses_fail.yields))
  intro parts h
  exact .inr ⟨parts.1, parts.2, rfl, h⟩

/-- A part of the year that is not faithful is not read as itself. -/
theorem yields_dateRange {range : DateRange} (hfaithful : ¬ range.Faithful)
    (hbounds : range.InBounds) :
    dateRange.Yields (range.text.toList ++ rest) fun form => form.interpret ≠ .ok range := by
  cases range with
  | months year? first last =>
    unfold DateRange.text
    rw [String.toList_append, String.toList_append, List.append_assoc, List.append_assoc]
    exact (refuses_lead hfaithful _).2.yields
  | days first last =>
    unfold DateRange.text
    rw [String.toList_append, List.append_assoc]
    by_cases hfirst : first.Faithful
    · have hlast : ¬ last.Faithful := fun h => hfaithful ⟨hfirst, h⟩
      have hne : first ≠ last := by
        rintro rfl
        exact hlast hfirst
      rw [if_neg hne, String.toList_append, List.append_assoc]
      apply Yields.named
      refine Yields.choice (Yields.map (Yields.seq_right
        (reads_day hfirst hbounds.1 (hyphen_not_digit_or_colon _)) (Yields.seq_right
          (reads_optional_none (refuses_dayOffset_hyphen _) rfl)
          (yields_dayEnd hfirst hlast rest))) ?_) (Yields.map yields_true fun _ _ => nofun)
      rintro ⟨day, offset, ending⟩ ⟨hday, hoffset, hending⟩ h
      dsimp only at hday hoffset hending h
      subst hday hoffset
      obtain ⟨-, -, h⟩ := bind_eq_ok.1 h
      rcases hending with rfl | ⟨other, offset, rfl, hother⟩
      · exact hne (DateRange.days.inj (Except.ok.inj h)).2
      · obtain ⟨last', hlast', h⟩ := bind_eq_ok.1 h
        obtain ⟨-, -, h⟩ := bind_eq_ok.1 h
        obtain ⟨-, rfl⟩ := DateRange.days.inj (Except.ok.inj h)
        exact hother hlast'
    · obtain ⟨tail, htext⟩ := exists_dayTail first
      rw [htext, List.append_assoc]
      exact (refuses_lead hfirst _).2.yields

end Grammar

end Timetable
