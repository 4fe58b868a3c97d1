import Mathlib.Data.List.Chain
import Timetable.Proofs.Grammar.Steady
import Timetable.Proofs.Reading.Meanings

/-!
Reading the rules of a text that was rewritten.

`HarmlessInRule` is what a rewriting has to leave alone so that rules are read as before: clock
times, the numbers of years, weeks and days, what is enclosed, and the blanks, commas and hyphens
between them. From that, one lemma a part of the grammar goes up to the rule. Spans, days, dates and
comments are steady, and so are the lists of them up to the first comma with a blank beside it. A
rule whose text is over there has neither spans nor a word for its kind nor a comment at its end: it
ends in a list (`RuleForm.EndsInList`).

If a rewriting leaves alone what stands between rules as well (`Harmless`), a whole text is read
with rules that look the same (`Harmless.exists_result_wholeText`).
-/

namespace Timetable.Grammar

open Peg

/-- Characters that a rewriting may deal with: digits, and what begins, separates or encloses the
parts of a rule. Blanks come first. -/
def touched : List Char := " ,;-\"[0123456789".toList

theorem not_mem_of_not_touched {marks : List Char} (h : marks.all touched.contains = true)
    {c : Char} (hc : c ∉ touched) : c ∉ marks := fun hmem =>
  hc (List.contains_iff_mem.1 (List.all_eq_true.1 h c hmem))

/-- What a rewriting has to leave alone so that rules are read as before. -/
structure HarmlessInRule (rewriting : Rewriting) (sight : Sight) : Prop where
  passes : ∀ c ∉ touched, rewriting.Passes c
  keepsCommas : rewriting.KeepsCommas
  steady_always : (token "24/7".toList).Steady rewriting id
  steady_clock : clock.Steady rewriting (ClockForm.seen sight)
  steady_year : year.Steady rewriting Decimal.value
  steady_dayNumber : dayNumber.Steady rewriting Decimal.value
  steady_step : ((token ['/']).andThen number).Steady rewriting Decimal.value
  /-- Weeks are read as a whole, since the hyphen between them is not that of a span. -/
  tolerant_weeks : weeks.Tolerant rewriting (List.map (meaning? WeekForm.interpret)) fun _ => True
  steady_laterYear : ((token ['-']).andThen year).Steady rewriting Decimal.value
  steady_laterMonth : ((token ['-']).andThen month).Steady rewriting id
  steady_laterWeekday : ((token ['-']).andThen weekday).Steady rewriting id
  steady_dayOffset : dayOffset.Steady rewriting fun _ => ()
  steady_occurrences : occurrences.Steady rewriting fun _ => ()
  steady_comment : comment.Steady rewriting fun text => sight.comment (String.ofList text)
  steady_spaces : spaces.Steady rewriting id
  steady_hyphen : (spaced "-").Steady rewriting id
  steady_comma : (spaced ",").Steady rewriting id
  steady_sign : (spaces.andThen (sign.followedBy spaces)).Steady rewriting id
  behindSpace : ∀ {α γ : Type} {peg : Peg α} {view : α → γ} {ends : α → Prop},
    peg.Tolerant rewriting view ends → peg.idle = false →
      [',', ';', '-'].all (!peg.opens ·) = true →
        (someSpace.andThen peg).Tolerant rewriting view ends

/-! ### Endings in lists -/

/-- The conditions end in a list, as no spans stand behind them. -/
def TimesForm.EndsInList : TimesForm → Prop
  | .always => False
  | .times _ small => ∀ form ∈ small, form.spans = []

instance (times : TimesForm) : Decidable times.EndsInList :=
  match times with
  | .always => inferInstanceAs (Decidable False)
  | .times _ none => .isTrue nofun
  | .times _ (some form) => decidable_of_iff (form.spans = []) (by simp [TimesForm.EndsInList])

/-- The rule ends in a list, as neither spans nor a modifier stand behind it. -/
def RuleForm.EndsInList (form : RuleForm) : Prop :=
  form.modifier = none ∧ ∀ times ∈ form.times, times.EndsInList

instance (form : RuleForm) : Decidable form.EndsInList :=
  inferInstanceAs (Decidable (_ ∧ _))

/-! ### Small lemmas on the grammar -/

/-- Where holidays are read, no weekdays are. -/
theorem refuses_weekdays_of_holidays {cursor : Cursor} {r : List HolidayForm × Cursor}
    (h : (holidays.run cursor).result = some r) : weekdays.Refuses cursor.rest := by
  have hword : ∀ {name : Holiday}, name.abbreviation.toList <+: cursor.rest →
      weekdays.Refuses cursor.rest := by
    rintro name ⟨rest, hrest⟩
    rw [← hrest]
    exact (Begins.holiday name rest).refuses_weekdays (by decide)
  by_cases hpublic : "PH".toList <+: cursor.rest
  · exact @hword .publicHoliday hpublic
  by_cases hschool : "SH".toList <+: cursor.rest
  · exact @hword .schoolHoliday hschool
  · have hrefuses : holidays.Refuses cursor.rest :=
      Refuses.named (refuses_separatedBy (Refuses.named (Refuses.map (Refuses.seq_left
        (Refuses.choice (Refuses.named (refuses_word hpublic))
          (Refuses.named (refuses_word hschool)))))))
    rw [show (holidays.run cursor).result = none from hrefuses cursor.offset] at h
    cases h

theorem result_days (cursor : Cursor) : (days.run cursor).result =
    (holidaysOnWeekdays.run cursor).result.or
      (((map (fun parts => DaysForm.weekdaysThenHolidays parts.1 parts.2)
        (seq weekdays (afterComma holidays))).run cursor).result.or
      ((map (fun parts => DaysForm.holidaysThenWeekdays parts.1 parts.2)
        (seq holidays (afterComma weekdays))).run cursor).result) := by
  rw [days, result_named, firstOf, List.foldr_cons, List.foldr_cons, List.foldr_cons,
    List.foldr_nil, result_choice, result_choice, result_choice]
  exact congrArg _ (congrArg _ (Option.or_none ..))

theorem result_holidaysOnWeekdays (cursor : Cursor) : (holidaysOnWeekdays.run cursor).result =
    ((seq holidays (someSpace.andThen weekdays)).run cursor).result.map
      fun r => (.holidaysOnWeekdays r.1.1 r.1.2, r.2) := by
  rw [holidaysOnWeekdays, result_named, result_map, result_seq_followedBy]

/-- The text of a day number is its digits. -/
theorem yields_located_dayNumber (source : List Char) :
    (located dayNumber).Yields source fun both => both.2.text = both.1 := by
  intro offset value next hresult
  rw [result_located, dayNumber, result_named, result_followedBy] at hresult
  obtain ⟨⟨row, last⟩, hnumber, heq⟩ := Option.map_eq_some_iff.1 hresult
  obtain ⟨rfl, rfl⟩ := Prod.mk.inj heq
  obtain ⟨⟨row, between⟩, hrow, hno⟩ := Option.bind_eq_some_iff.1 hnumber
  obtain ⟨⟨_, _⟩, hnext, heq⟩ := Option.map_eq_some_iff.1 hno
  obtain ⟨rfl, rfl⟩ := Prod.mk.inj heq
  rw [result_notNext] at hnext
  split at hnext
  · cases hnext
  · obtain ⟨-, rfl⟩ := Prod.mk.inj (Option.some.inj hnext)
    have hsource : source = row ++ between.rest := rest_of_chars hrow
    simp [Cursor.fragmentTo, hsource]

theorem refuses_behindSeparator_loose {α : Type} {peg : Peg α} {text : List Char}
    (h : LooseComma text) (hidle : peg.idle = false) (hcomma : peg.opens ',' = false) :
    (conditionSeparator.andThen peg).Refuses text := by
  obtain ⟨rest, hrest, -⟩ := id h
  have hspaces := reads_spaces text
  rw [hrest] at hspaces
  have hcolon : (spaced ":").Refuses text :=
    Refuses.followedBy (Refuses.andThen_right hspaces (refuses_token_cons (by decide)))
  intro offset
  have hblank := refuses_behindSpace_loose h hidle hcomma offset
  rw [result_andThen] at hblank
  rw [result_andThen, conditionSeparator, result_choice, hcolon offset]
  exact hblank

/-! ### Parts with digits -/

section Parts

variable {rewriting : Rewriting} {γ : Type} {view : Bool × List Char → γ}

theorem steady_weekRange_of (hnumber : weekNumber.Steady rewriting Decimal.value)
    (hlater : ((token ['-']).andThen weekNumber).Steady rewriting Decimal.value)
    (hstep : ((token ['/']).andThen number).Steady rewriting Decimal.value) :
    weekRange.Steady rewriting (meaning? WeekForm.interpret) :=
  ((hnumber.seq (hlater.seq hstep.optional).optional).map fun _ _ => meaning?_week).named

/-- The blanks behind the word belong to the first week. -/
theorem result_weeks (cursor : Cursor) : (weeks.run cursor).result =
    (((token "week".toList).andThen (map (fun both => both.1 :: both.2)
      (seq (someSpace.andThen weekRange) (many ((token [',']).andThen weekRange))))).run
        cursor).result := by
  rw [weeks, result_named, result_andThen_andThen, result_andThen, result_andThen]
  refine Option.bind_congr fun r _ => ?_
  rw [result_andThen, separatedBy, result_map, ← result_andThen_seq, result_andThen]
  cases (someSpace.run r.2).result with
  | none => rfl
  | some last => exact result_map _ _ _

theorem tolerant_weeks_of (hword : (token "week".toList).Steady rewriting id)
    (hfirst : (someSpace.andThen weekRange).Steady rewriting (meaning? WeekForm.interpret))
    (hlater : (many ((token [',']).andThen weekRange)).Tolerant rewriting
      (List.map (meaning? WeekForm.interpret)) fun _ => True) :
    weeks.Tolerant rewriting (List.map (meaning? WeekForm.interpret)) fun _ => True := by
  have hlist : (map (fun both => both.1 :: both.2) (seq (someSpace.andThen weekRange)
      (many ((token [',']).andThen weekRange)))).Tolerant rewriting
        (List.map (meaning? WeekForm.interpret)) fun _ => True :=
    (Leads.seq hfirst hlater).map (fun _ _ heq =>
      congrArg₂ List.cons (Prod.mk.inj heq).1 (Prod.mk.inj heq).2) fun _ => id
  exact (Leads.andThen hword hlist).congr result_weeks

theorem steady_dayOffset_of (h : ((someSpace.andThen (seq sign number)).followedBy
    (someSpace.andThen (choice (token "days".toList) (token "day".toList)))).Steady rewriting
      view) : dayOffset.Steady rewriting fun _ => () :=
  Steady.map (Steady.located (Leads.named h)) fun _ _ _ => rfl

theorem steady_occurrences_of (h : ((token ['[']).andThen
    ((chars (· != ']') 0 none).followedBy (token [']']))).Steady rewriting id) :
    occurrences.Steady rewriting fun _ => () :=
  Steady.map (Steady.located (Leads.named h)) fun _ _ _ => rfl

theorem steady_comment_of {sight : Sight} (h : ((token ['"']).andThen
    ((chars (· != '"') 0 none).followedBy (token ['"']))).Steady rewriting
      fun body => sight.comment (String.ofList body)) :
    comment.Steady rewriting fun body => sight.comment (String.ofList body) := by
  refine Leads.named (Leads.congr h fun cursor => ?_)
  simp only [result_andThen, result_followedBy, result_named]

end Parts

/-! ### Rewritings that leave blanks, commas and hyphens alone -/

/-- If all but digits and enclosures stays, what is left to show is how numbers and what is enclosed
are read. -/
theorem harmlessInRule_of_passes {rewriting : Rewriting} {sight : Sight}
    (hpasses : ∀ c ∉ "\"[0123456789".toList, rewriting.Passes c)
    (halways : (token "24/7".toList).Steady rewriting id)
    (hclock : clock.Steady rewriting (ClockForm.seen sight))
    (hyear : year.Steady rewriting Decimal.value)
    (hday : dayNumber.Steady rewriting Decimal.value)
    (hstep : ((token ['/']).andThen number).Steady rewriting Decimal.value)
    (hnumber : number.Steady rewriting fun _ => ())
    (hweeks : weeks.Tolerant rewriting (List.map (meaning? WeekForm.interpret)) fun _ => True)
    (hoccurrences : occurrences.Steady rewriting fun _ => ())
    (hcomment : comment.Steady rewriting fun body => sight.comment (String.ofList body)) :
    HarmlessInRule rewriting sight := by
  have havoids : ∀ {α : Type} {peg : Peg α}, peg.avoids "\"[0123456789".toList = true →
      peg.Steady rewriting id := Peg.steady_of_avoids hpasses
  have hspaces : spaces.Steady rewriting id :=
    Steady.map (Steady.many (havoids rfl) consumes_space) fun _ _ _ => rfl
  have hspaced : ∀ {mark : String}, (token mark.toList).avoids "\"[0123456789".toList = true →
      (spaced mark).Steady rewriting id := fun hmark =>
    (hspaces.andThen (havoids hmark)).followedBy hspaces
  have hsome : someSpace.Steady rewriting id := Steady.andThen (havoids rfl) hspaces
  have hhyphen : (token ['-']).Steady rewriting id := havoids rfl
  have hsign : sign.Steady rewriting id := havoids rfl
  exact {
    passes := fun c hc => hpasses c (not_mem_of_not_touched rfl hc)
    keepsCommas := keepsCommas_of_passes (hpasses ',' (by decide))
    steady_always := halways
    steady_clock := hclock
    steady_year := hyear
    steady_dayNumber := hday
    steady_step := hstep
    tolerant_weeks := hweeks
    steady_laterYear := hhyphen.andThen hyear
    steady_laterMonth := havoids rfl
    steady_laterWeekday := havoids rfl
    steady_dayOffset := steady_dayOffset_of ((hsome.andThen (hsign.seq hnumber)).followedBy
      (hsome.andThen (havoids rfl)))
    steady_occurrences := hoccurrences
    steady_comment := hcomment
    steady_spaces := hspaces
    steady_hyphen := hspaced rfl
    steady_comma := hspaced rfl
    steady_sign := hspaces.andThen (Steady.followedBy (havoids rfl) hspaces)
    behindSpace := fun hpeg _ _ => Leads.andThen hsome hpeg }

/-- If all but enclosures stays, what is left to show is how what is enclosed is read. -/
theorem harmlessInRule_of_enclosed {rewriting : Rewriting} {sight : Sight}
    (hpasses : ∀ c ∉ ['"', '['], rewriting.Passes c)
    (hoccurrences : occurrences.Steady rewriting fun _ => ())
    (hcomment : comment.Steady rewriting fun body => sight.comment (String.ofList body)) :
    HarmlessInRule rewriting sight := by
  have havoids : ∀ {α : Type} {peg : Peg α}, peg.avoids ['"', '['] = true →
      peg.Steady rewriting id := Peg.steady_of_avoids hpasses
  have hweek : weekRange.Steady rewriting (meaning? WeekForm.interpret) := (havoids rfl).seen
  have hsome : someSpace.Steady rewriting id :=
    Steady.andThen (havoids rfl)
      (Steady.map (Steady.many (havoids rfl) consumes_space) fun _ _ _ => rfl)
  exact harmlessInRule_of_passes
    (fun c hc => hpasses c fun hmem => hc (by simp_all))
    (havoids rfl) (havoids rfl).seen (havoids rfl).seen (havoids rfl).seen (havoids rfl).seen
    (havoids rfl).seen
    (tolerant_weeks_of (havoids rfl) (hsome.andThen hweek)
      (hweek.manyBehindCommas (keepsCommas_of_passes (hpasses ',' (by decide))) rfl rfl))
    hoccurrences hcomment

namespace HarmlessInRule

variable {rewriting : Rewriting} {sight : Sight} (h : HarmlessInRule rewriting sight)

include h

theorem steady_of_avoids {α : Type} {peg : Peg α} (havoids : peg.avoids touched = true) :
    peg.Steady rewriting id :=
  Peg.steady_of_avoids h.passes havoids

theorem steady_spaced {mark : String} (havoids : (token mark.toList).avoids touched = true) :
    (spaced mark).Steady rewriting id :=
  (h.steady_spaces.andThen (h.steady_of_avoids havoids)).followedBy h.steady_spaces

/-! ### Spans of time -/

theorem steady_shiftedEvent : shiftedEvent.Steady rewriting (MomentForm.seen sight) := by
  have hopen : (token ['(']).Steady rewriting id := h.steady_of_avoids rfl
  have hclose : (token [')']).Steady rewriting id := h.steady_of_avoids rfl
  have hevent : event.Steady rewriting id := h.steady_of_avoids rfl
  have hamount : ((clock.followedBy spaces).followedBy (token [')'])).Steady rewriting
      (ClockForm.seen sight) := (h.steady_clock.followedBy h.steady_spaces).followedBy hclose
  have hmoved := Leads.congr (h.steady_sign.seq hamount) (result_andThen_seq _ _ _)
  have hparts := Leads.congr (hevent.seq hmoved) (result_seq_followedBy _ _ _)
  refine (hopen.andThen (h.steady_spaces.andThen hparts)).map fun a b heq => ?_
  obtain ⟨event, later, amount⟩ := a
  obtain ⟨event', later', amount'⟩ := b
  obtain ⟨hevent, hrest⟩ := Prod.mk.inj heq
  obtain ⟨hlater, hamount⟩ := Prod.mk.inj hrest
  obtain rfl : event = event' := hevent
  obtain rfl : later = later' := hlater
  exact seen_shifted event later hamount

theorem steady_moment : moment.Steady rewriting (MomentForm.seen sight) := by
  have hevent : event.Steady rewriting id := h.steady_of_avoids rfl
  have hsolar : solarMoment.Steady rewriting (MomentForm.seen sight) :=
    Leads.named (Leads.choice (hevent.map (by rintro a _ rfl; rfl)) h.steady_shiftedEvent)
  exact Leads.named (Leads.choice (h.steady_clock.map fun _ _ => seen_clock) hsolar)

theorem steady_spanEnd : spanEnd.Steady rewriting (SpanEndForm.seen sight) := by
  have hplus : plus.Steady rewriting id := h.steady_of_avoids rfl
  have hupTo := h.steady_hyphen.andThen (h.steady_moment.seq hplus.optional)
  exact Leads.choice (hupTo.map fun _ _ => seen_upTo)
    (Leads.choice (hplus.map fun _ _ _ => rfl) ((tolerant_pure _).choice tolerant_fail))

theorem steady_span : span.Steady rewriting (SpanForm.seen sight) := by
  have hparts := h.steady_moment.seq h.steady_spanEnd
  exact (hparts.located.map fun _ _ => seen_span).named

theorem steady_spans : spans.Steady rewriting (List.map (SpanForm.seen sight)) :=
  (h.steady_span.separatedBy h.steady_comma (consumes_spaced (List.cons_ne_nil _ _))).named

/-! ### Days -/

theorem steady_weekdayRange :
    weekdayRange.Steady rewriting (meaning? WeekdayForm.interpret) := by
  have hweekday : weekday.Steady rewriting id := h.steady_of_avoids rfl
  have hnames : (seq weekday (optional ((token ['-']).andThen weekday))).Steady rewriting id :=
    (hweekday.seq h.steady_laterWeekday.optional).mono (fun _ _ heq => by simpa using heq)
      fun _ => id
  exact ((hnames.seq (h.steady_occurrences.optional.seq h.steady_dayOffset.optional)).map
    fun _ _ => meaning?_weekday).named

theorem tolerant_weekdays :
    weekdays.Tolerant rewriting (List.map (meaning? WeekdayForm.interpret)) fun _ => True :=
  (h.steady_weekdayRange.commaList h.keepsCommas rfl rfl).named

theorem steady_holiday : holiday.Steady rewriting (meaning? HolidayForm.interpret) := by
  have hkinds : (choice (named (word "PH" Holiday.publicHoliday))
      (named (word "SH" .schoolHoliday))).Steady rewriting id := h.steady_of_avoids rfl
  exact ((hkinds.seq h.steady_dayOffset.optional).map fun _ _ => meaning?_holiday).named

theorem tolerant_holidays :
    holidays.Tolerant rewriting (List.map (meaning? HolidayForm.interpret)) fun _ => True :=
  (h.steady_holiday.commaList h.keepsCommas rfl rfl).named

/-- Where holidays stop before a loose comma, all that is read is the holidays. -/
theorem tolerant_days : days.Tolerant rewriting (meaning? DaysForm.interpret) fun _ => True := by
  have hbehind := h.behindSpace h.tolerant_weekdays rfl rfl
  have hweekdays := h.tolerant_weekdays.afterComma h.keepsCommas rfl rfl
  have hweekdaysFirst := ((h.tolerant_weekdays.seq
    (h.tolerant_holidays.afterComma h.keepsCommas rfl rfl)
    fun _ hloose => reads_afterComma_loose hloose rfl rfl).map
      (fun _ _ => meaning?_weekdaysThenHolidays) fun _ _ => trivial :
    Tolerant _ rewriting (meaning? DaysForm.interpret) fun _ => True)
  intro text text' hrelates offset offset'
  rw [result_days, result_days]
  rcases (h.tolerant_holidays text text' hrelates offset offset').cases with
    hsteady | ⟨kinds, next, hread, hloosens, hloose, -⟩
  · rw [result_holidaysOnWeekdays, result_holidaysOnWeekdays, result_map _ (seq holidays _),
      result_map _ (seq holidays _)]
    refine Alike.or ?_ ((hweekdaysFirst text text' hrelates offset offset').or ?_)
    · exact (hsteady.seq_steady hbehind).map (fun _ _ => meaning?_holidaysOnWeekdays)
        fun _ => id
    · exact (hsteady.seq_steady hweekdays).map (fun _ _ => meaning?_holidaysThenWeekdays)
        fun _ => id
  · obtain ⟨rest, stop⟩ := next
    have hranges : (afterComma weekdays).Reads rest rest (· = []) :=
      reads_afterComma_loose hloose rfl rfl
    obtain ⟨ranges, stop', hranges, -⟩ := hranges.exists_result stop
    have hbehind : (someSpace.andThen weekdays).Refuses rest :=
      refuses_behindSpace_loose hloose rfl rfl
    have hweekdays := refuses_weekdays_of_holidays hread
    rw [result_holidaysOnWeekdays, result_map, result_map, result_seq, result_seq, result_seq,
      hread, show (weekdays.run ⟨text, offset⟩).result = none from hweekdays offset]
    simp only [Option.bind_some, hbehind stop, hranges, Option.map_none, Option.bind_none,
      Option.map_some, Option.none_or]
    exact .stopped hloosens hloose trivial

/-! ### Dates and years -/

theorem tolerant_years :
    years.Tolerant rewriting (List.map (meaning? YearForm.interpret)) fun _ => True := by
  have hplus : plus.Steady rewriting id := h.steady_of_avoids rfl
  have hupTo := (h.steady_laterYear.seq h.steady_step.optional).map fun _ _ => meaningAfter_yearUpTo
  have hrange : yearRange.Steady rewriting (meaning? YearForm.interpret) :=
    Leads.named ((h.steady_year.seq (Leads.choice hupTo (Leads.choice
      (hplus.map fun _ _ _ => rfl) ((tolerant_pure _).choice tolerant_fail)))).map
        fun _ _ => meaning?_year)
  exact (hrange.commaList h.keepsCommas rfl rfl).named

/-- A year and blanks before what begins neither with a digit nor with a gap. -/
theorem steady_leadingYear {α γ : Type} {peg : Peg α} {view : α → γ}
    (hpeg : peg.Steady rewriting view) (hidle : peg.idle = false)
    (hopens : [',', ';', '-'].all (!peg.opens ·) = true)
    (hdigits : "0123456789".toList.all (!peg.opens ·) = true) :
    (seq leadingYear peg).Steady rewriting (Prod.map (Option.map Decimal.value) view) := by
  have hbehind : (seq (year.followedBy someSpace) peg).Steady rewriting
      (Prod.map Decimal.value view) :=
    Leads.congr (h.steady_year.seq (h.behindSpace hpeg hidle hopens))
      (result_seq_followedBy _ _ _)
  have hchoice : (choice (map (fun both => (some both.1, both.2))
      (seq (year.followedBy someSpace) peg)) (map (fun value => (none, value)) peg)).Steady
      rewriting (Prod.map (Option.map Decimal.value) view) :=
    Leads.choice
      (hbehind.map fun _ _ heq => Prod.ext (congrArg some (Prod.mk.inj heq).1) (Prod.mk.inj heq).2)
      (hpeg.map fun _ _ heq => Prod.ext rfl heq)
  refine Leads.congr hchoice (result_seq_optional rfl hidle fun c hc => ?_)
  have hc : c.isDigit = true := by simpa [year, digits, Peg.followedBy, opens, idle] using hc
  simpa using List.all_eq_true.1 hdigits c (mem_digits_of_isDigit hc)

theorem steady_day : day.Steady rewriting DayForm.interpret := by
  have hmonth : month.Steady rewriting id := h.steady_of_avoids rfl
  have heaster : (named (word "easter" (none : Option (Month × List Char)))).Steady rewriting id :=
    h.steady_of_avoids rfl
  have hfixed : (seq (month.followedBy someSpace) dayNumber).Steady rewriting
      (Prod.map id Decimal.value) :=
    Leads.congr (hmonth.seq (h.behindSpace h.steady_dayNumber rfl rfl))
      (result_seq_followedBy _ _ _)
  have hpart : (choice (map some (seq (month.followedBy someSpace) dayNumber))
      (named (word "easter" none))).Steady rewriting (Option.map (Prod.map id Decimal.value)) :=
    Leads.choice (hfixed.map fun _ _ heq => congrArg some heq)
      (heaster.mono (by rintro a _ rfl; rfl) fun _ => id)
  exact Leads.named ((h.steady_leadingYear hpart rfl rfl rfl).map
    fun _ _ => interpret_day_congr)

theorem steady_lastDay : lastDay.Steady rewriting LastDayForm.meaningAfter :=
  Leads.named (Leads.choice
    (h.steady_day.map fun _ _ heq => funext fun _ => congrArg some heq)
    (h.steady_dayNumber.located.map_of_yields yields_located_dayNumber fun _ _ ha hb heq =>
      meaningAfter_number (by rw [ha, hb]; exact heq)))

theorem steady_dayEnd : dayEnd.Steady rewriting DayEndForm.meaningAfter := by
  have hplus : plus.Steady rewriting id := h.steady_of_avoids rfl
  exact ((h.steady_hyphen.andThen (h.steady_lastDay.seq h.steady_dayOffset.optional)).map
    fun _ _ => meaningAfter_upTo).choice ((hplus.map fun _ _ _ => rfl).choice
      ((tolerant_pure _).choice tolerant_fail))

theorem tolerant_dates :
    dates.Tolerant rewriting (List.map (meaning? DateForm.interpret)) fun _ => True := by
  have hmonth : month.Steady rewriting id := h.steady_of_avoids rfl
  have hnames : (seq month (optional ((token ['-']).andThen month))).Steady rewriting id :=
    (hmonth.seq h.steady_laterMonth.optional).mono (fun _ _ heq => by simpa using heq) fun _ => id
  have hmonths := h.steady_leadingYear hnames rfl rfl rfl
  have hrange : dateRange.Steady rewriting (meaning? DateForm.interpret) :=
    Leads.named (((h.steady_day.seq (h.steady_dayOffset.optional.seq h.steady_dayEnd)).map
      fun _ _ => meaning?_days).choice (hmonths.map fun _ _ => meaning?_months))
  exact (hrange.commaList h.keepsCommas rfl rfl).named

/-! ### Conditions -/

theorem tolerant_wide : wide.Tolerant rewriting (meaning? WideForm.interpret) fun _ => True := by
  have hdates := (h.behindSpace h.tolerant_dates rfl rfl).optional
  have hweeks := (h.behindSpace h.tolerant_weeks rfl rfl).optional
  have hlead : (choice (map (fun dates => (([] : List YearForm), dates)) dates)
      (map (fun parts => (parts.1, parts.2.getD []))
        (seq years (optional (someSpace.andThen dates))))).Tolerant rewriting
      (Prod.map (List.map (meaning? YearForm.interpret))
        (List.map (meaning? DateForm.interpret))) fun _ => True := by
    refine Leads.choice (h.tolerant_dates.map (fun _ _ heq => Prod.ext rfl heq) fun _ => id) ?_
    refine (h.tolerant_years.seq hdates fun _ hloose => reads_optional_loose hloose rfl rfl).map
      (fun _ _ heq => ?_) fun _ _ => trivial
    exact Prod.ext (Prod.mk.inj heq).1 (map_getD_nil (Prod.mk.inj heq).2)
  refine Leads.named (Leads.choice ?_
    (h.tolerant_weeks.map (fun a b heq => ?_) fun _ _ => trivial))
  · exact (hlead.seq hweeks fun _ hloose => reads_optional_loose hloose rfl rfl).map
      (fun _ _ => meaning?_wide) fun _ _ => trivial
  · exact meaning?_wide (a := (([], []), some a)) (b := (([], []), some b))
      (Prod.ext rfl (congrArg some heq))

/-- Small conditions that stop before a loose comma have no spans. -/
theorem tolerant_small :
    small.Tolerant rewriting (SmallForm.seenAfter sight) fun form => form.spans = [] := by
  have hspans := h.behindSpace h.steady_spans rfl rfl
  refine Leads.named (Leads.choice ?_
    (Leads.map h.steady_spans (fun _ _ heq => seenAfter_small rfl heq) fun _ => False.elim))
  refine (h.tolerant_days.seq (Steady.optional hspans)
    fun _ hloose => reads_optional_loose hloose rfl rfl).map (fun _ _ heq => ?_) ?_
  · exact seenAfter_small (congrArg some (Prod.mk.inj heq).1) (map_getD_nil (Prod.mk.inj heq).2)
  · rintro ⟨days, spans⟩ (⟨-, rfl⟩ | hno)
    · rfl
    · exact hno.elim

/-- The small conditions stand behind a colon or behind blanks. -/
theorem tolerant_behindSeparator {α γ : Type} {peg : Peg α} {view : α → γ} {ends : α → Prop}
    (hpeg : peg.Tolerant rewriting view ends) (hidle : peg.idle = false)
    (hopens : [',', ';', '-'].all (!peg.opens ·) = true) :
    (conditionSeparator.andThen peg).Tolerant rewriting view ends := by
  intro text text' hrelates offset offset'
  have hcolon : (spaced ":").Steady rewriting id := h.steady_spaced rfl
  have hmark := hcolon text text' hrelates offset offset'
  have hblank := h.behindSpace hpeg hidle hopens text text' hrelates offset offset'
  rw [result_andThen, result_andThen] at hblank
  rw [result_andThen, result_andThen, conditionSeparator, result_choice, result_choice]
  generalize ((spaced ":").run ⟨text, offset⟩).result = result at hmark ⊢
  generalize ((spaced ":").run ⟨text', offset'⟩).result = result' at hmark ⊢
  cases hmark with
  | refused => exact hblank
  | read hrest _ => exact hpeg _ _ hrest _ _
  | stopped _ _ hno => exact hno.elim

/-! ### Rules -/

theorem tolerant_times :
    times.Tolerant rewriting (TimesForm.seen sight) TimesForm.EndsInList := by
  have halways : (named (word "24/7" TimesForm.always)).Steady rewriting id :=
    Leads.named h.steady_always.map_id
  have hsmall := (h.tolerant_behindSeparator h.tolerant_small rfl rfl).optional
  refine Leads.named (Leads.choice (Leads.mono halways (fun _ _ heq => congrArg _ heq)
    fun _ => False.elim) (Leads.choice ?_ (Leads.choice ?_ tolerant_fail)))
  · refine (h.tolerant_wide.seq hsmall fun _ hloose => reads_optional_none
      (refuses_behindSeparator_loose hloose rfl rfl) rfl).map (fun _ _ => seen_times) ?_
    rintro ⟨wide, small⟩ (⟨-, rfl⟩ | ⟨form, rfl, hspans⟩)
    · exact nofun
    · rintro _ ⟨⟩
      exact hspans
  · refine h.tolerant_small.map (fun _ _ heq => congrFun heq none) ?_
    rintro form hspans _ ⟨⟩
    exact hspans

theorem steady_modifier : modifier.Steady rewriting (ModifierForm.seen sight) := by
  have hkind : kind.Steady rewriting id := h.steady_of_avoids rfl
  have hbehind := h.behindSpace h.steady_comment rfl rfl
  refine Leads.named (Leads.choice ((hkind.seq (Steady.optional hbehind)).map
    fun a b heq => ?_) (h.steady_comment.map fun a b heq => ?_))
  · obtain ⟨hword, hcomment⟩ := Prod.mk.inj heq
    exact Prod.ext (congrArg some hword) hcomment
  · exact Prod.ext rfl (congrArg some heq)

theorem tolerant_rule : rule.Tolerant rewriting (RuleForm.seenWhen sight) RuleForm.EndsInList := by
  have hbehind := h.behindSpace h.steady_modifier rfl rfl
  refine Leads.named (Leads.choice ?_ (Leads.map h.steady_modifier
    (fun _ _ heq => seenWhen_rule rfl (congrArg some heq)) fun _ => False.elim))
  refine (h.tolerant_times.seq (Steady.optional hbehind) fun _ hloose =>
    reads_optional_loose hloose rfl rfl).map (fun _ _ heq => ?_) ?_
  · exact seenWhen_rule (congrArg some (Prod.mk.inj heq).1) (Prod.mk.inj heq).2
  · rintro ⟨times, modifier⟩ (⟨hends, rfl⟩ | hno)
    · refine ⟨rfl, ?_⟩
      rintro _ ⟨⟩
      exact hends
    · exact hno.elim

end HarmlessInRule

/-! ### The parts of a whole text -/

/-- The rules behind the first one. -/
def otherRules : Peg (List (SeparatorForm × RuleForm)) := many (seq separator rule)

/-- What may stand behind the last rule. -/
def ending : Peg (Option Unit) :=
  ((optional (spaces.andThen (token [';']))).followedBy spaces).followedBy (named endOfText)

theorem result_wholeText (cursor : Cursor) :
    (wholeText.run cursor).result =
      (spaces.run cursor).result.bind fun start =>
        (rule.run start.2).result.bind fun first =>
          (otherRules.run first.2).result.bind fun others =>
            (ending.run others.2).result.map fun stop => (⟨first.1, others.1⟩, stop.2) := by
  simp only [wholeText, expression, ending, otherRules, result_followedBy, result_andThen,
    result_named, result_map, result_seq]
  cases (spaces.run cursor).result with
  | none => rfl
  | some start =>
    simp only [Option.bind_some]
    cases (rule.run start.2).result with
    | none => rfl
    | some first =>
      simp only [Option.bind_some]
      cases ((many (seq separator rule)).run first.2).result with
      | none => rfl
      | some others =>
        simp only [Option.bind_some, Option.map_some]
        cases ((optional (spaces.andThen (token [';']))).run others.2).result with
        | none => rfl
        | some mark =>
          simp only [Option.bind_some, Option.map_some]
          cases (spaces.run mark.2).result with
          | none => rfl
          | some blank =>
            simp only [Option.bind_some, Option.map_some]
            cases (endOfText.run blank.2).result <;> rfl

/-- The steps in which a whole text is read. -/
theorem wholeText_eq_some {cursor last : Cursor} {form : ExpressionForm} :
    (wholeText.run cursor).result = some (form, last) ↔
      ∃ start afterFirst afterOthers mark,
        (spaces.run cursor).result = some ((), start) ∧
          (rule.run start).result = some (form.first, afterFirst) ∧
            (otherRules.run afterFirst).result = some (form.rest, afterOthers) ∧
              (ending.run afterOthers).result = some (mark, last) := by
  obtain ⟨first, rest⟩ := form
  rw [result_wholeText]
  constructor
  · intro h
    obtain ⟨start, hstart, h⟩ := Option.bind_eq_some_iff.1 h
    obtain ⟨first, hfirst, h⟩ := Option.bind_eq_some_iff.1 h
    obtain ⟨others, hothers, h⟩ := Option.bind_eq_some_iff.1 h
    obtain ⟨stop, hstop, heq⟩ := Option.map_eq_some_iff.1 h
    obtain ⟨hform, rfl⟩ := Prod.mk.inj heq
    obtain ⟨rfl, rfl⟩ := ExpressionForm.mk.inj hform
    exact ⟨start.2, first.2, others.2, stop.1, hstart, hfirst, hothers, hstop⟩
  · rintro ⟨start, afterFirst, afterOthers, mark, hstart, hfirst, hothers, hstop⟩
    rw [hstart, Option.bind_some, hfirst, Option.bind_some, hothers, Option.bind_some, hstop]
    rfl

/-- Behind the last rule there are only blanks, or a semicolon and blanks. -/
theorem blank_of_ending {cursor last : Cursor} {mark : Option Unit}
    (h : (ending.run cursor).result = some (mark, last)) :
    cursor.rest.dropWhile (· == ' ') = [] ∨
      ∃ back, cursor.rest.dropWhile (· == ' ') = ';' :: back ∧
        back.dropWhile (· == ' ') = [] := by
  rw [ending, result_followedBy, result_followedBy] at h
  obtain ⟨⟨_, stop⟩, hinner, h⟩ := Option.bind_eq_some_iff.1 h
  obtain ⟨⟨_, between⟩, hmark, hblank⟩ := Option.bind_eq_some_iff.1 hinner
  obtain ⟨⟨⟨⟩, blank⟩, hspaces, heq⟩ := Option.map_eq_some_iff.1 hblank
  obtain ⟨-, rfl⟩ := Prod.mk.inj heq
  obtain ⟨⟨_, _⟩, hend, -⟩ := Option.map_eq_some_iff.1 h
  have hempty : blank.rest = [] := by
    rw [result_named, result_endOfText] at hend
    split at hend
    · rename_i hempty
      exact List.isEmpty_iff.1 hempty
    · cases hend
  have hbetween : between.rest.dropWhile (· == ' ') = [] :=
    (rest_of_spaces hspaces).symm.trans hempty
  rw [Peg.optional, result_choice] at hmark
  rcases Option.or_eq_some_iff.1 hmark with hsemicolon | ⟨-, hnone⟩
  · rw [result_map, result_andThen] at hsemicolon
    obtain ⟨⟨_, after⟩, hboth, heq⟩ := Option.map_eq_some_iff.1 hsemicolon
    obtain ⟨-, rfl⟩ := Prod.mk.inj heq
    obtain ⟨⟨⟨⟩, blank⟩, hblank, htoken⟩ := Option.bind_eq_some_iff.1 hboth
    exact .inr ⟨after.rest, (rest_of_spaces hblank).symm.trans (rest_of_token htoken), hbetween⟩
  · obtain ⟨-, rfl⟩ := Prod.mk.inj (Option.some.inj hnone)
    exact .inl hbetween

/-! ### Rules one after the other -/

/-- A semicolon behind blanks begins a rule that overrides. -/
theorem reads_semicolon {text more : List Char} (h : text.dropWhile (· == ' ') = ';' :: more) :
    separator.Reads text (more.dropWhile (· == ' ')) (· = .overriding) := by
  have hmark : (spaced ";").Reads text (more.dropWhile (· == ' ')) fun _ => True :=
    reads_spaced_dropWhile h
  exact Ends.named (Ends.choice_left (Ends.map hmark.named fun _ _ => rfl))

/-- A loose comma separates a rule from one that adds to it. -/
theorem reads_separator_loose (h : LooseComma text) :
    ∃ rest, separator.Reads text rest (· = .adding) := by
  obtain ⟨rest, hrest, -⟩ := h
  have hmark : ∀ mark ∈ [";", "||"], (spaced mark).Refuses text := by
    intro mark hmem
    refine refuses_spaced_dropWhile ?_
    rw [hrest]
    revert mark
    simp
  have hcomma : (spaced ",").Reads text (rest.dropWhile (· == ' ')) fun _ => True :=
    reads_spaced_dropWhile hrest
  exact ⟨_, Ends.named (Ends.choice_right (hmark ";" (by simp)).named.map
    (Ends.choice_right (hmark "||" (by simp)).named.located.map
      (Ends.choice_left (Ends.map hcomma.named fun _ _ => rfl))))⟩

/-- No rule that ends in a list stands before a rule that adds to it. -/
def ExpressionForm.ListsApart (form : ExpressionForm) : Prop :=
  ((.overriding, form.first) :: form.rest).IsChain fun part next =>
    ¬ (part.2.EndsInList ∧ next.1 = .adding)

instance (form : ExpressionForm) : Decidable form.ListsApart :=
  inferInstanceAs (Decidable (List.IsChain _ _))

/-- Where a whole text goes on with a loose comma, it goes on with a rule that adds. -/
theorem adding_of_loose {cursor last stop : Cursor} {mark : Option Unit}
    {parts : List (SeparatorForm × RuleForm)} (hloose : LooseComma cursor.rest)
    (h : (otherRules.run cursor).result = some (parts, last))
    (hending : (ending.run last).result = some (mark, stop)) :
    ∃ next later, parts = (.adding, next) :: later := by
  rw [otherRules, result_many consumes_separator.seq_left] at h
  cases hstep : ((seq separator rule).run cursor).result with
  | none =>
    -- The text does not end at a comma.
    rw [hstep] at h
    obtain ⟨-, rfl⟩ := Prod.mk.inj (Option.some.inj h)
    obtain ⟨rest, hrest, -⟩ := hloose
    rcases blank_of_ending hending with hblank | ⟨back, hmark, -⟩
    · cases hrest.symm.trans hblank
    · cases hrest.symm.trans hmark
  | some r =>
    obtain ⟨⟨separatorForm, next⟩, between⟩ := r
    rw [hstep] at h
    obtain ⟨⟨later, _⟩, -, heq⟩ := Option.map_eq_some_iff.1 h
    obtain ⟨rfl, -⟩ := Prod.mk.inj heq
    obtain ⟨rest, hreads⟩ := reads_separator_loose hloose
    obtain ⟨_, offset, hresult, rfl⟩ := hreads.exists_result cursor.offset
    have hresult : (separator.run cursor).result = some (.adding, ⟨rest, offset⟩) := hresult
    rw [result_seq, hresult] at hstep
    obtain ⟨⟨next, _⟩, -, heq⟩ := Option.map_eq_some_iff.1 hstep
    obtain ⟨hpart, -⟩ := Prod.mk.inj heq
    exact ⟨next, later, by rw [← hpart]⟩

/-- What a rewriting has to leave alone so that whole texts are read as before. -/
structure Harmless (rewriting : Rewriting) (sight : Sight) : Prop
    extends HarmlessInRule rewriting sight where
  tolerant_part : (seq separator rule).Tolerant rewriting (seenPart sight)
    fun part => part.2.EndsInList
  exists_result_ending : ∀ {text text' : List Char}, rewriting.relates text text' →
    ∀ {offset : Nat} {mark : Option Unit} {last : Cursor},
      (ending.run ⟨text, offset⟩).result = some (mark, last) →
        ∀ offset', ∃ r, (ending.run ⟨text', offset'⟩).result = some r

namespace Harmless

variable {rewriting : Rewriting} {sight : Sight} (h : Harmless rewriting sight)

include h

/-- If lists that are loosened stand apart, the other rules of a whole text look the same in the
rewritten text. -/
theorem exists_result_otherRules {cursor last stop : Cursor} {mark : Option Unit}
    {parts : List (SeparatorForm × RuleForm)} {text' : List Char}
    (hresult : (otherRules.run cursor).result = some (parts, last))
    (hending : (ending.run last).result = some (mark, stop))
    (hapart : rewriting.loosens →
      parts.IsChain fun part next => ¬ (part.2.EndsInList ∧ next.1 = .adding))
    (hrelates : rewriting.relates cursor.rest text') (offset : Nat) :
    ∃ parts' last' r, (otherRules.run ⟨text', offset⟩).result = some (parts', last') ∧
      (ending.run last').result = some r ∧
        parts'.map (seenPart sight) = parts.map (seenPart sight) := by
  have hconsumes : (seq separator rule).Consumes := consumes_separator.seq_left
  induction hlength : cursor.rest.length using Nat.strongRecOn
    generalizing cursor parts text' offset with
  | ind length ih =>
    have hstep := h.tolerant_part cursor.rest text' hrelates cursor.offset offset
    have hlt := hconsumes cursor
    rw [otherRules, result_many hconsumes] at hresult ⊢
    change Alike _ _ _ ((seq separator rule).run cursor).result _ at hstep
    generalize ((seq separator rule).run cursor).result = result at hresult hstep hlt
    generalize ((seq separator rule).run ⟨text', offset⟩).result = result' at hstep ⊢
    cases hstep with
    | refused =>
      obtain ⟨rfl, rfl⟩ := Prod.mk.inj (Option.some.inj hresult)
      obtain ⟨r, hr⟩ := h.exists_result_ending hrelates hending offset
      exact ⟨[], _, r, rfl, hr, rfl⟩
    | @read part part' rest rest' stop stop' hrest hview =>
      obtain ⟨⟨later, _⟩, hlater, heq⟩ := Option.map_eq_some_iff.1 hresult
      obtain ⟨rfl, rfl⟩ := Prod.mk.inj heq
      obtain ⟨later', last', r, hlater', hr, hseen⟩ :=
        ih rest.length (hlength ▸ hlt part _ rfl) hlater (fun hloosens => (hapart hloosens).tail)
          hrest stop' rfl
      refine ⟨part' :: later', last', r, ?_, hr, ?_⟩
      · rw [otherRules] at hlater'
        dsimp only
        rw [hlater']
        rfl
      · rw [List.map_cons, List.map_cons, hview, hseen]
    | stopped hloosens hloose hends =>
      -- The rule behind the loose comma adds to a list.
      obtain ⟨⟨later, _⟩, hlater, heq⟩ := Option.map_eq_some_iff.1 hresult
      obtain ⟨rfl, rfl⟩ := Prod.mk.inj heq
      obtain ⟨next, later, rfl⟩ := adding_of_loose hloose hlater hending
      exact absurd ⟨hends, rfl⟩ (List.isChain_cons_cons.1 (hapart hloosens)).1

/-- If lists that are loosened stand apart, the rules of a whole text look the same in the rewritten
text. -/
theorem exists_result_wholeText {text text' : List Char} {form : ExpressionForm} {last : Cursor}
    (hresult : (wholeText.run (.ofText text)).result = some (form, last))
    (hapart : rewriting.loosens → form.ListsApart)
    (hrelates : rewriting.relates (text.dropWhile (· == ' ')) (text'.dropWhile (· == ' '))) :
    ∃ form' last', (wholeText.run (.ofText text')).result = some (form', last') ∧
      form'.first.seenWhen sight = form.first.seenWhen sight ∧
        form'.rest.map (seenPart sight) = form.rest.map (seenPart sight) := by
  obtain ⟨start, afterFirst, afterOthers, mark, hstart, hfirst, hothers, hstop⟩ :=
    wholeText_eq_some.1 hresult
  have hrest : start.rest = text.dropWhile (· == ' ') := rest_of_spaces hstart
  obtain ⟨_, offset, hspaces, -⟩ := (reads_spaces text').exists_result 0
  have hrule := h.tolerant_rule _ _ hrelates start.offset offset
  rw [← hrest] at hrule
  change Alike _ _ _ (rule.run start).result _ at hrule
  rw [hfirst] at hrule
  generalize hresult' : (rule.run ⟨text'.dropWhile (· == ' '), offset⟩).result = result at hrule
  cases hrule with
  | @read _ first' rest rest' stop stop' hrest hview =>
    obtain ⟨others', last', r, hothers', hr, hseen⟩ :=
      h.exists_result_otherRules hothers hstop (fun hloosens => (hapart hloosens).tail) hrest stop'
    exact ⟨⟨first', others'⟩, r.2, wholeText_eq_some.2
      ⟨_, _, last', r.1, hspaces, hresult', hothers', hr⟩, hview, hseen⟩
  | stopped hloosens hloose hends =>
    obtain ⟨next, later, heq⟩ := adding_of_loose hloose hothers hstop
    have hapart := hapart hloosens
    rw [ExpressionForm.ListsApart, heq] at hapart
    exact absurd ⟨hends, rfl⟩ (List.isChain_cons_cons.1 hapart).1

/-- If lists that are loosened stand apart, a rewritten text is read as rules that look the same. -/
theorem exists_readRules {text text' : List Char} {rules : List Rule}
    (hrules : Expression.readRules text = .ok rules)
    (hapart : rewriting.loosens → ∀ form, parse text = .ok form → form.ListsApart)
    (hrelates : rewriting.relates (text.dropWhile (· == ' ')) (text'.dropWhile (· == ' '))) :
    ∃ rules', Expression.readRules text' = .ok rules' ∧
      rules'.map sight.rule = rules.map sight.rule := by
  obtain ⟨form, last, hresult, hrules⟩ := Expression.readRules_eq_ok.1 hrules
  have hform : parse text = .ok form := by rw [parse, hresult]
  obtain ⟨form', last', hresult', hfirst', hrest'⟩ :=
    h.exists_result_wholeText hresult (fun hloosens => hapart hloosens form hform) hrelates
  obtain ⟨first, rest, hfirst, hrest, rfl⟩ := ExpressionForm.interpret_eq_ok.1 hrules
  have hmany : ∀ {parts : List (SeparatorForm × RuleForm)} {rules : List Rule},
      (parts.mapM interpretPart).toOption = some rules ↔ parts.mapM interpretPart = .ok rules :=
    fun {_ _} => meaning?_eq_some
  have hseenFirst : (form'.first.interpret false).toOption.map sight.rule =
      some (sight.rule first) :=
    (congrFun hfirst' false).trans (congrArg (Option.map _) (meaning?_eq_some.2 hfirst))
  have hseenRest : (form'.rest.mapM interpretPart).toOption.map (List.map sight.rule) =
      some (rest.map sight.rule) :=
    (seen_mapM_congr hrest').trans (congrArg (Option.map _) (hmany.2 hrest))
  obtain ⟨first', hsome, hfirst⟩ := Option.map_eq_some_iff.1 hseenFirst
  obtain ⟨later', hsome', hlater⟩ := Option.map_eq_some_iff.1 hseenRest
  refine ⟨first' :: later', Expression.readRules_eq_ok.2 ⟨form', last', hresult',
    ExpressionForm.interpret_eq_ok.2
      ⟨first', later', meaning?_eq_some.1 hsome, hmany.1 hsome', rfl⟩⟩, ?_⟩
  rw [List.map_cons, List.map_cons, hfirst, hlater]

/-- Where nothing is loosened, no more than that the texts are related is needed. -/
theorem exists_readRules_of_relates {text text' : List Char} {rules : List Rule}
    (hloosens : ¬ rewriting.loosens) (hrules : Expression.readRules text = .ok rules)
    (hrelates : rewriting.relates text text') :
    ∃ rules', Expression.readRules text' = .ok rules' ∧
      rules'.map sight.rule = rules.map sight.rule := by
  obtain ⟨_, offset, hblank, -⟩ := (reads_spaces text).exists_result 0
  obtain ⟨_, rest', stop', hblank', hrest, -⟩ :=
    h.steady_spaces.exists_result hloosens hblank hrelates 0
  obtain rfl : rest' = text'.dropWhile (· == ' ') := rest_of_spaces hblank'
  exact h.exists_readRules hrules (fun hno => absurd hno hloosens) hrest

end Harmless

/-! ### Where nothing is loosened -/

theorem steady_separator {rewriting : Rewriting}
    (h : ∀ mark ∈ [";", "||", ","], (spaced mark).Steady rewriting id) :
    separator.Steady rewriting (meaning? SeparatorForm.interpret) := by
  have hsemicolon := h ";" (by simp)
  have hbars : (named (spaced "||")).Steady rewriting id := Leads.named (h "||" (by simp))
  have hcomma := h "," (by simp)
  exact Leads.named (Leads.choice ((Leads.named hsemicolon).map (fun _ _ _ => rfl)
    fun _ => id) (Leads.choice (hbars.located.map fun _ _ _ => rfl)
      (Leads.choice ((Leads.named hcomma).map (fun _ _ _ => rfl) fun _ => id)
        tolerant_fail)))

/-- A rewriting that loosens nothing is harmless if semicolons stay and a text is over just if the
rewritten text is. -/
theorem HarmlessInRule.harmless {rewriting : Rewriting} {sight : Sight}
    (h : HarmlessInRule rewriting sight) (hloosens : ¬ rewriting.loosens)
    (hsemicolon : rewriting.Passes ';')
    (hnil : ∀ {text}, rewriting.relates [] text → text = []) : Harmless rewriting sight where
  toHarmlessInRule := h
  tolerant_part := by
    have hmark : (token [';']).Steady rewriting id :=
      steady_token (List.forall_mem_singleton.2 hsemicolon)
    have hseparator : separator.Steady rewriting _ := steady_separator fun mark hmem => by
      obtain rfl | rfl | rfl : mark = ";" ∨ mark = "||" ∨ mark = "," := by simpa using hmem
      · exact (h.steady_spaces.andThen hmark).followedBy h.steady_spaces
      · exact h.steady_spaced rfl
      · exact h.steady_comma
    exact (Leads.seq hseparator h.tolerant_rule).mono (fun _ _ => seen_part) fun _ => id
  exists_result_ending := by
    have hmark : (token [';']).Steady rewriting id :=
      steady_token (List.forall_mem_singleton.2 hsemicolon)
    have hend : (named endOfText).Fits [] fun _ => True :=
      (Ends.named (@reads_endOfText (fun _ => True) trivial)).fits
    intro text text' hrelates offset mark last hresult offset'
    rw [ending, result_followedBy] at hresult ⊢
    obtain ⟨⟨mark, between⟩, hblank, hover⟩ := Option.bind_eq_some_iff.1 hresult
    have hsteady : ((optional (spaces.andThen (token [';']))).followedBy spaces).Steady rewriting
        (Option.map id) :=
      (h.steady_spaces.andThen hmark).optional.followedBy h.steady_spaces
    obtain ⟨mark', rest', stop', hblank', hrest, -⟩ :=
      hsteady.exists_result hloosens hblank hrelates offset'
    obtain ⟨⟨_, _⟩, hover, -⟩ := Option.map_eq_some_iff.1 hover
    rw [result_named, result_endOfText] at hover
    split at hover
    · rename_i hempty
      rw [List.isEmpty_iff.1 hempty] at hrest
      obtain rfl := hnil hrest
      obtain ⟨_, last', hover', -⟩ := hend stop'
      exact ⟨_, by rw [hblank', Option.bind_some, hover', Option.map_some]⟩
    · cases hover

end Timetable.Grammar
