import Timetable.Proofs.Failure
import Timetable.Proofs.Grammar.Words
import Timetable.Reading.Basic

/-!
What every list of rules that was read has in common.

Numbers are within their bounds (`InBounds`), weekdays and holidays stand in one of three orders
(`WrittenDays`), a comment has no quote, an open rule has spans, and the first rule overrides
(`inBounds_of_read`). Bounds come from the meaning of the forms, all else from the grammar.
-/

namespace Timetable

/-! ### Bounds -/

/-- The step is at least 1 and fits into two bytes. -/
def YearRange.InBounds (range : YearRange) : Prop := 1 ≤ range.step ∧ range.step ≤ 65535

/-- Both weeks exist in some year, and the step fits into a byte. -/
def WeekRange.InBounds (range : WeekRange) : Prop :=
  (1 ≤ range.first ∧ range.first ≤ 53) ∧ (1 ≤ range.last ∧ range.last ≤ 53) ∧
    1 ≤ range.step ∧ range.step ≤ 255

/-- The day number is one of 1 to 31. -/
def AnnualDay.InBounds : AnnualDay → Prop
  | .fixed _ _ day => 1 ≤ day ∧ day ≤ 31
  | .easter _ => True

/-- Both days are in bounds. -/
def DateRange.InBounds : DateRange → Prop
  | .months _ _ _ => True
  | .days first last => first.InBounds ∧ last.InBounds

/-- A clock time is not past a full hour, and an event is moved by a day at most. -/
def Moment.InBounds (hours : Nat) : Moment → Prop
  | .clock time => time.minutes ≤ hours * 60
  | .solar _ offset => offset.natAbs ≤ 1440

/-- The span begins within the day and ends within the following one. -/
def TimeSpan.InBounds (span : TimeSpan) : Prop :=
  span.beginning.InBounds 24 ∧ span.ending.InBounds 48

/-- Ranges of weekdays as conditions. -/
def weekdayRanges (ranges : List (Weekday × Weekday)) : List WeekdayRange :=
  ranges.map fun range => .days range.1 range.2

/-- The orders in which weekdays and holidays are written. -/
inductive WrittenDays : List WeekdayRange → List Holiday → Prop
  | none : WrittenDays [] []
  | holidaysOnWeekdays {ranges : List (Weekday × Weekday)} {kinds : List Holiday}
      (hranges : ranges ≠ []) (hkinds : kinds ≠ []) : WrittenDays (weekdayRanges ranges) kinds
  | weekdaysThenHolidays {ranges : List (Weekday × Weekday)} (kinds : List Holiday)
      (hranges : ranges ≠ []) : WrittenDays (weekdayRanges ranges ++ kinds.map .holiday) []
  | holidaysThenWeekdays (ranges : List (Weekday × Weekday)) {kinds : List Holiday}
      (hkinds : kinds ≠ []) : WrittenDays (kinds.map .holiday ++ weekdayRanges ranges) []

/-- All conditions are in bounds. -/
structure Selector.InBounds (selector : Selector) : Prop where
  years : ∀ range ∈ selector.years, range.InBounds
  dates : ∀ range ∈ selector.dates, range.InBounds
  weeks : ∀ range ∈ selector.weeks, range.InBounds
  days : WrittenDays selector.weekdays selector.holidays

/-- The rule can be written: all is in bounds, and nothing is left out that its text relies on. -/
structure Rule.InBounds (rule : Rule) : Prop where
  selector : rule.selector.InBounds
  spans : ∀ span ∈ rule.spans, span.InBounds
  spans_ne_nil : rule.kind = .opened → rule.spans ≠ []
  comment : ∀ comment ∈ rule.comment, ∀ c ∈ comment.toList, (c != '"') = true

namespace Grammar

/-! ### Bounds of what forms mean -/

theorem interpretStep_inBounds {digits : Option (List Char)} {greatest step : Nat} {limit : Limit}
    (hpos : 1 ≤ greatest) (h : interpretStep digits greatest limit = .ok step) :
    1 ≤ step ∧ step ≤ greatest := by
  unfold interpretStep at h
  split at h
  · obtain rfl := Except.ok.inj h
    exact ⟨Nat.le_refl 1, hpos⟩
  · dsimp only at h
    split at h
    · cases h
    · split at h
      · rename_i hstep
        obtain rfl := Except.ok.inj h
        exact hstep
      · cases h

theorem interpretWeekNumber_inBounds {digits : List Char} {week : Nat}
    (h : interpretWeekNumber digits = .ok week) : 1 ≤ week ∧ week ≤ 53 := by
  unfold interpretWeekNumber at h
  dsimp only at h
  split at h
  · rename_i hweek
    obtain rfl := Except.ok.inj h
    exact hweek
  · cases h

theorem YearForm.inBounds {form : YearForm} {range : YearRange}
    (h : form.interpret = .ok range) : range.InBounds := by
  unfold YearForm.interpret at h
  dsimp only at h
  split at h
  · obtain rfl := Except.ok.inj h
    exact ⟨Nat.le_refl 1, show 1 ≤ 65535 by decide⟩
  · obtain rfl := Except.ok.inj h
    exact ⟨Nat.le_refl 1, show 1 ≤ 65535 by decide⟩
  · obtain ⟨step, hstep, h⟩ := bind_eq_ok.1 h
    obtain rfl := Except.ok.inj h
    exact interpretStep_inBounds (by decide) hstep

theorem WeekForm.interpret_eq_ok {form : WeekForm} {range : WeekRange} :
    form.interpret = .ok range ↔
      interpretWeekNumber form.first = .ok range.first ∧
        form.last.elim (.ok range.first) interpretWeekNumber = .ok range.last ∧
        interpretStep form.step 255 .weekStep = .ok range.step := by
  obtain ⟨first, last, step⟩ := form
  constructor
  · intro h
    cases last with
    | none =>
      obtain ⟨week, hweek, h⟩ := bind_eq_ok.1 h
      obtain ⟨other, hother, h⟩ := bind_eq_ok.1 h
      obtain ⟨number, hnumber, h⟩ := bind_eq_ok.1 h
      obtain rfl := Except.ok.inj h
      exact ⟨hweek, hother, hnumber⟩
    | some digits =>
      obtain ⟨week, hweek, h⟩ := bind_eq_ok.1 h
      obtain ⟨other, hother, h⟩ := bind_eq_ok.1 h
      obtain ⟨number, hnumber, h⟩ := bind_eq_ok.1 h
      obtain rfl := Except.ok.inj h
      exact ⟨hweek, hother, hnumber⟩
  · rintro ⟨hweek, hother, hnumber⟩
    cases last with
    | none =>
      exact bind_eq_ok.2 ⟨_, hweek, bind_eq_ok.2 ⟨_, hother, bind_eq_ok.2 ⟨_, hnumber, rfl⟩⟩⟩
    | some digits =>
      exact bind_eq_ok.2 ⟨_, hweek, bind_eq_ok.2 ⟨_, hother, bind_eq_ok.2 ⟨_, hnumber, rfl⟩⟩⟩

theorem WeekForm.inBounds {form : WeekForm} {range : WeekRange}
    (h : form.interpret = .ok range) : range.InBounds := by
  obtain ⟨hfirst, hlast, hstep⟩ := WeekForm.interpret_eq_ok.1 h
  refine ⟨interpretWeekNumber_inBounds hfirst, ?_, interpretStep_inBounds (by decide) hstep⟩
  cases hform : form.last with
  | none =>
    rw [hform] at hlast
    exact Except.ok.inj hlast ▸ interpretWeekNumber_inBounds hfirst
  | some digits =>
    rw [hform] at hlast
    exact interpretWeekNumber_inBounds hlast

theorem interpretDayNumber_inBounds (digits : List Char) :
    1 ≤ interpretDayNumber digits ∧ interpretDayNumber digits ≤ 31 := by
  unfold interpretDayNumber
  omega

theorem DayForm.inBounds (form : DayForm) : form.interpret.InBounds := by
  cases form with
  | fixed year month day => exact interpretDayNumber_inBounds day
  | easter year => trivial

theorem LastDayForm.inBounds {form : LastDayForm} {first day : AnnualDay}
    (h : form.interpret first = .ok day) : day.InBounds := by
  unfold LastDayForm.interpret at h
  split at h
  · obtain rfl := Except.ok.inj h
    exact DayForm.inBounds _
  · split at h
    · cases h
    · dsimp only at h
      split at h <;> obtain rfl := Except.ok.inj h <;> exact interpretDayNumber_inBounds _

theorem DateForm.inBounds {form : DateForm} {range : DateRange}
    (h : form.interpret = .ok range) : range.InBounds := by
  unfold DateForm.interpret at h
  split at h
  · rename_i first offset ending
    obtain ⟨-, -, h⟩ := bind_eq_ok.1 h
    split at h
    · obtain rfl := Except.ok.inj h
      exact ⟨first.inBounds, first.inBounds⟩
    · obtain rfl := Except.ok.inj h
      exact ⟨first.inBounds, by decide, by decide⟩
    · obtain ⟨last, hlast, h⟩ := bind_eq_ok.1 h
      obtain ⟨-, -, h⟩ := bind_eq_ok.1 h
      obtain rfl := Except.ok.inj h
      exact ⟨first.inBounds, LastDayForm.inBounds hlast⟩
  · obtain rfl := Except.ok.inj h
    trivial

theorem ClockForm.interpret_le {form : ClockForm} {hours : Nat} {time : ClockTime}
    (h : form.interpret hours = .ok time) : time.minutes ≤ hours * 60 := by
  unfold ClockForm.interpret at h
  dsimp only at h
  split at h
  · split at h
    · obtain rfl := Except.ok.inj h
      assumption
    · cases h
  · cases h

theorem MomentForm.inBounds {form : MomentForm} {hours : Nat} {moment : Moment}
    (h : form.interpret hours = .ok moment) : moment.InBounds hours := by
  unfold MomentForm.interpret at h
  split at h
  · obtain ⟨time, htime, h⟩ := bind_eq_ok.1 h
    obtain rfl := Except.ok.inj h
    exact ClockForm.interpret_le htime
  · obtain rfl := Except.ok.inj h
    exact Nat.zero_le _
  · obtain ⟨time, htime, h⟩ := bind_eq_ok.1 h
    obtain rfl := Except.ok.inj h
    have hle := ClockForm.interpret_le htime
    simp only [Moment.InBounds]
    split <;> omega

theorem SpanForm.inBounds {form : SpanForm} {span : TimeSpan}
    (h : form.interpret = .ok span) : span.InBounds := by
  unfold SpanForm.interpret at h
  obtain ⟨beginning, hbeginning, h⟩ := bind_eq_ok.1 h
  split at h
  · cases h
  · cases h
  · obtain ⟨ending, hending, h⟩ := bind_eq_ok.1 h
    split at h
    · cases h
    · obtain rfl := Except.ok.inj h
      exact ⟨MomentForm.inBounds hbeginning, MomentForm.inBounds hending⟩

/-! ### Days -/

theorem weekdayRanges_of_mapM {forms : List WeekdayForm} {ranges : List WeekdayRange}
    (h : forms.mapM WeekdayForm.interpret = .ok ranges) :
    ∃ pairs, ranges = weekdayRanges pairs ∧ pairs.length = forms.length := by
  induction forms generalizing ranges with
  | nil => exact ⟨[], mapM_nil_eq_ok.1 h, rfl⟩
  | cons form forms ih =>
    obtain ⟨range, ranges, hrange, hranges, rfl⟩ := mapM_cons_eq_ok.1 h
    obtain ⟨pairs, rfl, hlength⟩ := ih hranges
    obtain ⟨-, -, hrange⟩ := bind_eq_ok.1 hrange
    obtain ⟨-, -, hrange⟩ := bind_eq_ok.1 hrange
    obtain rfl := Except.ok.inj hrange
    exact ⟨(form.first, form.last.getD form.first) :: pairs, rfl, congrArg (· + 1) hlength⟩

/-- What the grammar demands of the days: the list that is written first is not empty, nor are
two lists that are demanded together. -/
def DaysForm.Filled : DaysForm → Prop
  | .holidaysOnWeekdays holidays weekdays => holidays ≠ [] ∧ weekdays ≠ []
  | .weekdaysThenHolidays weekdays _ => weekdays ≠ []
  | .holidaysThenWeekdays holidays _ => holidays ≠ []

theorem ne_nil_of_length_eq {α β : Type} {as : List α} {bs : List β}
    (h : as.length = bs.length) (hne : bs ≠ []) : as ≠ [] := by
  rintro rfl
  exact hne (List.eq_nil_of_length_eq_zero h.symm)

theorem DaysForm.writtenDays {form : DaysForm} {weekdays : List WeekdayRange}
    {holidays : List Holiday} (hfilled : form.Filled)
    (h : form.interpret = .ok (weekdays, holidays)) : WrittenDays weekdays holidays := by
  cases form with
  | holidaysOnWeekdays holidayForms weekdayForms =>
    obtain ⟨kinds, hkinds, h⟩ := bind_eq_ok.1 h
    obtain ⟨ranges, hranges, h⟩ := bind_eq_ok.1 h
    obtain ⟨pairs, rfl, hlength⟩ := weekdayRanges_of_mapM hranges
    obtain ⟨rfl, rfl⟩ := Prod.mk.inj (Except.ok.inj h)
    exact .holidaysOnWeekdays (ne_nil_of_length_eq hlength hfilled.2)
      (ne_nil_of_length_eq (length_of_mapM_eq_ok hkinds) hfilled.1)
  | weekdaysThenHolidays weekdayForms holidayForms =>
    obtain ⟨ranges, hranges, h⟩ := bind_eq_ok.1 h
    obtain ⟨kinds, hkinds, h⟩ := bind_eq_ok.1 h
    obtain ⟨pairs, rfl, hlength⟩ := weekdayRanges_of_mapM hranges
    obtain ⟨rfl, rfl⟩ := Prod.mk.inj (Except.ok.inj h)
    exact .weekdaysThenHolidays kinds (ne_nil_of_length_eq hlength hfilled)
  | holidaysThenWeekdays holidayForms weekdayForms =>
    obtain ⟨kinds, hkinds, h⟩ := bind_eq_ok.1 h
    obtain ⟨ranges, hranges, h⟩ := bind_eq_ok.1 h
    obtain ⟨pairs, rfl, -⟩ := weekdayRanges_of_mapM hranges
    obtain ⟨rfl, rfl⟩ := Prod.mk.inj (Except.ok.inj h)
    exact .holidaysThenWeekdays pairs
      (ne_nil_of_length_eq (length_of_mapM_eq_ok hkinds) hfilled)

/-! ### What a success says of a rule -/

theorem WideForm.interpret_eq_ok {form : WideForm} {selector : Selector} :
    form.interpret = .ok selector ↔
      form.years.mapM YearForm.interpret = .ok selector.years ∧
        form.dates.mapM DateForm.interpret = .ok selector.dates ∧
        form.weeks.mapM WeekForm.interpret = .ok selector.weeks ∧
        selector.weekdays = [] ∧ selector.holidays = [] := by
  constructor
  · intro h
    obtain ⟨years, hyears, h⟩ := bind_eq_ok.1 h
    obtain ⟨dates, hdates, h⟩ := bind_eq_ok.1 h
    obtain ⟨weeks, hweeks, h⟩ := bind_eq_ok.1 h
    obtain rfl := Except.ok.inj h
    exact ⟨hyears, hdates, hweeks, rfl, rfl⟩
  · obtain ⟨years, dates, weeks, weekdays, holidays⟩ := selector
    rintro ⟨hyears, hdates, hweeks, hweekdays, hholidays⟩
    dsimp only at hweekdays hholidays
    subst hweekdays hholidays
    exact bind_eq_ok.2 ⟨_, hyears, bind_eq_ok.2 ⟨_, hdates, bind_eq_ok.2 ⟨_, hweeks, rfl⟩⟩⟩

section Times

variable {wide : Option WideForm} {small : Option SmallForm}

theorem days_eq_nil_of_wide {conditions : Selector}
    (h : wide.elim (.ok {}) WideForm.interpret = .ok conditions) :
    conditions.weekdays = [] ∧ conditions.holidays = [] := by
  cases wide with
  | none => exact Except.ok.inj h ▸ ⟨rfl, rfl⟩
  | some form =>
    obtain ⟨-, -, -, hweekdays, hholidays⟩ := WideForm.interpret_eq_ok.1 h
    exact ⟨hweekdays, hholidays⟩

theorem TimesForm.interpret_times (wide : Option WideForm) (small : Option SmallForm) :
    (TimesForm.times wide small).interpret =
      wide.elim (.ok {}) WideForm.interpret >>= fun conditions =>
        (small.bind SmallForm.days).elim (.ok ([], [])) DaysForm.interpret >>= fun days =>
          (small.elim [] SmallForm.spans).mapM SpanForm.interpret >>= fun spans =>
            .ok (small.elim conditions fun _ =>
              { conditions with weekdays := days.1, holidays := days.2 }, spans) := by
  cases wide with
  | none =>
    cases small with
    | none => rfl
    | some form => obtain ⟨_ | _, _⟩ := form <;> rfl
  | some conditions =>
    cases small with
    | none => rfl
    | some form => obtain ⟨_ | _, _⟩ := form <;> rfl

theorem TimesForm.interpret_times_eq_ok {selector : Selector} {spans : List TimeSpan} :
    (TimesForm.times wide small).interpret = .ok (selector, spans) ↔
      wide.elim (.ok {}) WideForm.interpret =
          .ok { selector with weekdays := [], holidays := [] } ∧
        (small.bind SmallForm.days).elim (.ok ([], [])) DaysForm.interpret =
          .ok (selector.weekdays, selector.holidays) ∧
        (small.elim [] SmallForm.spans).mapM SpanForm.interpret = .ok spans := by
  rw [interpret_times]
  constructor
  · intro h
    obtain ⟨conditions, hconditions, h⟩ := bind_eq_ok.1 h
    obtain ⟨days, hdays, h⟩ := bind_eq_ok.1 h
    obtain ⟨spans', hspans, h⟩ := bind_eq_ok.1 h
    obtain ⟨rfl, rfl⟩ := Prod.mk.inj (Except.ok.inj h)
    obtain ⟨hweekdays, hholidays⟩ := days_eq_nil_of_wide hconditions
    have hsame : { conditions with weekdays := [], holidays := [] } = conditions := by
      rw [← hweekdays, ← hholidays]
    cases small with
    | none =>
      refine ⟨hconditions.trans (congrArg Except.ok hsame.symm), ?_, hspans⟩
      exact congrArg Except.ok (Prod.ext hweekdays.symm hholidays.symm)
    | some form => exact ⟨hconditions.trans (congrArg Except.ok hsame.symm), hdays, hspans⟩
  · rintro ⟨hconditions, hdays, hspans⟩
    refine bind_eq_ok.2 ⟨_, hconditions, bind_eq_ok.2 ⟨_, hdays, bind_eq_ok.2 ⟨_, hspans, ?_⟩⟩⟩
    cases small with
    | none =>
      obtain ⟨hweekdays, hholidays⟩ := Prod.mk.inj (Except.ok.inj hdays)
      rw [Option.elim, hweekdays, hholidays]
    | some form => rfl

end Times

/-- The comment of a rule. -/
def RuleForm.comment? (form : RuleForm) : Option String :=
  form.modifier.bind fun modifier => modifier.comment.map String.ofList

/-- The kind of a rule with spans. -/
def RuleForm.kindOver (form : RuleForm) (spans : List TimeSpan) : RuleKind :=
  match form.modifier.bind ModifierForm.kind with
  | some kind => kind
  | none => if form.comment?.isSome && spans.isEmpty then .unknown else .opened

/-- The rule with a selector and spans, as its modifier has it. -/
def RuleForm.assemble (form : RuleForm) (additional : Bool)
    (times : Selector × List TimeSpan) : Rule :=
  { selector := times.1
    spans := if form.kindOver times.2 = .opened && times.2.isEmpty then [.wholeDay] else times.2
    kind := form.kindOver times.2
    comment := form.comment?
    additional }

theorem RuleForm.interpret_eq (form : RuleForm) (additional : Bool) :
    form.interpret additional =
      form.times.elim (.ok ({}, [])) TimesForm.interpret >>= fun times =>
        .ok (form.assemble additional times) := by
  obtain ⟨_ | _, _⟩ := form <;> rfl

theorem RuleForm.interpret_eq_ok {form : RuleForm} {additional : Bool} {rule : Rule} :
    form.interpret additional = .ok rule ↔
      ∃ times, form.times.elim (.ok ({}, [])) TimesForm.interpret = .ok times ∧
        rule = form.assemble additional times := by
  rw [interpret_eq, bind_eq_ok]
  exact ⟨fun ⟨times, h, heq⟩ => ⟨times, h, (Except.ok.inj heq).symm⟩,
    fun ⟨times, h, heq⟩ => ⟨times, h, congrArg Except.ok heq.symm⟩⟩

theorem inBounds_wholeDay : ∀ span ∈ [TimeSpan.wholeDay], span.InBounds := by
  intro span hspan
  rw [List.mem_singleton.1 hspan]
  exact ⟨show 0 ≤ 24 * 60 by decide, show 1440 ≤ 48 * 60 by decide⟩

theorem RuleForm.assemble_inBounds {form : RuleForm} {additional : Bool} {selector : Selector}
    {spans : List TimeSpan} (hselector : selector.InBounds) (hspans : ∀ span ∈ spans, span.InBounds)
    (hcomment : ∀ modifier ∈ form.modifier, ∀ comment ∈ modifier.comment,
      ∀ c ∈ comment, (c != '"') = true) :
    (form.assemble additional (selector, spans)).InBounds where
  selector := hselector
  spans := by
    unfold RuleForm.assemble
    dsimp only
    split
    · exact inBounds_wholeDay
    · exact hspans
  spans_ne_nil := by
    unfold RuleForm.assemble
    dsimp only
    intro hkind
    rw [hkind]
    cases spans with
    | nil => exact List.cons_ne_nil _ _
    | cons span spans => exact List.cons_ne_nil _ _
  comment := by
    intro comment hmem
    obtain ⟨modifier, hmodifier, hmem⟩ := Option.bind_eq_some_iff.1 hmem
    obtain ⟨written, hwritten, rfl⟩ := Option.map_eq_some_iff.1 hmem
    rw [String.toList_ofList]
    exact hcomment modifier hmodifier written hwritten

/-! ### What the grammar says of a rule -/

/-- The days of a rule, if any are written. -/
def RuleForm.days? (form : RuleForm) : Option DaysForm :=
  match form.times with
  | some (.times _ small) => small.bind SmallForm.days
  | _ => none

/-- What the grammar demands of a rule. -/
def RuleForm.Written (form : RuleForm) : Prop :=
  (∀ days ∈ form.days?, days.Filled) ∧
    ∀ modifier ∈ form.modifier, ∀ comment ∈ modifier.comment, ∀ c ∈ comment, (c != '"') = true

/-- Days that are not written are none. -/
theorem writtenDays_of_interpret {days? : Option DaysForm} {weekdays : List WeekdayRange}
    {holidays : List Holiday} (hfilled : ∀ days ∈ days?, days.Filled)
    (h : days?.elim (.ok ([], [])) DaysForm.interpret = .ok (weekdays, holidays)) :
    WrittenDays weekdays holidays := by
  cases days? with
  | none =>
    obtain ⟨rfl, rfl⟩ := Prod.mk.inj (Except.ok.inj h)
    exact .none
  | some days => exact DaysForm.writtenDays (hfilled days rfl) h

theorem Selector.inBounds_empty : ({} : Selector).InBounds :=
  ⟨List.forall_mem_nil _, List.forall_mem_nil _, List.forall_mem_nil _, .none⟩

theorem selector_inBounds {wide : Option WideForm} {selector : Selector}
    (hwide : wide.elim (.ok {}) WideForm.interpret =
      .ok { selector with weekdays := [], holidays := [] })
    (hdays : WrittenDays selector.weekdays selector.holidays) : selector.InBounds := by
  cases wide with
  | none =>
    have heq := Except.ok.inj hwide
    have hyears : [] = selector.years := congrArg Selector.years heq
    have hdates : [] = selector.dates := congrArg Selector.dates heq
    have hweeks : [] = selector.weeks := congrArg Selector.weeks heq
    exact ⟨hyears ▸ List.forall_mem_nil _, hdates ▸ List.forall_mem_nil _,
      hweeks ▸ List.forall_mem_nil _, hdays⟩
  | some wide =>
    obtain ⟨hyears, hdates, hweeks, -, -⟩ := WideForm.interpret_eq_ok.1 hwide
    exact ⟨forall_mem_of_mapM_eq_ok hyears fun _ _ _ => YearForm.inBounds,
      forall_mem_of_mapM_eq_ok hdates fun _ _ _ => DateForm.inBounds,
      forall_mem_of_mapM_eq_ok hweeks fun _ _ _ => WeekForm.inBounds, hdays⟩

theorem RuleForm.inBounds {form : RuleForm} {additional : Bool} {rule : Rule}
    (hwritten : form.Written) (h : form.interpret additional = .ok rule) :
    rule.InBounds ∧ rule.additional = additional := by
  obtain ⟨⟨selector, spans⟩, htimes, rfl⟩ := RuleForm.interpret_eq_ok.1 h
  refine ⟨?_, rfl⟩
  obtain ⟨hdays, hcomment⟩ := hwritten
  obtain ⟨times, modifier⟩ := form
  match times, hdays, htimes with
  | none, _, htimes =>
    obtain ⟨rfl, rfl⟩ := Prod.mk.inj (Except.ok.inj htimes)
    exact assemble_inBounds Selector.inBounds_empty (List.forall_mem_nil _) hcomment
  | some .always, _, htimes =>
    obtain ⟨rfl, rfl⟩ := Prod.mk.inj (Except.ok.inj htimes)
    exact assemble_inBounds Selector.inBounds_empty inBounds_wholeDay hcomment
  | some (.times wide small), hdays, htimes =>
    obtain ⟨hwide, hsmall, hspans⟩ := TimesForm.interpret_times_eq_ok.1 htimes
    exact assemble_inBounds (selector_inBounds hwide (writtenDays_of_interpret hdays hsmall))
      (forall_mem_of_mapM_eq_ok hspans fun _ _ _ => SpanForm.inBounds) hcomment

open Peg

variable {source : List Char}

theorem yields_days : days.Yields source DaysForm.Filled := by
  have hholidays : ∀ source, holidays.Yields source (· ≠ []) := fun _ =>
    Yields.named yields_separatedBy_ne_nil
  have hweekdays : ∀ source, weekdays.Yields source (· ≠ []) := fun _ =>
    Yields.named yields_separatedBy_ne_nil
  apply Yields.named
  refine Yields.choice ?_ (Yields.choice ?_ (Yields.choice ?_ refuses_fail.yields))
  · exact Yields.named (Yields.map (Yields.seq (hholidays source).followedBy hweekdays)
      fun _ => id)
  · exact Yields.map (hweekdays source).seq_left fun _ => id
  · exact Yields.map (hholidays source).seq_left fun _ => id

theorem yields_small : small.Yields source fun form => ∀ days ∈ form.days, days.Filled := by
  apply Yields.named
  refine Yields.choice ?_ ?_
  · refine Yields.map yields_days.seq_left ?_
    rintro _ hdays _ ⟨⟩
    exact hdays
  · exact Yields.map yields_true fun _ _ => nofun

theorem yields_times : times.Yields source fun form =>
    ∀ wide small, form = .times wide small → ∀ days ∈ small.bind SmallForm.days, days.Filled := by
  have hoption : ∀ {small : Option SmallForm},
      (∀ form ∈ small, ∀ days ∈ form.days, days.Filled) →
        ∀ days ∈ small.bind SmallForm.days, days.Filled := by
    intro small h days hdays
    obtain ⟨form, hform, hdays⟩ := Option.bind_eq_some_iff.1 hdays
    exact h form hform days hdays
  apply Yields.named
  refine Yields.choice ?_ (Yields.choice ?_ (Yields.choice ?_ refuses_fail.yields))
  · exact Yields.named (Yields.map yields_true fun _ _ _ _ => nofun)
  · refine Yields.map (Yields.seq yields_true fun _ =>
      Yields.optional (Yields.andThen fun _ => yields_small)) ?_
    rintro _ ⟨-, hsmall⟩ _ _ ⟨⟩
    exact hoption hsmall
  · refine Yields.map yields_small ?_
    rintro _ hdays _ _ ⟨⟩
    exact hoption (by rintro _ ⟨⟩; exact hdays)

theorem yields_comment : comment.Yields source fun text => ∀ c ∈ text, (c != '"') = true :=
  Yields.named (Yields.andThen fun _ => Yields.followedBy
    (Yields.mono (Yields.named yields_chars) fun _ => And.left))

theorem yields_modifier : modifier.Yields source fun form =>
    ∀ comment ∈ form.comment, ∀ c ∈ comment, (c != '"') = true := by
  apply Yields.named
  refine Yields.choice ?_ ?_
  · exact Yields.map (Yields.seq yields_true fun _ =>
      Yields.optional (Yields.andThen fun _ => yields_comment)) fun _ h => h.2
  · refine Yields.map yields_comment ?_
    rintro _ h _ ⟨⟩
    exact h

theorem yields_rule : rule.Yields source RuleForm.Written := by
  apply Yields.named
  refine Yields.choice ?_ ?_
  · refine Yields.map (Yields.seq yields_times fun _ =>
      Yields.optional (Yields.andThen fun _ => yields_modifier)) ?_
    rintro ⟨form, modifier⟩ ⟨htimes, hmodifier⟩
    refine ⟨?_, hmodifier⟩
    intro days hdays
    cases form with
    | always => cases hdays
    | times wide small => exact htimes wide small rfl days hdays
  · refine Yields.map yields_modifier ?_
    intro form hform
    refine ⟨nofun, ?_⟩
    rintro _ ⟨⟩
    exact hform

theorem consumes_separator : separator.Consumes := by
  have hmark : ∀ mark ∈ [";", "||", ","], mark.toList ≠ [] := by decide
  exact Consumes.named (Consumes.choice (consumes_spaced (hmark ";" (by simp))).named.map
    (Consumes.choice (consumes_spaced (hmark "||" (by simp))).named.located.map
      (Consumes.choice (consumes_spaced (hmark "," (by simp))).named.map consumes_fail)))

theorem yields_wholeText : wholeText.Yields source fun form =>
    form.first.Written ∧ ∀ part ∈ form.rest, part.2.Written := by
  refine Yields.followedBy (Yields.followedBy (Yields.andThen fun _ => Yields.named
    (Yields.followedBy (Yields.map (Yields.seq yields_rule fun _ => Yields.many
      consumes_separator.seq_left fun _ => Yields.seq yields_true fun _ => yields_rule) ?_))))
  rintro _ ⟨hfirst, hrest⟩
  exact ⟨hfirst, fun part hpart => (hrest part hpart).2⟩

end Grammar

/-! ### What was read -/

open Grammar

/-- The rules that a text can be read as. -/
structure RulesInBounds (rules : List Rule) : Prop where
  rule : ∀ rule ∈ rules, rule.InBounds
  first : ∃ first rest, rules = first :: rest ∧ first.additional = false

/-- The rule behind a separator. -/
def Grammar.interpretPart (part : SeparatorForm × RuleForm) : Except ReadError Rule := do
  let additional ← part.1.interpret
  part.2.interpret additional

theorem ExpressionForm.interpret_eq_ok {form : ExpressionForm} {rules : List Rule} :
    form.interpret = .ok rules ↔
      ∃ first rest, form.first.interpret false = .ok first ∧
        form.rest.mapM interpretPart = .ok rest ∧ rules = first :: rest := by
  constructor
  · intro h
    obtain ⟨first, hfirst, h⟩ := bind_eq_ok.1 h
    obtain ⟨rest, hrest, h⟩ := bind_eq_ok.1 h
    exact ⟨first, rest, hfirst, hrest, (Except.ok.inj h).symm⟩
  · rintro ⟨first, rest, hfirst, hrest, rfl⟩
    exact bind_eq_ok.2 ⟨first, hfirst, bind_eq_ok.2 ⟨rest, hrest, rfl⟩⟩

theorem rulesInBounds_of_interpret {form : ExpressionForm} {rules : List Rule}
    (hfirst : form.first.Written) (hrest : ∀ part ∈ form.rest, part.2.Written)
    (h : form.interpret = .ok rules) : RulesInBounds rules := by
  obtain ⟨first, rest, hfirst', hrest', rfl⟩ := ExpressionForm.interpret_eq_ok.1 h
  obtain ⟨hbounds, hadditional⟩ := RuleForm.inBounds hfirst hfirst'
  refine ⟨List.forall_mem_cons.2 ⟨hbounds, forall_mem_of_mapM_eq_ok hrest' ?_⟩, first, rest, rfl,
    hadditional⟩
  intro part hpart rule hrule
  obtain ⟨additional, -, hrule⟩ := bind_eq_ok.1 hrule
  exact (RuleForm.inBounds (hrest part hpart) hrule).1

theorem Expression.readRules_eq_ok {text : List Char} {rules : List Rule} :
    readRules text = .ok rules ↔
      ∃ form cursor, (wholeText.run (Cursor.ofText text)).result = some (form, cursor) ∧
        form.interpret = .ok rules := by
  unfold readRules Grammar.parse
  dsimp only
  cases (wholeText.run (Cursor.ofText text)).result with
  | none =>
    dsimp only
    constructor
    · intro h
      split at h <;> cases h
    · rintro ⟨_, _, h, _⟩
      cases h
  | some r =>
    obtain ⟨form, cursor⟩ := r
    constructor
    · intro h
      exact ⟨form, cursor, rfl, h⟩
    · rintro ⟨_, _, heq, h⟩
      obtain ⟨rfl, -⟩ := Prod.mk.inj (Option.some.inj heq)
      exact h

theorem Expression.read_eq_ok {text : String} {expression : Expression} :
    read text = .ok expression ↔
      readRules text.toList = .ok expression.rules ∧ expression.loneComment? = none ∧
        expression.given = text ∧ expression.source = text := by
  obtain ⟨given, source, rules⟩ := expression
  constructor
  · intro h
    obtain ⟨rules, hrules, h⟩ := bind_eq_ok.1 h
    dsimp only at h
    split at h
    · cases h
    · rename_i hcomment
      obtain ⟨rfl, rfl, rfl⟩ := Expression.mk.inj (Except.ok.inj h)
      exact ⟨hrules, hcomment, rfl, rfl⟩
  · rintro ⟨hrules, hcomment, hgiven, hsource⟩
    dsimp only at hgiven hsource
    subst hgiven hsource
    refine bind_eq_ok.2 ⟨rules, hrules, ?_⟩
    dsimp only
    rw [hcomment]
    rfl

/-- Whatever is read is in bounds. -/
theorem inBounds_of_read {text : String} {expression : Expression}
    (h : Expression.read text = .ok expression) : RulesInBounds expression.rules := by
  obtain ⟨form, cursor, hform, hrules⟩ :=
    Expression.readRules_eq_ok.1 (Expression.read_eq_ok.1 h).1
  obtain ⟨hfirst, hrest⟩ := yields_wholeText 0 form cursor hform
  exact rulesInBounds_of_interpret hfirst hrest hrules

end Timetable
