import Timetable.Proofs.Reading.Clauses

/-!
Which texts are read.

`Supported` says of each written form, without giving it a meaning, that no part of it is one that
cannot be evaluated and that its numbers are in bounds. A form has a meaning just if it is supported
(`interpret_succeeds_iff` for each of them): each part is looked at, wherever it stands.
`Expression.exists_read_iff` puts this together with the grammar: a text is read if the grammar
fits, the form is supported, and the rules are more than one lone comment.
-/

namespace Timetable

namespace Grammar

/-! ### Supported forms -/

/-- A clock time with at most 59 minutes, up to a full hour. -/
def ClockForm.Within (hours : Nat) (form : ClockForm) : Prop :=
  Decimal.value form.minute ≤ 59 ∧
    Decimal.value form.hour * 60 + Decimal.value form.minute ≤ hours * 60

/-- A clock time up to a full hour, an event, or an event that is moved by a day at most. -/
def MomentForm.Supported (hours : Nat) : MomentForm → Prop
  | .clock time => time.Within hours
  | .event _ => True
  | .shifted _ _ amount => amount.Within 24

/-- An end is written, without a plus sign after it. -/
def SpanEndForm.Supported : SpanEndForm → Prop
  | .upTo moment opened => moment.Supported 48 ∧ opened = false
  | _ => False

/-- The span begins within the day and ends within the following one, and its end is not open. -/
def SpanForm.Supported (form : SpanForm) : Prop :=
  form.beginning.Supported 24 ∧ form.ending.Supported

/-- The weekdays are neither numbered nor moved. -/
def WeekdayForm.Supported (form : WeekdayForm) : Prop :=
  form.occurrences = none ∧ form.offset = none

/-- The holidays are not moved. -/
def HolidayForm.Supported (form : HolidayForm) : Prop := form.offset = none

/-- All weekdays and all holidays are supported. -/
def DaysForm.Supported : DaysForm → Prop
  | .holidaysOnWeekdays holidays weekdays
  | .weekdaysThenHolidays weekdays holidays
  | .holidaysThenWeekdays holidays weekdays =>
    (∀ form ∈ holidays, form.Supported) ∧ ∀ form ∈ weekdays, form.Supported

/-- A step, if one is written, is at least 1 and not too large. -/
def SupportedStep (greatest : Nat) (digits : Option (List Char)) : Prop :=
  ∀ written ∈ digits, 1 ≤ Decimal.value written ∧ Decimal.value written ≤ greatest

/-- The weeks are some of 1 to 53, and the step is at most 255. -/
def WeekForm.Supported (form : WeekForm) : Prop :=
  (1 ≤ Decimal.value form.first ∧ Decimal.value form.first ≤ 53) ∧
    (∀ last ∈ form.last, 1 ≤ Decimal.value last ∧ Decimal.value last ≤ 53) ∧
    SupportedStep 255 form.step

/-- The step is at most 65535. -/
def YearForm.Supported (form : YearForm) : Prop :=
  match form.ending with
  | .upTo _ step => SupportedStep 65535 step
  | _ => True

/-- No lone day number stands after a range that begins at easter. -/
def LastDayForm.Supported (first : DayForm) : LastDayForm → Prop
  | .day _ => True
  | .number _ => ∀ year, first ≠ .easter year

/-- The range ends at a supported day that is not moved, if an end is written. -/
def DayEndForm.Supported (first : DayForm) : DayEndForm → Prop
  | .upTo last offset => last.Supported first ∧ offset = none
  | _ => True

/-- Neither end of the range is moved. -/
def DateForm.Supported : DateForm → Prop
  | .days first offset ending => offset = none ∧ ending.Supported first
  | .months _ _ _ => True

/-- All years, dates and weeks are supported. -/
def WideForm.Supported (form : WideForm) : Prop :=
  (∀ years ∈ form.years, years.Supported) ∧ (∀ dates ∈ form.dates, dates.Supported) ∧
    ∀ weeks ∈ form.weeks, weeks.Supported

/-- The days and all spans are supported. -/
def SmallForm.Supported (form : SmallForm) : Prop :=
  (∀ days ∈ form.days, days.Supported) ∧ ∀ span ∈ form.spans, span.Supported

/-- The conditions and the spans are supported. -/
def TimesForm.Supported : TimesForm → Prop
  | .always => True
  | .times wide small =>
    (∀ form ∈ wide, form.Supported) ∧ ∀ form ∈ small, form.Supported

/-- The times of the rule are supported; any modifier is. -/
def RuleForm.Supported (form : RuleForm) : Prop := ∀ times ∈ form.times, times.Supported

/-- The separator is not that of a rule for unknown states. -/
def SeparatorForm.Supported : SeparatorForm → Prop
  | .fallback _ => False
  | _ => True

/-- All rules and all separators are supported. -/
def ExpressionForm.Supported (form : ExpressionForm) : Prop :=
  form.first.Supported ∧ ∀ part ∈ form.rest, part.1.Supported ∧ part.2.Supported

/-! ### Forms that have a meaning -/

theorem not_succeeds_refuse {α : Type} (fragment : Fragment) (feature : Unsupported) :
    ¬ Succeeds (fragment.refuse feature : Except ReadError α) := not_succeeds_error _

theorem refuseIfPresent_succeeds_iff (feature : Unsupported) (fragment : Option Fragment) :
    Succeeds (refuseIfPresent feature fragment) ↔ fragment = none := by
  cases fragment with
  | none => exact iff_of_true ⟨(), rfl⟩ rfl
  | some fragment => exact iff_of_false (not_succeeds_refuse fragment feature) nofun

theorem ClockForm.interpret_succeeds_iff (form : ClockForm) {hours : Nat} (hhours : hours ≤ 48) :
    Succeeds (form.interpret hours) ↔ form.Within hours := by
  unfold ClockForm.interpret ClockForm.Within ClockTime.ofHourMinute? ClockTime.ofMinutes?
  dsimp only
  by_cases hminute : Decimal.value form.minute ≤ 59
  · by_cases htotal : Decimal.value form.hour * 60 + Decimal.value form.minute ≤ hours * 60
    · have hlimit : Decimal.value form.hour * 60 + Decimal.value form.minute ≤ 2880 := by omega
      simp [hminute, htotal, hlimit, succeeds_ok]
    · refine iff_of_false ?_ fun h => htotal h.2
      rw [if_pos hminute]
      split
      · rename_i time htime
        split at htime
        · obtain rfl := Option.some.inj htime
          rw [if_neg htotal]
          exact not_succeeds_error _
        · cases htime
      · exact not_succeeds_error _
  · refine iff_of_false ?_ fun h => hminute h.1
    rw [if_neg hminute]
    exact not_succeeds_error _

theorem MomentForm.interpret_succeeds_iff (form : MomentForm) {hours : Nat} (hhours : hours ≤ 48) :
    Succeeds (form.interpret hours) ↔ form.Supported hours := by
  have hvalue : ∀ moment : Moment, Succeeds (.ok moment : Except ReadError Moment) ↔ True :=
    fun moment => iff_true_intro (succeeds_ok moment)
  cases form with
  | clock time =>
    have hclock := ClockForm.interpret_succeeds_iff time hhours
    exact (succeeds_bind_iff fun _ => hvalue _).trans ((and_iff_left trivial).trans hclock)
  | event kind => exact hvalue _
  | shifted kind later amount =>
    have hamount := ClockForm.interpret_succeeds_iff amount (show 24 ≤ 48 by decide)
    exact (succeeds_bind_iff fun _ => hvalue _).trans ((and_iff_left trivial).trans hamount)

theorem SpanForm.interpret_succeeds_iff (form : SpanForm) :
    Succeeds form.interpret ↔ form.Supported := by
  obtain ⟨beginning, ending, whole⟩ := form
  refine (succeeds_bind_iff fun _ => ?_).trans (and_congr_left fun _ =>
    MomentForm.interpret_succeeds_iff beginning (show 24 ≤ 48 by decide))
  cases ending with
  | missing => exact iff_of_false (not_succeeds_refuse whole _) nofun
  | plus => exact iff_of_false (not_succeeds_refuse whole _) nofun
  | upTo moment opened =>
    refine (succeeds_bind_iff fun _ => ?_).trans (and_congr_left fun _ =>
      MomentForm.interpret_succeeds_iff moment (Nat.le_refl 48))
    cases opened with
    | false => exact iff_of_true (succeeds_ok _) rfl
    | true => exact iff_of_false (not_succeeds_refuse whole _) nofun

theorem WeekdayForm.interpret_succeeds_iff (form : WeekdayForm) :
    Succeeds form.interpret ↔ form.Supported := by
  refine (succeeds_bind_iff fun _ => ?_).trans (and_congr_left fun _ =>
    refuseIfPresent_succeeds_iff .numberedWeekday form.occurrences)
  refine (succeeds_bind_iff fun _ => ?_).trans ((and_iff_left trivial).trans
    (refuseIfPresent_succeeds_iff .dayOffset form.offset))
  exact iff_true_intro (succeeds_ok _)

theorem HolidayForm.interpret_succeeds_iff (form : HolidayForm) :
    Succeeds form.interpret ↔ form.Supported := by
  refine (succeeds_bind_iff fun _ => ?_).trans ((and_iff_left trivial).trans
    (refuseIfPresent_succeeds_iff .dayOffset form.offset))
  exact iff_true_intro (succeeds_ok _)

theorem DaysForm.interpret_succeeds_iff (form : DaysForm) :
    Succeeds form.interpret ↔ form.Supported := by
  have hholidays : ∀ holidays : List HolidayForm,
      Succeeds (holidays.mapM HolidayForm.interpret) ↔ ∀ form ∈ holidays, form.Supported :=
    fun _ => succeeds_mapM_iff.trans
      (forall₂_congr fun form _ => form.interpret_succeeds_iff)
  have hweekdays : ∀ weekdays : List WeekdayForm,
      Succeeds (weekdays.mapM WeekdayForm.interpret) ↔ ∀ form ∈ weekdays, form.Supported :=
    fun _ => succeeds_mapM_iff.trans
      (forall₂_congr fun form _ => form.interpret_succeeds_iff)
  have hvalue : ∀ days : List WeekdayRange × List Holiday,
      Succeeds (.ok days : Except ReadError (List WeekdayRange × List Holiday)) ↔ True :=
    fun days => iff_true_intro (succeeds_ok days)
  cases form with
  | holidaysOnWeekdays holidays weekdays =>
    refine (succeeds_bind_iff fun _ => ?_).trans (and_congr_left fun _ => hholidays holidays)
    exact (succeeds_bind_iff fun _ => hvalue _).trans
      ((and_iff_left trivial).trans (hweekdays weekdays))
  | weekdaysThenHolidays weekdays holidays =>
    refine ((succeeds_bind_iff fun _ => ?_).trans
      (and_congr_left fun _ => hweekdays weekdays)).trans and_comm
    exact (succeeds_bind_iff fun _ => hvalue _).trans
      ((and_iff_left trivial).trans (hholidays holidays))
  | holidaysThenWeekdays holidays weekdays =>
    refine (succeeds_bind_iff fun _ => ?_).trans (and_congr_left fun _ => hholidays holidays)
    exact (succeeds_bind_iff fun _ => hvalue _).trans
      ((and_iff_left trivial).trans (hweekdays weekdays))

theorem interpretStep_succeeds_iff (digits : Option (List Char)) {greatest : Nat}
    (hgreatest : greatest < UInt64.size) (limit : Limit) :
    Succeeds (interpretStep digits greatest limit) ↔ SupportedStep greatest digits := by
  cases digits with
  | none => exact iff_of_true (succeeds_ok 1) nofun
  | some written =>
    simp only [SupportedStep, Option.mem_def, Option.some.injEq, forall_eq']
    unfold interpretStep
    dsimp only
    split
    · exact iff_of_false (not_succeeds_error _) (by omega)
    · split
      · rename_i hstep
        exact iff_of_true (succeeds_ok _) hstep
      · rename_i hstep
        exact iff_of_false (not_succeeds_error _) hstep

theorem interpretWeekNumber_succeeds_iff (digits : List Char) :
    Succeeds (interpretWeekNumber digits) ↔
      1 ≤ Decimal.value digits ∧ Decimal.value digits ≤ 53 := by
  unfold interpretWeekNumber
  dsimp only
  split
  · rename_i hweek
    exact iff_of_true (succeeds_ok _) hweek
  · rename_i hweek
    exact iff_of_false (not_succeeds_error _) hweek

theorem WeekForm.interpret_succeeds_iff (form : WeekForm) :
    Succeeds form.interpret ↔ form.Supported := by
  have hstep : Succeeds (interpretStep form.step 255 .weekStep) ↔ SupportedStep 255 form.step :=
    interpretStep_succeeds_iff form.step (by decide) .weekStep
  have hvalue : ∀ range : WeekRange, Succeeds (.ok range : Except ReadError WeekRange) ↔ True :=
    fun range => iff_true_intro (succeeds_ok range)
  refine (succeeds_bind_iff fun first => ?_).trans (and_congr_left fun _ =>
    interpretWeekNumber_succeeds_iff form.first)
  have hrest : ∀ last : Nat, Succeeds (interpretStep form.step 255 .weekStep >>= fun step =>
      (.ok ⟨first, last, step⟩ : Except ReadError WeekRange)) ↔ SupportedStep 255 form.step :=
    fun last => (succeeds_bind_iff fun _ => hvalue _).trans ((and_iff_left trivial).trans hstep)
  cases hlast : form.last with
  | none =>
    exact (succeeds_bind_iff hrest).trans
      (and_congr_left fun _ => iff_of_true (succeeds_ok first) nofun)
  | some digits =>
    refine (succeeds_bind_iff hrest).trans (and_congr_left fun _ => ?_)
    simp only [Option.mem_def, Option.some.injEq, forall_eq']
    exact interpretWeekNumber_succeeds_iff digits

theorem YearForm.interpret_succeeds_iff (form : YearForm) :
    Succeeds form.interpret ↔ form.Supported := by
  obtain ⟨first, ending⟩ := form
  cases ending with
  | missing => exact iff_of_true (succeeds_ok _) trivial
  | plus => exact iff_of_true (succeeds_ok _) trivial
  | upTo last step =>
    refine (succeeds_bind_iff fun _ => iff_true_intro (succeeds_ok _)).trans
      ((and_iff_left trivial).trans ?_)
    exact interpretStep_succeeds_iff step (by decide) .yearStep

theorem LastDayForm.interpret_succeeds_iff (form : LastDayForm) (first : DayForm) :
    Succeeds (form.interpret first.interpret) ↔ form.Supported first := by
  cases form with
  | day written => exact iff_of_true (succeeds_ok _) trivial
  | number fragment =>
    cases first with
    | easter year =>
      exact iff_of_false (not_succeeds_refuse fragment _) fun h => h year rfl
    | fixed year month day =>
      refine iff_of_true ?_ nofun
      simp only [LastDayForm.interpret, DayForm.interpret]
      split <;> exact succeeds_ok _

theorem DateForm.interpret_succeeds_iff (form : DateForm) :
    Succeeds form.interpret ↔ form.Supported := by
  cases form with
  | months year first last => exact iff_of_true (succeeds_ok _) trivial
  | days first offset ending =>
    refine (succeeds_bind_iff fun _ => ?_).trans (and_congr_left fun _ =>
      refuseIfPresent_succeeds_iff .dayOffset offset)
    cases ending with
    | missing => exact iff_of_true (succeeds_ok _) trivial
    | plus => exact iff_of_true (succeeds_ok _) trivial
    | upTo last offset =>
      refine (succeeds_bind_iff fun _ => ?_).trans (and_congr_left fun _ =>
        last.interpret_succeeds_iff first)
      refine (succeeds_bind_iff fun _ => ?_).trans ((and_iff_left trivial).trans
        (refuseIfPresent_succeeds_iff .dayOffset offset))
      exact iff_true_intro (succeeds_ok _)

theorem WideForm.interpret_succeeds_iff (form : WideForm) :
    Succeeds form.interpret ↔ form.Supported := by
  refine (succeeds_bind_iff fun _ => ?_).trans (and_congr_left fun _ =>
    succeeds_mapM_iff.trans (forall₂_congr fun years _ => years.interpret_succeeds_iff))
  refine (succeeds_bind_iff fun _ => ?_).trans (and_congr_left fun _ =>
    succeeds_mapM_iff.trans (forall₂_congr fun dates _ => dates.interpret_succeeds_iff))
  refine (succeeds_bind_iff fun _ => ?_).trans ((and_iff_left trivial).trans
    (succeeds_mapM_iff.trans (forall₂_congr fun weeks _ => weeks.interpret_succeeds_iff)))
  exact iff_true_intro (succeeds_ok _)

/-- A part that may be missing has a meaning if it is not there, or if it is supported. -/
theorem succeeds_elim_iff {α β : Type} {form : Option α} (missing : β)
    {interpret : α → Except ReadError β} {p : α → Prop}
    (h : ∀ inner, Succeeds (interpret inner) ↔ p inner) :
    Succeeds (form.elim (.ok missing) interpret) ↔ ∀ inner ∈ form, p inner := by
  cases form with
  | none => exact iff_of_true (succeeds_ok missing) nofun
  | some inner =>
    simp only [Option.mem_def, Option.some.injEq, forall_eq']
    exact h inner

theorem TimesForm.interpret_succeeds_iff (form : TimesForm) :
    Succeeds form.interpret ↔ form.Supported := by
  cases form with
  | always => exact iff_of_true (succeeds_ok _) trivial
  | times wide small =>
    rw [interpret_times]
    refine (succeeds_bind_iff fun _ => ?_).trans (and_congr_left fun _ =>
      succeeds_elim_iff _ WideForm.interpret_succeeds_iff)
    have hspans : Succeeds ((small.elim [] SmallForm.spans).mapM SpanForm.interpret) ↔
        ∀ span ∈ small.elim [] SmallForm.spans, span.Supported :=
      succeeds_mapM_iff.trans (forall₂_congr fun span _ => span.interpret_succeeds_iff)
    refine (succeeds_bind_iff fun _ => (succeeds_bind_iff fun _ =>
      iff_true_intro (succeeds_ok _)).trans ((and_iff_left trivial).trans hspans)).trans ?_
    rw [succeeds_elim_iff _ DaysForm.interpret_succeeds_iff]
    cases small with
    | none => exact iff_of_true ⟨nofun, List.forall_mem_nil _⟩ nofun
    | some form =>
      simp only [Option.mem_def, Option.some.injEq, forall_eq']
      exact Iff.rfl

theorem RuleForm.interpret_succeeds_iff (form : RuleForm) (additional : Bool) :
    Succeeds (form.interpret additional) ↔ form.Supported := by
  refine Iff.trans ?_ (succeeds_elim_iff ({}, []) TimesForm.interpret_succeeds_iff)
  constructor
  · rintro ⟨rule, hrule⟩
    obtain ⟨times, htimes, -⟩ := interpret_eq_ok.1 hrule
    exact ⟨times, htimes⟩
  · rintro ⟨times, htimes⟩
    exact ⟨_, interpret_eq_ok.2 ⟨times, htimes, rfl⟩⟩

theorem SeparatorForm.interpret_succeeds_iff (form : SeparatorForm) :
    Succeeds form.interpret ↔ form.Supported := by
  cases form with
  | overriding => exact iff_of_true (succeeds_ok _) trivial
  | adding => exact iff_of_true (succeeds_ok _) trivial
  | fallback bars => exact iff_of_false (not_succeeds_refuse bars _) nofun

/-- A form means a list of rules just if all of it is supported. -/
theorem ExpressionForm.interpret_succeeds_iff (form : ExpressionForm) :
    Succeeds form.interpret ↔ form.Supported := by
  have hpart : ∀ part : SeparatorForm × RuleForm,
      Succeeds (part.1.interpret >>= fun additional => part.2.interpret additional) ↔
        part.1.Supported ∧ part.2.Supported := fun part =>
    (succeeds_bind_iff part.2.interpret_succeeds_iff).trans
      (and_congr_left fun _ => part.1.interpret_succeeds_iff)
  refine (succeeds_bind_iff fun _ => ?_).trans (and_congr_left fun _ =>
    form.first.interpret_succeeds_iff false)
  exact (succeeds_bind_iff fun _ => iff_true_intro (succeeds_ok _)).trans
    ((and_iff_left trivial).trans (succeeds_mapM_iff.trans (forall₂_congr fun part _ =>
      hpart part)))

end Grammar

/-! ### Texts that are read -/

/-- The rules are one rule that has a comment, but no date, no time and no state. -/
def IsLoneComment (rules : List Rule) : Prop :=
  ∃ rule comment, rules = [rule] ∧ rule.kind = .unknown ∧ rule.selector = {} ∧ rule.spans = [] ∧
    rule.comment = some comment

namespace Expression

theorem loneComment?_eq_none_iff {expression : Expression} :
    expression.loneComment? = none ↔ ¬ IsLoneComment expression.rules := by
  have hrule : ∀ rule : Rule, rule.loneComment? = none ↔ ¬ IsLoneComment [rule] := by
    intro rule
    obtain ⟨selector, spans, kind, comment, additional⟩ := rule
    simp only [Rule.loneComment?, IsLoneComment, List.cons.injEq, and_true]
    by_cases hlone : kind = .unknown ∧ selector = {} ∧ spans = []
    · obtain ⟨rfl, rfl, rfl⟩ := hlone
      cases comment with
      | none => exact iff_of_true rfl (by rintro ⟨_, _, rfl, -, -, -, ⟨⟩⟩)
      | some comment => exact iff_of_false nofun fun h => h ⟨_, comment, rfl, rfl, rfl, rfl, rfl⟩
    · refine iff_of_true (if_neg ?_) ?_
      · simpa [Selector.isEmpty_iff, and_assoc] using hlone
      · rintro ⟨_, _, rfl, hkind, hselector, hspans, -⟩
        exact hlone ⟨hkind, hselector, hspans⟩
  obtain ⟨given, source, rules⟩ := expression
  match rules with
  | [] => exact iff_of_true rfl (by rintro ⟨_, _, ⟨⟩, -⟩)
  | [rule] => exact hrule rule
  | _ :: _ :: _ => exact iff_of_true rfl (by rintro ⟨_, _, ⟨⟩, -⟩)

/-- A text is read just if the grammar fits, nothing in the form of the text is unsupported, and its
rules are more than one lone comment. -/
theorem exists_read_iff (text : String) :
    (∃ expression, Expression.read text = .ok expression) ↔
      ∃ form, Grammar.parse text.toList = .ok form ∧ form.Supported ∧
        ∀ rules, form.interpret = .ok rules → ¬ IsLoneComment rules := by
  have hparse : ∀ rules, readRules text.toList = .ok rules ↔
      ∃ form, Grammar.parse text.toList = .ok form ∧ form.interpret = .ok rules := by
    intro rules
    unfold readRules
    cases Grammar.parse text.toList with
    | ok form => exact ⟨fun h => ⟨form, rfl, h⟩, fun ⟨_, heq, h⟩ => Except.ok.inj heq ▸ h⟩
    | error position =>
      dsimp only
      constructor
      · intro h
        split at h <;> cases h
      · rintro ⟨_, ⟨⟩, _⟩
  constructor
  · rintro ⟨expression, hread⟩
    obtain ⟨hrules, hlone, -, -⟩ := read_eq_ok.1 hread
    obtain ⟨form, hform, hinterpret⟩ := (hparse _).1 hrules
    refine ⟨form, hform, form.interpret_succeeds_iff.1 ⟨_, hinterpret⟩, fun rules hother => ?_⟩
    obtain rfl := Except.ok.inj (hinterpret.symm.trans hother)
    exact loneComment?_eq_none_iff.1 hlone
  · rintro ⟨form, hform, hsupported, hlone⟩
    obtain ⟨rules, hrules⟩ := form.interpret_succeeds_iff.2 hsupported
    refine ⟨⟨text, text, rules⟩, read_eq_ok.2 ⟨?_, ?_, rfl, rfl⟩⟩
    · exact (hparse rules).2 ⟨form, hform, hrules⟩
    · exact loneComment?_eq_none_iff.2 (hlone rules hrules)

end Expression

end Timetable
