import Mathlib.Data.List.Chain
import Timetable.Proofs.Reading.RoundTrip

/-!
Rules that were not read from a text.

Rules can be put together from values, too. `RulesWellFormed` says of each value that it can be
written: numbers are in bounds, years have four digits, a single year or week has no step, weekdays
and holidays stand in an order that the grammar knows. Such rules are read back from their text
exactly if no rule that ends with its spans stands before an additional one that begins with spans
(`Expression.read_rulesText_iff`).
-/

namespace Timetable

/-! ### Values that can be written -/

/-- All conditions of the selector can be written, and told apart when they are. -/
structure Selector.WellFormed (selector : Selector) : Prop where
  years : ∀ range ∈ selector.years, range.InBounds ∧ range.Faithful
  dates : ∀ range ∈ selector.dates, range.InBounds ∧ range.Faithful
  weeks : ∀ range ∈ selector.weeks, range.InBounds ∧ range.Faithful
  /-- A single year does not stand before a date without a year. -/
  apart : YearApart selector.years selector.dates
  /-- Among the weekdays, holidays come last or first. -/
  weekdays : ∃ (ranges : List (Weekday × Weekday)) (kinds : List Holiday),
    selector.weekdays = weekdayRanges ranges ++ kinds.map .holiday ∨
      selector.weekdays = kinds.map .holiday ++ weekdayRanges ranges
  /-- Holidays as a demand of their own come with weekdays. -/
  holidays : selector.holidays ≠ [] →
    ∃ ranges, ranges ≠ [] ∧ selector.weekdays = weekdayRanges ranges

/-- The rule can be written. -/
structure Rule.WellFormed (rule : Rule) : Prop where
  selector : rule.selector.WellFormed
  spans : ∀ span ∈ rule.spans, span.InBounds
  spans_ne_nil : rule.kind = .opened → rule.spans ≠ []
  comment : ∀ comment ∈ rule.comment, '"' ∉ comment.toList

/-- The rules can be written, the first one overrides, and they are more than a comment. -/
structure RulesWellFormed (rules : List Rule) : Prop where
  rule : ∀ rule ∈ rules, rule.WellFormed
  ne_nil : rules ≠ []
  first : ∀ first ∈ rules.head?, first.additional = false
  not_comment : ∀ rule, rules = [rule] → rule.kind = .unknown → rule.selector = {} →
    rule.spans = [] → rule.comment = none

/-- No rule that ends with its spans stands before an additional one that begins with spans. -/
def SpansApart (rules : List Rule) : Prop :=
  rules.IsChain fun rule next => ¬ (rule.EndsWithSpans ∧ next.AddsSpans)

instance (rules : List Rule) : Decidable (SpansApart rules) :=
  inferInstanceAs (Decidable (rules.IsChain _))

/-! ### From values to what is read back -/

theorem Selector.WellFormed.writtenDays {selector : Selector} (h : selector.WellFormed) :
    WrittenDays selector.weekdays selector.holidays := by
  by_cases hholidays : selector.holidays = []
  · rw [hholidays]
    obtain ⟨ranges, kinds, hdays | hdays⟩ := h.weekdays
    · rw [hdays]
      by_cases hranges : ranges = []
      · subst hranges
        by_cases hkinds : kinds = []
        · subst hkinds
          exact .none
        · simpa [weekdayRanges] using WrittenDays.holidaysThenWeekdays [] hkinds
      · exact .weekdaysThenHolidays kinds hranges
    · rw [hdays]
      by_cases hkinds : kinds = []
      · subst hkinds
        by_cases hranges : ranges = []
        · subst hranges
          exact .none
        · simpa using WrittenDays.weekdaysThenHolidays [] hranges
      · exact .holidaysThenWeekdays ranges hkinds
  · obtain ⟨ranges, hranges, hdays⟩ := h.holidays hholidays
    rw [hdays]
    exact .holidaysOnWeekdays hranges hholidays

theorem Selector.WellFormed.inBounds {selector : Selector} (h : selector.WellFormed) :
    selector.InBounds where
  years range hmem := (h.years range hmem).1
  dates range hmem := (h.dates range hmem).1
  weeks range hmem := (h.weeks range hmem).1
  days := h.writtenDays

theorem Selector.WellFormed.faithful {selector : Selector} (h : selector.WellFormed) :
    selector.Faithful :=
  ⟨⟨fun range hmem => (h.years range hmem).2, fun range hmem => (h.dates range hmem).2, h.apart⟩,
    fun range hmem => (h.weeks range hmem).2⟩

theorem Rule.WellFormed.inBounds {rule : Rule} (h : rule.WellFormed) : rule.InBounds where
  selector := h.selector.inBounds
  spans := h.spans
  spans_ne_nil := h.spans_ne_nil
  comment comment hcomment c hc := by
    rw [bne_iff_ne]
    rintro rfl
    exact h.comment comment hcomment hc

namespace RulesWellFormed

variable {rules : List Rule}

theorem inBounds (h : RulesWellFormed rules) : RulesInBounds rules := by
  obtain ⟨first, rest, rfl⟩ := List.exists_cons_of_ne_nil h.ne_nil
  exact ⟨fun rule hmem => (h.rule rule hmem).inBounds, first, rest, rfl, h.first first rfl⟩

theorem loneComment?_eq_none (h : RulesWellFormed rules) (given source : String) :
    Expression.loneComment? ⟨given, source, rules⟩ = none := by
  unfold Expression.loneComment?
  dsimp only
  split
  · rename_i rule
    unfold Rule.loneComment?
    split
    · rename_i hlone
      simp only [Bool.and_eq_true, beq_iff_eq, List.isEmpty_iff, Selector.isEmpty_iff] at hlone
      exact h.not_comment rule rfl hlone.1.1 hlone.1.2 hlone.2
    · rfl
  · rfl

end RulesWellFormed

/-- Where each selector comes back, so do the rules if their spans are apart. -/
theorem rulesFaithful_iff_spansApart {rules : List Rule}
    (h : ∀ rule ∈ rules, rule.selector.Faithful) : RulesFaithful rules ↔ SpansApart rules := by
  induction rules with
  | nil => exact iff_of_true trivial .nil
  | cons rule rest ih =>
    obtain ⟨hrule, hrest⟩ := List.forall_mem_cons.1 h
    rw [RulesFaithful, SpansApart, List.isChain_cons, Rule.FaithfulBefore, and_iff_right hrule,
      ih hrest]
    rfl

/-- Rules that can be written are read back from their text exactly if their spans are apart. -/
theorem Expression.read_rulesText_iff {rules : List Rule} (h : RulesWellFormed rules) :
    read (rulesText rules) = .ok ⟨rulesText rules, rulesText rules, rules⟩ ↔ SpansApart rules := by
  rw [read_eq_ok, readRules_rulesText h.inBounds,
    rulesFaithful_iff_spansApart fun rule hmem => (h.rule rule hmem).selector.faithful]
  exact and_iff_left ⟨h.loneComment?_eq_none _ _, rfl, rfl⟩

/-- Open in the nights around Christmas of some years, on working days that are holidays. -/
def christmasNights : Rule where
  selector :=
    { years := [⟨2020, 2030, 2⟩]
      dates := [.days (.fixed (some 2024) .december 24) (.fixed none .january 6)]
      weeks := [⟨52, 1, 1⟩]
      weekdays := [.days .monday .friday]
      holidays := [.publicHoliday] }
  spans :=
    [.ofClock ⟨1230, by decide⟩ ⟨1590, by decide⟩, ⟨.solar .dusk (-60), .clock .endOfDay⟩]
  kind := .opened

example : christmasNights.text =
    "2020-2030/2 2024 Dec 24-Jan 06 week 52-01 PH Mo-Fr 20:30-26:30,(dusk-01:00)-24:00" := by rfl

/-- Closed at noon on Sundays and school holidays. -/
def closedAtNoon : Rule where
  selector := { weekdays := [.holiday .schoolHoliday, .days .sunday .sunday] }
  spans := [.ofClock ⟨720, by decide⟩ ⟨780, by decide⟩]
  kind := .closed
  comment := some "lunch"
  additional := true

theorem wellFormed_christmasNights : christmasNights.WellFormed where
  selector :=
    { years := by simp [christmasNights, YearRange.InBounds, YearRange.Faithful, FourDigits]
      dates := by
        simp [christmasNights, DateRange.InBounds, AnnualDay.InBounds, DateRange.Faithful,
          AnnualDay.Faithful, AnnualDay.year?, FourDigits]
      weeks := by simp [christmasNights, WeekRange.InBounds, WeekRange.Faithful]
      apart := by decide
      weekdays := ⟨[(.monday, .friday)], [], .inl rfl⟩
      holidays := fun _ => ⟨[(.monday, .friday)], List.cons_ne_nil _ _, rfl⟩ }
  spans := by
    simp [christmasNights, TimeSpan.InBounds, TimeSpan.ofClock, Moment.InBounds,
      ClockTime.endOfDay]
  spans_ne_nil := nofun
  comment := nofun

theorem wellFormed_closedAtNoon : closedAtNoon.WellFormed where
  selector :=
    { years := nofun
      dates := nofun
      weeks := nofun
      apart := trivial
      weekdays := ⟨[(.sunday, .sunday)], [.schoolHoliday], .inr rfl⟩
      holidays := fun h => absurd rfl h }
  spans := by simp [closedAtNoon, TimeSpan.InBounds, TimeSpan.ofClock, Moment.InBounds]
  spans_ne_nil := nofun
  comment := by simp [closedAtNoon]

theorem Expression.read_christmasNights :
    RulesWellFormed [christmasNights, closedAtNoon] ∧
      SpansApart [christmasNights, closedAtNoon] ∧
      read (rulesText [christmasNights, closedAtNoon]) =
        .ok ⟨rulesText [christmasNights, closedAtNoon], rulesText [christmasNights, closedAtNoon],
          [christmasNights, closedAtNoon]⟩ := by
  have hrules : RulesWellFormed [christmasNights, closedAtNoon] :=
    { rule := List.forall_mem_cons.2 ⟨wellFormed_christmasNights,
        List.forall_mem_singleton.2 wellFormed_closedAtNoon⟩
      ne_nil := List.cons_ne_nil _ _
      first := by simp [christmasNights]
      not_comment := by simp }
  have hapart : SpansApart [christmasNights, closedAtNoon] := by decide
  exact ⟨hrules, hapart, (read_rulesText_iff hrules).2 hapart⟩

end Timetable
