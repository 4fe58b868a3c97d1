import Mathlib.Data.List.Basic
import Timetable.Evaluation.InForce

/-!
What the rules in force and their minutes depend on.

Of the holidays only those of the date itself matter for the rules in force
(`InForce.on_congr`). Of the times of the sun only the minutes of the events matter that a
span mentions, and only in the spans that are looked at (`InForce.schedule_congr`).
-/

namespace Timetable

/-! ### Events -/

namespace TimeSpan

theorem isSolar_iff {span : TimeSpan} :
    span.isSolar = true ↔ ∃ event, span.mentions event = true := by
  have hmoment : ∀ moment : Moment,
      moment.isSolar = true ↔ ∃ event, moment.mentions event = true := by
    intro moment
    cases moment with
    | clock time => simp [Moment.isSolar, Moment.mentions]
    | solar event offset => simp [Moment.isSolar, Moment.mentions]
  simp only [isSolar, mentions, Bool.or_eq_true, hmoment, exists_or]

end TimeSpan

namespace Expression

variable {expression : Expression}

theorem mem_solarEvents {event : SolarEvent} : event ∈ expression.solarEvents ↔
    ∃ rule ∈ expression.rules, ∃ span ∈ rule.spans, span.mentions event = true := by
  have hall : event ∈ SolarEvent.all := by cases event <;> decide
  simp only [solarEvents, List.mem_filter, hall, true_and, List.any_eq_true]

/-- Whether a span of the expression depends on the sun. -/
def MentionsSun (expression : Expression) : Prop :=
  ∃ rule ∈ expression.rules, ∃ span ∈ rule.spans, span.isSolar = true

theorem mentionsSun_iff : expression.MentionsSun ↔ expression.solarEvents ≠ [] := by
  constructor
  · rintro ⟨rule, hrule, span, hspan, hsolar⟩
    obtain ⟨event, hevent⟩ := TimeSpan.isSolar_iff.1 hsolar
    exact List.ne_nil_of_mem (mem_solarEvents.2 ⟨rule, hrule, span, hspan, hevent⟩)
  · intro hne
    obtain ⟨event, hmem⟩ := List.exists_mem_of_ne_nil _ hne
    obtain ⟨rule, hrule, span, hspan, hevent⟩ := mem_solarEvents.1 hmem
    exact ⟨rule, hrule, span, hspan, TimeSpan.isSolar_iff.2 ⟨event, hevent⟩⟩

end Expression

/-! ### Times of the sun -/

section Times

variable {a b : SolarRecord}

/-- Whether an event happens in the same minute. -/
def SolarRecord.SameMinute (a b : SolarRecord) (event : SolarEvent) : Prop :=
  (a.time event).minutes = (b.time event).minutes

theorem Moment.resolve_congr {moment : Moment}
    (h : ∀ event, moment.mentions event = true → a.SameMinute b event) :
    moment.resolve a = moment.resolve b := by
  cases moment with
  | clock time => rfl
  | solar event offset =>
    have hminute : a.SameMinute b event := h event (beq_self_eq_true event)
    have htime : ClockTime.ofTimeOfDay (a.time event) = ClockTime.ofTimeOfDay (b.time event) :=
      ClockTime.ext hminute
    rw [resolve, resolve, htime]

theorem TimeSpan.resolveAll_congr {spans : List TimeSpan}
    (h : ∀ span ∈ spans, ∀ event, span.mentions event = true → a.SameMinute b event) :
    resolveAll a spans = resolveAll b spans := by
  refine congrArg Schedule.ofIntervals (List.filterMap_congr fun span hspan => ?_)
  have hbeginning : span.beginning.resolve a = span.beginning.resolve b :=
    Moment.resolve_congr fun event hevent => h span hspan event (by rw [mentions, hevent]; rfl)
  have hending : span.ending.resolve a = span.ending.resolve b :=
    Moment.resolve_congr fun event hevent =>
      h span hspan event (by rw [mentions, hevent, Bool.or_true])
  rw [resolve, resolve, hbeginning, hending]

namespace InForce

variable {rules : InForce} {keep : TimeSpan → Bool}

/-- A schedule depends on the events that are mentioned in the spans that are looked at. -/
theorem schedule_congr (h : ∀ rule ∈ rules.consulted, ∀ span ∈ rule.spans, keep span = true →
      ∀ event, span.mentions event = true → a.SameMinute b event) :
    rules.schedule a keep = rules.schedule b keep := by
  have hrule : ∀ rule ∈ rules.consulted, TimeSpan.resolveAll a (rule.spans.filter keep) =
      TimeSpan.resolveAll b (rule.spans.filter keep) := by
    intro rule hmem
    refine TimeSpan.resolveAll_congr fun span hspan => ?_
    obtain ⟨hspan, hkeep⟩ := List.mem_filter.1 hspan
    exact h rule hmem span hspan hkeep
  simp only [consulted, List.forall_mem_append, List.mem_filter] at hrule
  obtain ⟨hgoverning, hadditional⟩ := hrule
  have hfirst : governingSchedule rules.governing a keep =
      governingSchedule rules.governing b keep := by
    cases hrules : rules.governing with
    | none => rfl
    | some rule =>
      cases hkind : rule.kind with
      | opened =>
        have := hgoverning rule ⟨by simp [hrules], by simp [hkind]⟩
        simp only [governingSchedule, hkind, this]
      | closed => simp only [governingSchedule, hkind]
      | unknown => simp only [governingSchedule, hkind]
  rw [schedule, schedule, hfirst]
  refine List.foldl_ext _ _ _ ?_
  intro said rule hmem
  cases hkind : rule.kind with
  | opened =>
    have := hadditional rule ⟨hmem, by simp [hkind]⟩
    simp only [applyAdditional, hkind, this]
  | closed =>
    have := hadditional rule ⟨hmem, by simp [hkind]⟩
    simp only [applyAdditional, hkind, this]
  | unknown => simp only [applyAdditional, hkind]

theorem needsSolar_iff : rules.needsSolar keep = true ↔
    ∃ rule ∈ rules.consulted, ∃ span ∈ rule.spans, keep span = true ∧ span.isSolar = true := by
  simp only [needsSolar, List.any_eq_true, List.mem_filter, and_assoc]

/-- A schedule that needs no times of the sun is the same on all days. -/
theorem schedule_eq_of_not_needsSolar (h : rules.needsSolar keep = false) (a b : SolarRecord) :
    rules.schedule a keep = rules.schedule b keep := by
  refine schedule_congr fun rule hrule span hspan hkeep event hevent => ?_
  have hneeds : rules.needsSolar keep = true :=
    needsSolar_iff.2 ⟨rule, hrule, span, hspan, hkeep, TimeSpan.isSolar_iff.2 ⟨event, hevent⟩⟩
  rw [h] at hneeds
  cases hneeds

end InForce

end Times

/-! ### Holidays -/

section Holidays

variable {holidays other : HolidayCalendar} {date : Date}

theorem Selector.holdsOn_congr (h : ∀ kind, holidays kind date = other kind date)
    (selector : Selector) : selector.holdsOn holidays date = selector.holdsOn other date := by
  have hweekday : ∀ range : WeekdayRange,
      range.holdsOn holidays date = range.holdsOn other date := by
    intro range
    cases range with
    | days first last => rfl
    | holiday kind => exact h kind
  simp only [holdsOn, hweekday, h]

/-- Which rules are in force on a date depends on the holidays of this date. -/
theorem InForce.on_congr (h : ∀ kind, holidays kind date = other kind date) (rules : List Rule) :
    InForce.on rules holidays date = InForce.on rules other date := by
  simp only [InForce.on, Selector.holdsOn_congr h]

end Holidays

end Timetable
