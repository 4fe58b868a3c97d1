import Timetable.Proofs.Evaluation.Meaning
import Timetable.Proofs.Evaluation.Session

/-!
Days whose schedule cannot be evaluated.

There are three reasons. An expression that mentions the sun is refused on every date if nothing at
all says when the sun rises (`Agenda.Unsourced`). Else the times of a date have to be known if a
span that is looked at depends on the sun (`Agenda.FailsByDay`), and after that those of the day
before, if the date lets the night go on and a span may last past midnight (`Agenda.FailsByNight`).
`Session.failsJustWhenNeeded_schedule` says that there is no other reason, which error is told if
there are several, and that a failure changes nothing except that more may be kept of the almanac.
-/

namespace Timetable

variable {Zone : Type}

namespace Agenda

variable {agenda : Agenda} {hours : SolarHours Zone} {date : Date} {error : SolarError}

/-! ### What is looked at -/

/-- Whether the spans of a rule are looked at on a date: those of the governing rule if it opens,
and those of the rules that open or close something after it. -/
inductive Consults (agenda : Agenda) (date : Date) (rule : Rule) : Prop where
  | governing (hmem : rule ∈ agenda.governing? date) (hkind : rule.kind = .opened)
  | amendment (hmem : rule ∈ agenda.amendments date)
      (hkind : rule.kind = .opened ∨ rule.kind = .closed)

/-- Whether a span that is looked at on a date, among those of a class, depends on the sun. -/
def NeedsSun (agenda : Agenda) (date : Date) (keep : TimeSpan → Bool) : Prop :=
  ∃ rule, agenda.Consults date rule ∧
    ∃ span ∈ rule.spans, keep span = true ∧ span.isSolar = true

theorem mem_consulted_iff {rule : Rule} :
    rule ∈ (agenda.inForce date).consulted ↔ agenda.Consults date rule := by
  have hkind : (rule.kind != .unknown) = true ↔ rule.kind = .opened ∨ rule.kind = .closed := by
    cases rule.kind <;> decide
  simp only [inForce_eq, InForce.consulted, List.mem_append, List.mem_filter, Option.mem_toList,
    beq_iff_eq, hkind]
  constructor
  · rintro (⟨hmem, hkind⟩ | ⟨hmem, hkind⟩)
    · exact .governing hmem hkind
    · exact .amendment hmem hkind
  · rintro (⟨hmem, hkind⟩ | ⟨hmem, hkind⟩)
    · exact .inl ⟨hmem, hkind⟩
    · exact .inr ⟨hmem, hkind⟩

theorem Consults.mem_rules {rule : Rule} (h : agenda.Consults date rule) :
    rule ∈ agenda.expression.rules := by
  cases h with
  | governing hmem hkind => exact mem_rules_of_governing hmem
  | amendment hmem hkind => exact mem_rules_of_amendments hmem

theorem needsSolar_iff_needsSun {keep : TimeSpan → Bool} :
    (agenda.inForce date).needsSolar keep = true ↔ agenda.NeedsSun date keep := by
  simp only [InForce.needsSolar_iff, mem_consulted_iff, NeedsSun]

/-! ### The reasons -/

/-- The expression mentions the sun, but nothing says what its times are. -/
def Unsourced (agenda : Agenda) (hours : SolarHours Zone) : Prop :=
  agenda.expression.MentionsSun ∧ hours.Unset

/-- The times of the date are needed, but they are not known. -/
def FailsByDay (agenda : Agenda) (hours : SolarHours Zone) (date : Date) (error : SolarError) :
    Prop :=
  agenda.NeedsSun date (fun _ => true) ∧ hours.known date = .error error

/-- The date lets the night before it go on. For this, the times of the day before are needed, but
they are not known. -/
def FailsByNight (agenda : Agenda) (hours : SolarHours Zone) (date : Date) (error : SolarError) :
    Prop :=
  ∃ previous, date.previous? = some previous ∧ agenda.KeepsNight date ∧
    agenda.NeedsSun previous TimeSpan.mayEndNextDay ∧ hours.known previous = .error error

theorem lacksSource_iff : agenda.lacksSource hours = true ↔ agenda.Unsourced hours := by
  rw [lacksSource, Unsourced, Expression.mentionsSun_iff, SolarHours.unset_iff, Bool.and_eq_true,
    Bool.not_eq_true', Bool.not_eq_true', List.isEmpty_eq_false_iff]

theorem ownOn_eq_error_iff {keep : TimeSpan → Bool} :
    agenda.ownOn hours date keep = .error error ↔
      agenda.NeedsSun date keep ∧ hours.known date = .error error := by
  rw [← needsSolar_iff_needsSun, ownOn]
  cases hneeds : (agenda.inForce date).needsSolar keep with
  | false => simp only [Bool.false_eq_true, if_false, reduceCtorEq, false_and]
  | true =>
    rw [if_pos rfl, and_iff_right rfl]
    cases hours.known date with
    | ok record => simp only [Except.map, reduceCtorEq]
    | error other => simp only [Except.map, Except.error.injEq]

/-- With any times, the rules of a date say the same of the night before it. -/
theorem keeps_of_ownOn {keep : TimeSpan → Bool} {own : Schedule × Bool}
    (h : agenda.ownOn hours date keep = .ok own) : own.2 = true ↔ agenda.KeepsNight date := by
  have hrecord : ∀ known, hours.known date = .ok known →
      known = (hours.known date).toOption.getD default := by
    intro known hknown
    rw [hknown]
    rfl
  rw [eq_schedule_of_ownOn hrecord h]
  exact keeps_schedule date

theorem scheduleOn_of_unsourced (h : agenda.Unsourced hours) (date : Date) :
    agenda.scheduleOn hours date = .error .notConfigured := by
  rw [scheduleOn_eq, if_pos (lacksSource_iff.2 h)]

/-- Where there is a source of times, a date fails by itself or else by the night before it. -/
theorem scheduleOn_eq_error_iff (h : ¬ agenda.Unsourced hours) :
    agenda.scheduleOn hours date = .error error ↔
      agenda.FailsByDay hours date error ∨
        (∀ other, ¬ agenda.FailsByDay hours date other) ∧ agenda.FailsByNight hours date error := by
  rw [scheduleOn_eq, if_neg (mt lacksSource_iff.1 h), bind_eq_error, ownOn_eq_error_iff]
  refine or_congr_right ⟨?_, ?_⟩
  · rintro ⟨own, hown, hnight⟩
    refine ⟨fun other hother => ?_, ?_⟩
    · rw [ownOn_eq_error_iff.2 hother] at hown
      cases hown
    · split at hnight
      · cases hnight
      · rename_i previous hprevious
        obtain ⟨hkeeps, hprevious⟩ := Option.ite_none_right_eq_some.1 hprevious
        rcases bind_eq_error.1 hnight with hbefore | ⟨before, -, hnever⟩
        · obtain ⟨hneeds, hknown⟩ := ownOn_eq_error_iff.1 hbefore
          exact ⟨previous, hprevious, (keeps_of_ownOn hown).1 hkeeps, hneeds, hknown⟩
        · cases hnever
  · rintro ⟨hday, previous, hprevious, hkeeps, hneeds, hknown⟩
    cases hown : agenda.ownOn hours date fun _ => true with
    | error other => exact absurd (ownOn_eq_error_iff.1 hown) (hday other)
    | ok own =>
      refine ⟨own, rfl, ?_⟩
      rw [if_pos ((keeps_of_ownOn hown).2 hkeeps), hprevious]
      exact bind_eq_error.2 (.inl (ownOn_eq_error_iff.2 ⟨hneeds, hknown⟩))

end Agenda

namespace Session

/-! ### Answers -/

variable [BEq Zone] {session : Session Zone} {date : Date} {error : SolarError}

/-- When a session has no schedule of a date, what it says instead, and what it leaves behind in any
case. -/
structure FailsJustWhenNeeded (session : Session Zone) (date : Date) : Prop where
  fails_iff : (∃ error, (session.run (.schedule date)).1 = some (.solarError error)) ↔
    session.agenda.Unsourced session.solar ∨
      (∃ error, session.agenda.FailsByDay session.solar date error) ∨
      ∃ error, session.agenda.FailsByNight session.solar date error
  answers_else : (∀ error, (session.run (.schedule date)).1 ≠ some (.solarError error)) →
    ∃ schedule, (session.run (.schedule date)).1 = some (.schedule schedule)
  unsourced : session.agenda.Unsourced session.solar →
    (session.run (.schedule date)).1 = some (.solarError .notConfigured)
  by_day : ¬ session.agenda.Unsourced session.solar →
    ∀ error, session.agenda.FailsByDay session.solar date error →
      (session.run (.schedule date)).1 = some (.solarError error)
  by_night : ¬ session.agenda.Unsourced session.solar →
    (∀ error, ¬ session.agenda.FailsByDay session.solar date error) →
    ∀ error, session.agenda.FailsByNight session.solar date error →
      (session.run (.schedule date)).1 = some (.solarError error)
  agenda_eq : (session.run (.schedule date)).2.agenda = session.agenda
  grows : session.solar.Grows (session.run (.schedule date)).2.solar

theorem run_schedule (session : Session Zone) (date : Date) :
    (session.run (.schedule date)).1 =
      match session.agenda.scheduleOn session.solar date with
      | .ok schedule => some (.schedule schedule)
      | .error error => some (.solarError error) := by
  rw [run, evaluate, Agenda.scheduleOn, outcome]
  obtain ⟨schedule | error, later⟩ := (session.agenda.scheduleAt date).run.run session.solar
  · rfl
  · rfl

theorem run_schedule_eq_error_iff : (session.run (.schedule date)).1 = some (.solarError error) ↔
    session.agenda.scheduleOn session.solar date = .error error := by
  rw [run_schedule]
  cases session.agenda.scheduleOn session.solar date with
  | ok schedule => exact ⟨nofun, nofun⟩
  | error other => simp only [Option.some.injEq, Answer.solarError.injEq, Except.error.injEq]

/-- A schedule is refused if and only if times of the sun are needed that are not known, those of
the date before those of the day before. Nothing that was set is changed by this. -/
theorem failsJustWhenNeeded_schedule (session : Session Zone) (date : Date) :
    session.FailsJustWhenNeeded date where
  fails_iff := by
    simp only [run_schedule_eq_error_iff]
    by_cases hsource : session.agenda.Unsourced session.solar
    · exact ⟨fun _ => .inl hsource, fun _ => ⟨_, Agenda.scheduleOn_of_unsourced hsource date⟩⟩
    · simp only [Agenda.scheduleOn_eq_error_iff hsource, or_iff_right hsource]
      constructor
      · rintro ⟨error, hday | ⟨-, hnight⟩⟩
        · exact .inl ⟨error, hday⟩
        · exact .inr ⟨error, hnight⟩
      · intro hfails
        by_cases hday : ∃ error, session.agenda.FailsByDay session.solar date error
        · exact hday.imp fun error => .inl
        · obtain ⟨error, hnight⟩ := hfails.resolve_left hday
          exact ⟨error, .inr ⟨not_exists.1 hday, hnight⟩⟩
  answers_else := by
    intro hnever
    rw [run_schedule]
    cases hschedule : session.agenda.scheduleOn session.solar date with
    | ok schedule => exact ⟨schedule, rfl⟩
    | error error => exact absurd (run_schedule_eq_error_iff.2 hschedule) (hnever error)
  unsourced hsource :=
    run_schedule_eq_error_iff.2 (Agenda.scheduleOn_of_unsourced hsource date)
  by_day hsource error hday :=
    run_schedule_eq_error_iff.2 ((Agenda.scheduleOn_eq_error_iff hsource).2 (.inl hday))
  by_night hsource hday error hnight :=
    run_schedule_eq_error_iff.2 ((Agenda.scheduleOn_eq_error_iff hsource).2 (.inr ⟨hday, hnight⟩))
  agenda_eq := session.agenda_run rfl
  grows := session.grows_run rfl

/-- A place that is open from sunset until 02:00. -/
def afterSunset : Agenda where
  expression :=
    { given := "sunset-02:00"
      source := "sunset-02:00"
      rules := [{ spans := [⟨.solar .sunset 0, .clock ⟨120, by decide⟩⟩], kind := .opened }] }
  holidays := .empty

/-- With the times of a single day, not even this day can be told: its night began on the day
before. -/
theorem failsJustWhenNeeded_afterSunset :
    let session : Session Unit := ⟨afterSunset, SolarHours.unknown.setOverride default noons⟩
    ¬ session.agenda.Unsourced session.solar ∧
      (∀ error, ¬ session.agenda.FailsByDay session.solar default error) ∧
      session.agenda.FailsByNight session.solar default .notConfigured ∧
      (session.run (.schedule default)).1 = some (.solarError .notConfigured) := by
  intro session
  have hsource : ¬ session.agenda.Unsourced session.solar :=
    fun h => absurd (SolarHours.unset_iff.1 h.2) (by decide)
  have hday : ∀ error, ¬ session.agenda.FailsByDay session.solar default error := by
    rintro error ⟨-, hknown⟩
    rw [show session.solar.known default = .ok noons by decide] at hknown
    cases hknown
  have hkeeps : session.agenda.KeepsNight default :=
    (@Agenda.keeps_schedule session.agenda noons (fun _ => true) default).1 (by decide)
  have hnight : session.agenda.FailsByNight session.solar default .notConfigured :=
    ⟨⟨-1, by decide, by decide⟩, by decide, hkeeps, Agenda.needsSolar_iff_needsSun.1 (by decide),
      by decide⟩
  exact ⟨hsource, hday, hnight,
    (failsJustWhenNeeded_schedule session default).by_night hsource hday _ hnight⟩

end Session

end Timetable
