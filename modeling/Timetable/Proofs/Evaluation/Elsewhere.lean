import Timetable.Proofs.Evaluation.Session

/-!
What is done at another place leaves no trace.

Operations that are done elsewhere work on a state of their own. However they change it, and whether
they are done to the end or given up, at this place or in operations at yet another one, the state
from before comes back (`Session.leavesNoTrace_elsewhere`). If the inner operations are given up,
the outer ones are, too, unless they attempt the inner ones (`Operation.attempt`).

As long as the operations do not configure the times of the sun, the state elsewhere keeps nothing
but what the almanac gives at the other place (`SolarHours.Keeps`): this is so at the beginning, and
each operation keeps it so (`Session.keeps_run`). Such a state answers like one in which nothing was
asked. As no place is compared with another one, this asks less of an almanac than
`SolarHours.Follows` does, which holds for operations that configure, too.
-/

namespace Timetable

variable {Zone : Type}

/-- The sources at another place: the almanac is taken there, and nothing is given. -/
def SolarSources.elsewhere (sources : SolarSources Zone) (location : Location Zone) :
    SolarSources Zone where
  location := some location
  almanac := sources.almanac

/-- Whether an operation changes where the times of the sun come from. What is done elsewhere does
not, nor does it to forget what was computed. -/
def Operation.configures : Operation Zone → Bool
  | .setOverride _ _ | .removeOverride _ | .setDefault _ | .setLocation _ | .setAlmanac _ => true
  | .attempt operation => operation.configures
  | _ => false

/-! ### States that keep what their sources compute -/

namespace SolarHours

/-- A state with exactly these sources that keeps only what they compute. -/
structure Keeps (hours : SolarHours Zone) (sources : SolarSources Zone) : Prop where
  sources_eq : hours.sources = sources
  cached : ∀ date record, hours.cache[date]? = some record → sources.Computes date record

theorem keeps_fresh (sources : SolarSources Zone) : sources.fresh.Keeps sources where
  sources_eq := rfl
  cached date record hcached := by
    rw [show sources.fresh.cache[date]? = none from Std.TreeMap.getElem?_emptyc] at hcached
    cases hcached

namespace Keeps

variable {hours other : SolarHours Zone} {sources : SolarSources Zone}

theorem withCalls (h : hours.Keeps sources) (calls : List Date) :
    { hours with calls }.Keeps sources :=
  ⟨h.sources_eq, h.cached⟩

theorem clear (h : hours.Keeps sources) : hours.clear.Keeps sources :=
  ⟨h.sources_eq, (keeps_fresh sources).cached⟩

theorem grows (h : hours.Keeps sources) (hgrows : hours.Grows other) : other.Keeps sources := by
  obtain ⟨rfl, hcached⟩ := h
  exact ⟨hgrows.sources_eq, fun date record hafter =>
    (hgrows.gained date record hafter).elim (hcached date record) id⟩

/-- A state answers what its sources say. -/
theorem known_eq (h : hours.Keeps sources) (date : Date) :
    hours.known date = sources.times date := by
  obtain ⟨rfl, hcached⟩ := h
  have hgiven : hours.sources.overrides[date]?.or hours.sources.default = hours.given? date := rfl
  have hlocation : hours.sources.location = hours.location := rfl
  have halmanac : hours.sources.almanac = hours.almanac := rfl
  unfold known SolarHours.answer SolarSources.times
  rw [hgiven, hlocation, halmanac]
  cases hours.given? date with
  | some record => rfl
  | none =>
    -- What is kept is what the almanac gives, and then there is a place.
    cases hcache : hours.cache[date]? with
    | some record =>
      obtain ⟨location, hplace, htimes⟩ := hcached date record hcache
      rw [hlocation] at hplace
      rw [halmanac] at htimes
      simp only [Option.none_or, hplace, htimes]
    | none =>
      cases hours.location with
      | none => rfl
      | some location =>
        simp only [Option.none_or]
        cases hours.almanac.times date location <;> rfl

/-- States with the same sources that keep only what these compute answer alike. -/
theorem agree (h : hours.Keeps sources) (hother : other.Keeps sources) : hours.Agree other := by
  refine ⟨fun date => (h.known_eq date).trans (hother.known_eq date).symm, ?_⟩
  have hconfigured : ∀ {hours : SolarHours Zone}, hours.Keeps sources →
      hours.isConfigured = sources.fresh.isConfigured := by
    rintro hours ⟨rfl, -⟩
    rfl
  exact (hconfigured h).trans (hconfigured hother).symm

end Keeps

/-- At another place nothing is kept to begin with. -/
theorem keeps_movedTo (hours : SolarHours Zone) (location : Location Zone) :
    (hours.movedTo location).Keeps (hours.sources.elsewhere location) :=
  ⟨rfl, (keeps_fresh _).cached⟩

end SolarHours

namespace Session

variable [BEq Zone] {session : Session Zone} {sources : SolarSources Zone}
  {question : Operation Zone}

/-! ### Operations that do not configure -/

/-- An operation that does not configure the times of the sun leaves a state with the same sources
that keeps only what they compute. -/
theorem keeps_run (h : session.solar.Keeps sources) (operation : Operation Zone)
    (hconfigures : operation.configures = false) :
    (session.run operation).2.solar.Keeps sources := by
  have hquestion : operation.isQuestion = true →
      (session.run operation).2.solar.Keeps sources :=
    fun hquestion => h.grows (session.grows_run hquestion)
  cases operation with
  | setOverride _ _ | removeOverride _ | setDefault _ | setLocation _ | setAlmanac _ =>
    cases hconfigures
  | setHolidays _ | solarState =>
    rw [run]
    exact h
  | clear =>
    rw [run]
    exact h.clear
  | elsewhere location operations =>
    rw [run]
    exact h.withCalls _
  | attempt operation =>
    rw [run]
    exact keeps_run h operation hconfigures
  | giveUp asked =>
    rw [run]
    exact h.grows (.askAll session.solar asked)
  | _ => exact hquestion rfl

theorem keeps_runAll (operations : List (Operation Zone)) (h : session.solar.Keeps sources)
    (hconfigures : ∀ operation ∈ operations, operation.configures = false) :
    (session.runAll operations).2.solar.Keeps sources :=
  runAll_preserves (p := fun session => session.solar.Keeps sources)
    (fun _ operation hmem hkeeps => keeps_run hkeeps operation (hconfigures operation hmem)) h

/-! ### Answers in their places -/

/-- Where operations are done to the end, each answer is the one that is given after the operations
before it. -/
theorem getElem?_answers {before after : List (Operation Zone)} {answers : List (Answer Zone)}
    (h : (session.runAll (before ++ question :: after)).1 = some answers) :
    answers[before.length]? = ((session.runAll before).2.run question).1 := by
  induction before generalizing session answers with
  | nil =>
    rw [List.nil_append, runAll] at h
    rw [runAll]
    split at h
    · cases h
    · rename_i answer later hrun
      obtain ⟨others, -, rfl⟩ := Option.map_eq_some_iff.1 h
      rw [hrun]
      rfl
  | cons operation before ih =>
    rw [List.cons_append, runAll] at h
    rw [runAll]
    split at h
    · cases h
    · rename_i answer later hrun
      obtain ⟨others, hothers, rfl⟩ := Option.map_eq_some_iff.1 h
      exact ih hothers

mutual

/-- No operation changes the expression, in whatever depth it is done. -/
theorem expression_run (session : Session Zone) (operation : Operation Zone) :
    (session.run operation).2.agenda.expression = session.agenda.expression := by
  have hquestion : operation.isQuestion = true →
      (session.run operation).2.agenda.expression = session.agenda.expression :=
    fun hquestion => congrArg Agenda.expression (session.agenda_run hquestion)
  cases operation with
  | elsewhere location operations =>
    rw [run]
    exact expression_runAll { session with solar := session.solar.movedTo location } operations
  | attempt operation =>
    rw [run]
    exact expression_run session operation
  | setOverride _ _ | setDefault _ | setLocation _ | setAlmanac _ | clear =>
    rw [run]
    rfl
  | setHolidays _ | removeOverride _ | solarState | giveUp _ => rw [run]
  | _ => exact hquestion rfl

theorem expression_runAll (session : Session Zone) (operations : List (Operation Zone)) :
    (session.runAll operations).2.agenda.expression = session.agenda.expression := by
  cases operations with
  | nil => rw [runAll]
  | cons operation rest =>
    have hfirst := expression_run session operation
    rw [runAll]
    split
    · rename_i later hrun
      rw [hrun] at hfirst
      exact hfirst
    · rename_i answer later hrun
      rw [hrun] at hfirst
      exact (expression_runAll later rest).trans hfirst

end

/-! ### No trace -/

/-- The session in which operations elsewhere begin. -/
def goTo (session : Session Zone) (location : Location Zone) : Session Zone :=
  { session with solar := session.solar.movedTo location }

/-- What is done at another place leaves no trace in what is known about the sun, and begins as if
nothing had been given or asked. -/
structure LeavesNoTrace (session : Session Zone) (location : Location Zone)
    (operations : List (Operation Zone)) : Prop where
  location_eq : (session.run (.elsewhere location operations)).2.solar.location =
    session.solar.location
  overrides_eq : (session.run (.elsewhere location operations)).2.solar.overrides =
    session.solar.overrides
  default_eq : (session.run (.elsewhere location operations)).2.solar.default =
    session.solar.default
  cache_eq : (session.run (.elsewhere location operations)).2.solar.cache = session.solar.cache
  almanac_eq : (session.run (.elsewhere location operations)).2.solar.almanac =
    session.solar.almanac
  /-- The expression stays the same all the way. -/
  expression_eq : ∀ before, before <+: operations →
    ((session.goTo location).runAll before).2.agenda.expression = session.agenda.expression
  /-- Until the times of the sun are configured, a question is answered as if it were the first one,
  with only the place and the almanac known. -/
  answer_eq : ∀ before question after, operations = before ++ question :: after →
    (∀ operation ∈ before, operation.configures = false) → question.isQuestion = true →
    let there := ((session.goTo location).runAll before).2
    (there.run question).1 =
      (run ⟨there.agenda, (session.solar.sources.elsewhere location).fresh⟩ question).1
  /-- That the operations are given up is not hidden. -/
  givenUp_iff : (session.run (.elsewhere location operations)).1 = none ↔
    ((session.goTo location).runAll operations).1 = none
  /-- These are the answers that are given, if the operations are done to the end. -/
  answers_eq : ∀ before question after answers, operations = before ++ question :: after →
    (session.run (.elsewhere location operations)).1 = some (.elsewhere answers) →
    answers[before.length]? = (((session.goTo location).runAll before).2.run question).1

/-- In any session, and with any operations, those that are done elsewhere leave no trace. -/
theorem leavesNoTrace_elsewhere (session : Session Zone) (location : Location Zone)
    (operations : List (Operation Zone)) : session.LeavesNoTrace location operations := by
  have hrestored : (session.run (.elsewhere location operations)).2.solar =
      session.solar.restoredAfter ((session.goTo location).runAll operations).2.solar := by
    rw [run, goTo]
  refine ⟨by rw [hrestored]; rfl, by rw [hrestored]; rfl, by rw [hrestored]; rfl,
    by rw [hrestored]; rfl, by rw [hrestored]; rfl, ?_, ?_, ?_, ?_⟩
  · intro before _
    exact expression_runAll (session.goTo location) before
  · rintro before question after - hconfigures hquestion there
    have hkeeps : there.solar.Keeps (session.solar.sources.elsewhere location) :=
      keeps_runAll before (session.solar.keeps_movedTo location) hconfigures
    exact answer_congr (hkeeps.agree (SolarHours.keeps_fresh _)) hquestion
  · rw [run]
    exact Option.map_eq_none_iff
  · rintro before question after answers rfl hanswers
    rw [run] at hanswers
    obtain ⟨inner, hinner, heq⟩ := Option.map_eq_some_iff.1 hanswers
    obtain rfl := Answer.elsewhere.inj heq
    exact getElem?_answers hinner

end Session

end Timetable
