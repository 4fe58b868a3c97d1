import Timetable.Evaluation.Session
import Timetable.Proofs.Evaluation.Enumeration
import Timetable.Proofs.Evaluation.NextChange
import Timetable.Proofs.Solar.Sources

/-!
Answers depend on what is set, and not on what was asked before.

`SolarSources.after` says what an operation sets, and `SolarSources.afterAll` what a sequence of
operations sets. `answersFrom_runAll` says of any session that begins with nothing computed: after
any operations it keeps only what its almanac gives at its place, the times of a date are those of
the sources that the operations have set, and each question is answered as if it were the first
one.

A question only asks (`Session.asks_of_isQuestion`), so that at most more is kept after it
(`Session.grows_run`). So an operation leaves a state that follows the sources after it
(`Session.follows_run`), and by induction on the operations so does a session
(`Session.follows_runAll`).
-/

namespace Timetable

variable {Zone : Type}

/-! ### What operations set and what they ask -/

namespace Operation

mutual

/-- Whether an operation is given up. What is done at another place does not hide that it is. -/
def givesUp : Operation Zone → Bool
  | .giveUp _ => true
  | .elsewhere _ operations => givesUpIn operations
  | _ => false

/-- Whether operations that are done one after the other are given up. -/
def givesUpIn : List (Operation Zone) → Bool
  | [] => false
  | operation :: rest => operation.givesUp || givesUpIn rest

end

/-- The almanac that an operation puts in the place of the one before. -/
def newAlmanac? : Operation Zone → Option (Almanac Zone)
  | .setAlmanac almanac => some almanac
  | .attempt operation => operation.newAlmanac?
  | _ => none

end Operation

namespace SolarSources

/-- The sources after an operation. What is done at another place sets nothing here. -/
def after (sources : SolarSources Zone) : Operation Zone → SolarSources Zone
  | .setOverride date record => { sources with overrides := sources.overrides.insert date record }
  | .removeOverride date => { sources with overrides := sources.overrides.erase date }
  | .setDefault record => { sources with default := record }
  | .setLocation location => { sources with location }
  | .setAlmanac almanac => { sources with almanac }
  | .attempt operation => sources.after operation
  | _ => sources

/-- The sources after operations, as far as they are done before they are given up. -/
def afterAll (sources : SolarSources Zone) : List (Operation Zone) → SolarSources Zone
  | [] => sources
  | operation :: rest =>
    let later := sources.after operation
    if operation.givesUp then later else later.afterAll rest

end SolarSources

/-- Whether an operation asks about the agenda or about the times of a date. What was kept and which
calls were made is no such question. -/
def Operation.isQuestion : Operation Zone → Bool
  | .isOpen _ | .isClosed _ | .nextChange _ _ | .timeToChange _ _ => true
  | .schedule _ | .day _ | .ruleFor _ | .matchingRules _ => true
  | .holidayStatus | .expression => true
  | .periods _ _ _ | .firstPeriods _ _ _ _ => true
  | .solarRecord _ => true
  | _ => false

namespace Session

variable [BEq Zone] {agenda : Agenda} {operation question : Operation Zone}

/-! ### Questions only ask -/

/-- The operation is an action that only asks, and the agenda stays as it is. -/
def Asks (agenda : Agenda) (operation : Operation Zone) : Prop :=
  ∃ action : StateM (SolarHours Zone) (Answer Zone), Asking action ∧ ∀ hours,
    run ⟨agenda, hours⟩ operation = (some (action.run hours).1, ⟨agenda, (action.run hours).2⟩)

theorem asks_of_asking {α : Type} {action : StateM (SolarHours Zone) α} (answer : α → Answer Zone)
    (hasking : Asking action)
    (hrun : ∀ hours, run ⟨agenda, hours⟩ operation =
      (some (answer (action.run hours).1), ⟨agenda, (action.run hours).2⟩)) :
    Asks agenda operation :=
  ⟨action >>= fun value => pure (answer value), Asking.bind hasking fun _ => Asking.pure _, hrun⟩

theorem asks_of_evaluate {α ε : Type} {evaluation : ExceptT ε (StateM (SolarHours Zone)) α}
    {answer : α → Answer Zone} {failure : ε → Answer Zone} (hasking : Asking evaluation.run)
    (hrun : ∀ hours, run ⟨agenda, hours⟩ operation =
      evaluate ⟨agenda, hours⟩ evaluation answer failure) :
    Asks agenda operation := by
  let reply (result : Except ε α) : Answer Zone := result.casesOn failure answer
  refine asks_of_asking reply hasking fun hours => ?_
  rw [hrun, evaluate]
  obtain ⟨value | error, later⟩ := evaluation.run.run hours
  · rfl
  · rfl

theorem asks_of_answer (answer : Answer Zone)
    (hrun : ∀ hours, run ⟨agenda, hours⟩ operation = (some answer, ⟨agenda, hours⟩)) :
    Asks agenda operation :=
  ⟨pure answer, Asking.pure _, hrun⟩

theorem asks_of_isQuestion (agenda : Agenda) (h : question.isQuestion = true) :
    Asks agenda question := by
  cases question with
  | isOpen instant =>
    exact asks_of_evaluate (agenda.asking_isOpen instant) fun _ => by rw [run]
  | isClosed instant =>
    exact asks_of_evaluate (agenda.asking_isOpen instant) fun _ => by rw [run]
  | nextChange instant limit =>
    exact asks_of_evaluate (agenda.asking_nextChange instant limit) fun _ => by rw [run]
  | timeToChange instant limit =>
    exact asks_of_evaluate (agenda.asking_timeToChange instant limit) fun _ => by rw [run]
  | schedule date =>
    exact asks_of_evaluate (agenda.asking_scheduleAt date) fun _ => by rw [run]
  | day date =>
    exact asks_of_evaluate (agenda.asking_day date) fun _ => by rw [run]
  | ruleFor date =>
    exact asks_of_answer (.rule (agenda.ruleFor date)) fun _ => by rw [run]
  | matchingRules date =>
    exact asks_of_answer (.flags (agenda.matchingRules date)) fun _ => by rw [run]
  | holidayStatus =>
    refine asks_of_answer (.holidayStatus (agenda.expression.holidayStatus? .publicHoliday)
      (agenda.expression.holidayStatus? .schoolHoliday)) fun _ => ?_
    rw [run]
  | expression =>
    exact asks_of_answer (.expression agenda.expression) fun _ => by rw [run]
  | periods start stop merge =>
    exact asks_of_evaluate (agenda.asking_periodsBetween start stop merge) fun _ => by rw [run]
  | firstPeriods start stop merge count =>
    refine asks_of_asking .firstPeriods
      (PeriodCursor.asking_nextTimes agenda count (.ofBounds start stop merge)) fun _ => ?_
    rw [run]
    rfl
  | solarRecord date =>
    exact asks_of_evaluate (Asking.record date) fun _ => by rw [run]
  | _ => cases h

/-- After a question, at most more is kept of what the almanac gives at the place. -/
theorem grows_run (session : Session Zone) (hquestion : question.isQuestion = true) :
    session.solar.Grows (session.run question).2.solar := by
  obtain ⟨action, hasking, hrun⟩ := asks_of_isQuestion session.agenda hquestion
  rw [show session.run question = _ from hrun session.solar]
  exact .asking hasking session.solar

theorem agenda_run (session : Session Zone) (hquestion : question.isQuestion = true) :
    (session.run question).2.agenda = session.agenda := by
  obtain ⟨action, -, hrun⟩ := asks_of_isQuestion session.agenda hquestion
  exact congrArg (fun result => result.2.agenda) (hrun session.solar)

/-- States that answer alike give the same answer to a question. -/
theorem answer_congr {a b : SolarHours Zone} (h : a.Agree b)
    (hquestion : question.isQuestion = true) :
    (run ⟨agenda, a⟩ question).1 = (run ⟨agenda, b⟩ question).1 := by
  obtain ⟨action, hasking, hrun⟩ := asks_of_isQuestion agenda hquestion
  rw [hrun, hrun]
  exact congrArg some (hasking.settled.value_eq h)

/-! ### Sessions follow their sources -/

variable {session : Session Zone} {sources : SolarSources Zone}

/-- An operation leaves a state that follows the sources after it. -/
theorem follows_run (h : session.solar.Follows sources) (operation : Operation Zone)
    (hrespects : ∀ almanac ∈ operation.newAlmanac?, almanac.RespectsPlaces) :
    (session.run operation).2.solar.Follows (sources.after operation) := by
  have hquestion : operation.isQuestion = true →
      (session.run operation).2.solar.Follows sources :=
    fun hquestion => h.grows (session.grows_run hquestion)
  cases operation with
  | setOverride date record =>
    rw [run]
    exact h.setOverride date record
  | removeOverride date =>
    rw [run]
    exact h.removeOverride date
  | setDefault record =>
    rw [run]
    exact h.setDefault record
  | setLocation location =>
    rw [run]
    exact h.setLocation location
  | setAlmanac almanac =>
    rw [run]
    exact h.setAlmanac (hrespects almanac rfl)
  | clear =>
    rw [run]
    exact h.clear
  | setHolidays holidays =>
    rw [run]
    exact h
  | solarState =>
    rw [run]
    exact h
  | elsewhere location operations =>
    rw [run]
    exact h.withCalls _
  | attempt operation =>
    rw [run]
    exact follows_run h operation hrespects
  | giveUp asked =>
    rw [run]
    exact h.grows (.askAll session.solar asked)
  | _ => exact hquestion rfl

mutual

/-- An operation is answered unless it is given up. -/
theorem isSome_run (session : Session Zone) (operation : Operation Zone) :
    (session.run operation).1.isSome = !operation.givesUp := by
  have hquestion : operation.isQuestion = true → (session.run operation).1.isSome = true := by
    intro hquestion
    obtain ⟨action, -, hrun⟩ := asks_of_isQuestion session.agenda hquestion
    exact congrArg (fun result => result.1.isSome) (hrun session.solar)
  cases operation with
  | setHolidays _ | setOverride _ _ | removeOverride _ | setDefault _ | setLocation _
  | setAlmanac _ | clear | solarState | attempt _ | giveUp _ =>
    rw [run]
    rfl
  | elsewhere location operations =>
    rw [run]
    exact Option.isSome_map.trans (isSome_runAll _ operations)
  | _ => exact hquestion rfl

/-- Operations are answered unless one of them is given up. -/
theorem isSome_runAll (session : Session Zone) (operations : List (Operation Zone)) :
    (session.runAll operations).1.isSome = !Operation.givesUpIn operations := by
  cases operations with
  | nil =>
    rw [runAll]
    rfl
  | cons operation rest =>
    have hfirst := isSome_run session operation
    rw [runAll, Operation.givesUpIn, Bool.not_or, ← hfirst]
    split
    · rename_i later hrun
      rw [hrun]
      rfl
    · rename_i answer later hrun
      rw [hrun, Option.isSome_some, Bool.true_and]
      exact Option.isSome_map.trans (isSome_runAll later rest)

end

/-- Operations go on after one that is not given up. -/
theorem runAll_cons (session : Session Zone) (operation : Operation Zone)
    (rest : List (Operation Zone)) :
    (session.runAll (operation :: rest)).2 =
      if operation.givesUp then (session.run operation).2
      else ((session.run operation).2.runAll rest).2 := by
  have hanswered := session.isSome_run operation
  rw [runAll]
  split
  · rename_i hnone
    rw [hnone] at hanswered ⊢
    rw [if_pos (by simpa using hanswered)]
  · rename_i hsome
    rw [hsome] at hanswered ⊢
    rw [if_neg (by simpa using hanswered)]

/-- What each of the operations preserves, all of them do, also if they are given up. -/
theorem runAll_preserves {p : Session Zone → Prop} {operations : List (Operation Zone)}
    (hstep : ∀ session, ∀ operation ∈ operations, p session → p (session.run operation).2)
    {session : Session Zone} (h : p session) : p (session.runAll operations).2 := by
  induction operations generalizing session with
  | nil =>
    rw [runAll]
    exact h
  | cons operation rest ih =>
    have hfirst : p (session.run operation).2 := hstep session operation List.mem_cons_self h
    rw [runAll_cons]
    split
    · exact hfirst
    · exact ih (fun later other hmem => hstep later other (List.mem_cons_of_mem _ hmem)) hfirst

/-- A session that follows its sources still does after any operations. This is an induction on the
operations, one of which may give up the others. -/
theorem follows_runAll (operations : List (Operation Zone)) (h : session.solar.Follows sources)
    (hrespects : ∀ operation ∈ operations, ∀ almanac ∈ operation.newAlmanac?,
      almanac.RespectsPlaces) :
    (session.runAll operations).2.solar.Follows (sources.afterAll operations) := by
  induction operations generalizing session sources with
  | nil =>
    rw [runAll]
    exact h
  | cons operation rest ih =>
    have hstep := follows_run h operation (hrespects operation List.mem_cons_self)
    rw [runAll_cons, SolarSources.afterAll]
    split
    · exact hstep
    · exact ih hstep fun other hmem => hrespects other (List.mem_cons_of_mem _ hmem)

/-! ### Answers from the sources -/

/-- What a session keeps and answers is what its sources say, whatever was asked before. -/
structure AnswersFrom (session : Session Zone) (sources : SolarSources Zone) : Prop where
  kept : ∀ date record, session.solar.cache[date]? = some record → sources.Computes date record
  nothing_kept : sources.location = none → session.solar.cache.isEmpty = true
  times_eq : ∀ date, (session.solar.answer date).1 = sources.times date
  answer_eq : ∀ question, question.isQuestion = true →
    (session.run question).1 = (run ⟨session.agenda, sources.fresh⟩ question).1

theorem AnswersFrom.of_follows (h : session.solar.Follows sources) :
    session.AnswersFrom sources where
  kept := h.cached
  nothing_kept := h.isEmpty_cache
  times_eq := h.known_eq
  answer_eq _ hquestion :=
    answer_congr (h.agree (SolarHours.follows_fresh h.respects)) hquestion

/-- After any operations, a session that began with nothing computed answers from the settings that
it has, and so from those that the operations have made. -/
theorem answersFrom_runAll (agenda : Agenda) {sources : SolarSources Zone}
    (hsources : sources.almanac.RespectsPlaces) {operations : List (Operation Zone)}
    (hoperations : ∀ operation ∈ operations, ∀ almanac ∈ operation.newAlmanac?,
      almanac.RespectsPlaces) :
    let last := (runAll ⟨agenda, sources.fresh⟩ operations).2
    last.AnswersFrom last.solar.sources ∧ last.AnswersFrom (sources.afterAll operations) := by
  intro last
  have hfollows : last.solar.Follows (sources.afterAll operations) :=
    follows_runAll operations (SolarHours.follows_fresh hsources) hoperations
  exact ⟨.of_follows hfollows.own, .of_follows hfollows⟩

/-- All events at noon. -/
def noons : SolarRecord := ⟨.ofMinutes 720, .ofMinutes 720, .ofMinutes 720, .ofMinutes 720⟩

/-- Zones are hours ahead of universal time. All events are at midnight where the clocks show this
time, and at noon elsewhere. -/
def noonAbroad : Almanac Int where
  times _ place := some (if place.zone = 0 then default else noons)
  noted := false

theorem respectsPlaces_noonAbroad : noonAbroad.RespectsPlaces := by
  intro place other h date
  have hequal : (place.coordinates == other.coordinates && place.zone == other.zone) = true := h
  have hzone : place.zone = other.zone := beq_iff_eq.1 (Bool.and_eq_true_iff.1 hequal).2
  simp only [noonAbroad, hzone]

/-- Home is where the clocks show universal time. -/
def atHome : SolarSources Int where
  location := some ⟨⟨0, 0, by decide⟩, 0⟩
  almanac := noonAbroad

/-- A journey from home to the east, with an excursion that is given up and another almanac on the
way. -/
def journey : List (Operation Int) :=
  [.solarRecord default, .setLocation none, .attempt (.setAlmanac .silent),
    .attempt (.elsewhere ⟨⟨0, 0, by decide⟩, 3⟩ [.setDefault (some default), .giveUp [default]]),
    .setLocation (some ⟨⟨0, 0, by decide⟩, 5⟩), .schedule default, .setAlmanac noonAbroad]

theorem answersFrom_journey :
    let last := (runAll ⟨.evenings, atHome.fresh⟩ journey).2
    atHome.almanac.RespectsPlaces ∧
      (∀ operation ∈ journey, ∀ almanac ∈ operation.newAlmanac?, almanac.RespectsPlaces) ∧
      last.AnswersFrom last.solar.sources ∧ last.AnswersFrom (atHome.afterAll journey) ∧
      (last.solar.answer default).1 = .ok noons := by
  intro last
  have hhome : atHome.almanac.RespectsPlaces := respectsPlaces_noonAbroad
  have hjourney : ∀ operation ∈ journey, ∀ almanac ∈ operation.newAlmanac?,
      almanac.RespectsPlaces := by
    intro operation hmem almanac halmanac
    simp only [journey, List.mem_cons, List.not_mem_nil, or_false] at hmem
    obtain rfl | rfl | rfl | rfl | rfl | rfl | rfl := hmem
    case inr.inr.inl =>
      obtain rfl := Option.some.inj halmanac
      exact fun _ _ _ _ => rfl
    case inr.inr.inr.inr.inr.inr =>
      obtain rfl := Option.some.inj halmanac
      exact respectsPlaces_noonAbroad
    all_goals cases halmanac
  have hlast := answersFrom_runAll .evenings hhome hjourney
  exact ⟨hhome, hjourney, hlast.1, hlast.2, hlast.2.times_eq default⟩

end Session

end Timetable
