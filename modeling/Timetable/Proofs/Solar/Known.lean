import Timetable.Solar.Hours

/-!
What is known about the sun, and evaluations that do not change it.

Asking for the times of a date keeps them, so the state changes while an expression is evaluated.
What would be answered for a date does not: `SolarHours.agree_answer` says that the state before and
the state after a question answer alike for every date. An evaluation is `Asking` if all that it
does to the state are such questions (`Asking.exists_asked`). Whatever holds from each question to
the next state then holds from the beginning to the end (`Asking.related`). In particular, the
evaluation is `Settled`: it yields the same in states that answer alike and leaves such a state
behind. Evaluations of this kind follow each other as if there were no state at all
(`outcome_bind`).
-/

namespace Timetable

variable {Zone : Type}

namespace SolarHours

/-- The times that are answered for a date, or why there are none. -/
def known (hours : SolarHours Zone) (date : Date) : Except SolarError SolarRecord :=
  (hours.answer date).1

/-- Two states that answer alike for every date. -/
structure Agree (a b : SolarHours Zone) : Prop where
  known_eq : ∀ date, a.known date = b.known date
  configured_eq : a.isConfigured = b.isConfigured

theorem Agree.refl (hours : SolarHours Zone) : hours.Agree hours := ⟨fun _ => rfl, rfl⟩

theorem Agree.symm {a b : SolarHours Zone} (h : a.Agree b) : b.Agree a :=
  ⟨fun date => (h.known_eq date).symm, h.configured_eq.symm⟩

theorem Agree.trans {a b c : SolarHours Zone} (h : a.Agree b) (h' : b.Agree c) : a.Agree c :=
  ⟨fun date => (h.known_eq date).trans (h'.known_eq date),
    h.configured_eq.trans h'.configured_eq⟩

/-- A note of a call changes nothing that is known. -/
theorem agree_noteCall (hours : SolarHours Zone) (date : Date) :
    hours.Agree (hours.noteCall date) := by
  unfold noteCall
  split
  · refine ⟨fun other => ?_, rfl⟩
    simp only [known, answer, given?, noteCall]
    split <;> try rfl
    split <;> try rfl
    split <;> rfl
  · exact Agree.refl hours

/-- Keeping what the almanac answers for a date does not change what is known. -/
theorem agree_cache_insert {hours : SolarHours Zone} {date : Date} {location : Location Zone}
    {record : SolarRecord} (hnone : (hours.given? date).or hours.cache[date]? = none)
    (hplace : hours.location = some location)
    (hanswer : hours.almanac.times date location = some record) :
    hours.Agree { hours with cache := hours.cache.insert date record } := by
  obtain ⟨hgiven, -⟩ := Option.or_eq_none_iff.1 hnone
  refine ⟨fun other => ?_, rfl⟩
  by_cases h : date = other
  · subst h
    have hbefore : hours.known date = .ok record := by
      simp [known, answer, hnone, hplace, hanswer]
    rw [hbefore]
    have hgiven' : { hours with cache := hours.cache.insert date record }.given? date = none :=
      hgiven
    simp [known, answer, hgiven']
  · have hcache : (hours.cache.insert date record)[other]? = hours.cache[other]? := by
      rw [Std.TreeMap.getElem?_insert, if_neg]
      intro hcmp
      exact h (Std.LawfulEqOrd.eq_of_compare hcmp)
    simp only [known, answer, given?, noteCall, hcache]
    split <;> try rfl
    split <;> try rfl
    split <;> rfl

/-- What is known is the same before and after a question. -/
theorem agree_answer (hours : SolarHours Zone) (date : Date) :
    hours.Agree (hours.answer date).2 := by
  unfold answer
  split
  · exact Agree.refl hours
  · rename_i hnone
    split
    · exact Agree.refl hours
    · rename_i location hplace
      have hnoted := agree_noteCall hours date
      dsimp only
      split
      · exact hnoted
      · rename_i record hanswer
        have hplace' : (hours.noteCall date).location = some location := by
          unfold noteCall; split <;> exact hplace
        refine hnoted.trans (agree_cache_insert ?_ hplace' ?_)
        · unfold noteCall; split <;> exact hnone
        · unfold noteCall; split <;> exact hanswer

/-- Nothing is known, there is one time zone, and the almanac is silent. -/
def unknown : SolarHours Unit := { almanac := .silent }

/-- The same times are given for all dates. -/
def everyDay (record : SolarRecord) : SolarHours Zone :=
  { almanac := .silent, default := some record }

/-! ### Several questions -/

theorem askAll_append (hours : SolarHours Zone) (dates later : List Date) :
    hours.askAll (dates ++ later) = (hours.askAll dates).askAll later :=
  List.foldl_append

/-- What each question leaves behind is related to what was before it, and so is what several
questions leave behind. -/
theorem related_askAll {r : SolarHours Zone → SolarHours Zone → Prop}
    (hrefl : ∀ hours, r hours hours) (htrans : ∀ {a b c}, r a b → r b c → r a c)
    (hanswer : ∀ (hours : SolarHours Zone) (date : Date), r hours (hours.answer date).2)
    (hours : SolarHours Zone) (dates : List Date) : r hours (hours.askAll dates) := by
  induction dates generalizing hours with
  | nil => exact hrefl hours
  | cons date dates ih => exact htrans (hanswer hours date) (ih _)

end SolarHours

/-! ### Evaluations that leave alone what is known -/

/-- An action that yields the same in states that answer alike, and leaves such a state behind. -/
structure Settled {α : Type} (action : StateM (SolarHours Zone) α) : Prop where
  value_eq : ∀ {a b : SolarHours Zone}, a.Agree b → (action.run a).1 = (action.run b).1
  agree_after : ∀ hours : SolarHours Zone, hours.Agree (action.run hours).2

namespace Settled

variable {α β : Type}

theorem pure (value : α) : Settled (Pure.pure value : StateM (SolarHours Zone) α) :=
  ⟨fun _ => rfl, SolarHours.Agree.refl⟩

theorem bind {action : StateM (SolarHours Zone) α} {next : α → StateM (SolarHours Zone) β}
    (h : Settled action) (hnext : ∀ value, Settled (next value)) : Settled (action >>= next) := by
  constructor
  · intro a b hab
    have hstates : (action.run a).2.Agree (action.run b).2 :=
      ((h.agree_after a).symm.trans hab).trans (h.agree_after b)
    change ((next (action.run a).1).run (action.run a).2).1
      = ((next (action.run b).1).run (action.run b).2).1
    rw [h.value_eq hab]
    exact (hnext _).value_eq hstates
  · intro hours
    exact (h.agree_after hours).trans ((hnext _).agree_after _)

/-- After a settled action, the next one yields what it would have yielded before. -/
theorem value_bind {action : StateM (SolarHours Zone) α} {next : α → StateM (SolarHours Zone) β}
    (h : Settled action) (hnext : ∀ value, Settled (next value)) (hours : SolarHours Zone) :
    ((action >>= next).run hours).1 = ((next (action.run hours).1).run hours).1 :=
  (hnext _).value_eq (h.agree_after hours).symm

end Settled

theorem SolarHours.settled_record (date : Date) :
    Settled (SolarHours.record date : SolarM Zone SolarRecord).run :=
  ⟨fun hab => hab.known_eq date, fun hours => hours.agree_answer date⟩

/-! ### Evaluations that only ask -/

/-- An action that looks whether there is a source of times and asks for the times of dates, and
does nothing else to the state. -/
inductive Asking : {α : Type} → StateM (SolarHours Zone) α → Prop where
  | look {α : Type} (value : Bool → α) : Asking fun hours => (value hours.isConfigured, hours)
  | record (date : Date) : Asking (SolarHours.record date).run
  | bind {α β : Type} {action : StateM (SolarHours Zone) α} {next : α → StateM (SolarHours Zone) β}
      (first : Asking action) (rest : ∀ value, Asking (next value)) : Asking (action >>= next)

namespace Asking

variable {α : Type} {action : StateM (SolarHours Zone) α}

theorem pure (value : α) : Asking (Pure.pure value : StateM (SolarHours Zone) α) :=
  .look fun _ => value

theorem settled (h : Asking action) : Settled action := by
  induction h with
  | look value =>
    exact ⟨fun hab => congrArg value hab.configured_eq, SolarHours.Agree.refl⟩
  | record date => exact SolarHours.settled_record date
  | bind _ _ hfirst hrest => exact hfirst.bind hrest

/-- All that the action does to the state is to ask for the times of some dates, one after the
other. If it is given up half way, it has asked for the first of them. -/
theorem exists_asked (h : Asking action) :
    ∀ hours, ∃ dates, (action.run hours).2 = hours.askAll dates := by
  induction h with
  | look value => exact fun hours => ⟨[], rfl⟩
  | record date => exact fun hours => ⟨[date], rfl⟩
  | bind _ _ hfirst hrest =>
    intro hours
    obtain ⟨dates, hdates⟩ := hfirst hours
    obtain ⟨later, hlater⟩ := hrest _ (hours.askAll dates)
    refine ⟨dates ++ later, ?_⟩
    rw [SolarHours.askAll_append, ← hlater, ← hdates]
    rfl

/-- What each question leaves behind is related to what was before it, and so is what the action
leaves behind. -/
theorem related {r : SolarHours Zone → SolarHours Zone → Prop} (hrefl : ∀ hours, r hours hours)
    (htrans : ∀ {a b c}, r a b → r b c → r a c)
    (hanswer : ∀ (hours : SolarHours Zone) (date : Date), r hours (hours.answer date).2)
    (h : Asking action) (hours : SolarHours Zone) : r hours (action.run hours).2 := by
  obtain ⟨dates, hdates⟩ := h.exists_asked hours
  rw [hdates]
  exact hours.related_askAll hrefl htrans hanswer dates

end Asking

/-- What an evaluation yields in a state. -/
def outcome {ε α : Type} (evaluation : ExceptT ε (StateM (SolarHours Zone)) α)
    (hours : SolarHours Zone) : Except ε α :=
  (evaluation.run.run hours).1

section Outcome

variable {ε α β : Type} {evaluation : ExceptT ε (StateM (SolarHours Zone)) α}
  {next : α → ExceptT ε (StateM (SolarHours Zone)) β}

theorem asking_pure (value : α) :
    Asking (pure value : ExceptT ε (StateM (SolarHours Zone)) α).run :=
  Asking.pure _

theorem asking_throw (error : ε) :
    Asking (throw error : ExceptT ε (StateM (SolarHours Zone)) α).run :=
  Asking.pure _

theorem asking_bindCont (hnext : ∀ value, Asking (next value).run) (result : Except ε α) :
    Asking (ExceptT.bindCont next result) := by
  cases result with
  | ok value => exact hnext value
  | error error => exact Asking.pure _

theorem asking_bind (h : Asking evaluation.run) (hnext : ∀ value, Asking (next value).run) :
    Asking (evaluation >>= next).run := by
  change Asking (evaluation.run >>= ExceptT.bindCont next)
  exact Asking.bind h (asking_bindCont hnext)

@[simp] theorem outcome_pure (value : α) (hours : SolarHours Zone) :
    outcome (pure value : ExceptT ε (StateM (SolarHours Zone)) α) hours = .ok value := rfl

/-- Evaluations that only ask follow each other as if each began in the first state. -/
theorem outcome_bind (h : Asking evaluation.run) (hnext : ∀ value, Asking (next value).run)
    (hours : SolarHours Zone) :
    outcome (evaluation >>= next) hours
      = outcome evaluation hours >>= fun value => outcome (next value) hours := by
  change ((evaluation.run >>= ExceptT.bindCont next).run hours).1 = _
  rw [h.settled.value_bind fun result => (asking_bindCont hnext result).settled]
  change ((ExceptT.bindCont next (outcome evaluation hours)).run hours).1 = _
  cases outcome evaluation hours <;> rfl

/-- An evaluation after another goes on in the state that the first one leaves, unless it fails. -/
theorem run_bind (evaluation : ExceptT ε (StateM (SolarHours Zone)) α)
    (next : α → ExceptT ε (StateM (SolarHours Zone)) β) (hours : SolarHours Zone) :
    (evaluation >>= next).run.run hours =
      match evaluation.run.run hours with
      | (.ok value, later) => (next value).run.run later
      | (.error error, later) => (.error error, later) := by
  change (ExceptT.bindCont next (evaluation.run.run hours).1).run (evaluation.run.run hours).2 = _
  obtain ⟨value | error, later⟩ := evaluation.run.run hours
  · rfl
  · rfl

theorem Asking.outcome_eq (h : Asking evaluation.run) {a b : SolarHours Zone} (hab : a.Agree b) :
    outcome evaluation a = outcome evaluation b :=
  h.settled.value_eq hab

end Outcome

@[simp] theorem SolarHours.outcome_record (date : Date) (hours : SolarHours Zone) :
    outcome (SolarHours.record date) hours = hours.known date := rfl

end Timetable
