import Mathlib.Data.List.Induction
import Timetable.Proofs.Solar.Sources

/-!
How often the almanac is asked.

What is done to the times of the sun is a list of `SolarStep`s, of which some drop what was computed
(`SolarHours.drops`). A request is passed on to the almanac if the date has no times, neither given
nor kept, and if there is a place (`SolarHours.Consults`). `answer_of_consults` and
`answer_of_not_consults` say all that a request does.

An almanac may answer otherwise from one call to the next: it is revised by a step of which nobody
is told (`SolarStep.revise`). Between two drops the place stays the same all the same, what is kept
are the dates that were answered with times, and each date was asked for once for each request that
was refused, and once more if its times are kept (`SolarHours.Undropped`, carried through the steps
by `Undropped.step`). So the almanac is asked no more often than it has to be: `sparing_history`
says of any history which of its steps make a call, and of any stretch of it between two drops how
often each date is asked for and which dates are kept (`SolarHours.Sparing`).
-/

namespace Timetable

variable {Zone : Type}

/-- Something that is done to the times of the sun: a question or a change. -/
inductive SolarStep (Zone : Type) where
  /-- The times of a date are asked for. -/
  | ask (date : Date)
  | setOverride (date : Date) (record : SolarRecord)
  | removeOverride (date : Date)
  | setDefault (record : Option SolarRecord)
  | setLocation (location : Option (Location Zone))
  | setAlmanac (almanac : Almanac Zone)
  | clear
  /-- From now on the almanac in use answers otherwise. -/
  | revise (times : Date → Location Zone → Option SolarRecord)

namespace SolarHours

variable {hours start now : SolarHours Zone} {steps : List (SolarStep Zone)} {date : Date}

/-! ### What a request does -/

/-- A request for the date is passed on to the almanac. -/
structure Consults (hours : SolarHours Zone) (date : Date) : Prop where
  no_override : hours.overrides[date]? = none
  no_default : hours.default = none
  not_kept : date ∉ hours.cache
  at_place : hours.location.isSome = true

theorem noteCall_eq (h : hours.almanac.noted = true) (date : Date) :
    hours.noteCall date = { hours with calls := date :: hours.calls } :=
  if_pos h

theorem kept_eq_none : hours.cache[date]? = none ↔ date ∉ hours.cache := by
  rw [Std.TreeMap.mem_iff_isSome_getElem?, Bool.not_eq_true, Option.isSome_eq_false_iff,
    Option.isNone_iff_eq_none]

/-- A request that is passed on is noted, and the times that the almanac has are kept. -/
theorem answer_of_consults (h : hours.Consults date) (hnoted : hours.almanac.noted = true) :
    (∃ record, hours.sources.Computes date record ∧ hours.answer date = (.ok record,
        { hours with calls := date :: hours.calls, cache := hours.cache.insert date record })) ∨
      ((∀ record, ¬ hours.sources.Computes date record) ∧ hours.answer date =
        (.error (.unavailable date), { hours with calls := date :: hours.calls })) := by
  have hunknown : (hours.given? date).or hours.cache[date]? = none := by
    rw [given?, h.no_override, h.no_default, kept_eq_none.2 h.not_kept]
    rfl
  rw [answer, hunknown]
  dsimp only
  split
  · rename_i hnowhere
    exact absurd h.at_place (by rw [hnowhere]; exact Bool.noConfusion)
  · rename_i location hlocation
    rw [noteCall_eq hnoted]
    split
    · rename_i htimes
      refine .inr ⟨?_, rfl⟩
      rintro record ⟨place, hplace, hrecord⟩
      obtain rfl : location = place := Option.some.inj (hlocation.symm.trans hplace)
      cases htimes.symm.trans hrecord
    · rename_i record htimes
      exact .inl ⟨record, ⟨location, hlocation, htimes⟩, rfl⟩

/-- A request that is not passed on leaves everything as it is. -/
theorem answer_of_not_consults (h : ¬ hours.Consults date) : (hours.answer date).2 = hours := by
  rw [answer]
  split
  · rfl
  · rename_i hunknown
    obtain ⟨hgiven, hkept⟩ := Option.or_eq_none_iff.1 hunknown
    obtain ⟨hoverride, hdefault⟩ := Option.or_eq_none_iff.1 hgiven
    split
    · rfl
    · rename_i location hlocation
      exact absurd ⟨hoverride, hdefault, kept_eq_none.1 hkept,
        Option.isSome_of_eq_some hlocation⟩ h

/-- Only the almanac says that times are not available. -/
theorem consults_of_unavailable {other : Date}
    (h : (hours.answer date).1 = .error (.unavailable other)) : hours.Consults date := by
  rw [answer] at h
  split at h
  · cases h
  · rename_i hunknown
    obtain ⟨hgiven, hkept⟩ := Option.or_eq_none_iff.1 hunknown
    obtain ⟨hoverride, hdefault⟩ := Option.or_eq_none_iff.1 hgiven
    split at h
    · cases h
    · rename_i location hlocation
      exact ⟨hoverride, hdefault, kept_eq_none.1 hkept, Option.isSome_of_eq_some hlocation⟩

/-- The almanac refuses the requests for which it has no times. -/
theorem not_computes_of_unavailable (hnoted : hours.almanac.noted = true)
    (h : (hours.answer date).1 = .error (.unavailable date)) (record : SolarRecord) :
    ¬ hours.sources.Computes date record := by
  rcases answer_of_consults (consults_of_unavailable h) hnoted with ⟨times, -, heq⟩ | ⟨hnone, -⟩
  · rw [heq] at h
    cases h
  · exact hnone record

/-- Whether a step is a request for the date that the almanac is asked for in vain. -/
def refuses (hours : SolarHours Zone) (date : Date) : SolarStep Zone → Bool
  | .ask other => other = date && (hours.answer date).1 = .error (.unavailable date)
  | _ => false

theorem refuses_ask_of_ne {other : Date} (h : other ≠ date) :
    hours.refuses date (.ask other) = false := by
  rw [refuses, decide_eq_false h, Bool.false_and]

variable [BEq Zone]

/-! ### Steps -/

/-- What is known after a step. -/
def step (hours : SolarHours Zone) : SolarStep Zone → SolarHours Zone
  | .ask date => (hours.answer date).2
  | .setOverride date record => hours.setOverride date record
  | .removeOverride date => hours.removeOverride date
  | .setDefault record => hours.setDefault record
  | .setLocation location => hours.setLocation location
  | .setAlmanac almanac => hours.setAlmanac almanac
  | .clear => hours.clear
  | .revise times => { hours with almanac := { hours.almanac with times } }

/-- What is known after several steps. -/
def after (hours : SolarHours Zone) (steps : List (SolarStep Zone)) : SolarHours Zone :=
  steps.foldl step hours

/-- Whether a step drops what was computed. A move does so unless the place stays the same. -/
def drops (hours : SolarHours Zone) : SolarStep Zone → Bool
  | .clear | .setAlmanac _ => true
  | .setLocation location => !(hours.location == location)
  | _ => false

/-- A move that drops nothing changes nothing. -/
theorem step_setLocation {location : Option (Location Zone)}
    (h : hours.drops (.setLocation location) = false) :
    hours.step (.setLocation location) = hours := by
  have hsame : (hours.location == location) = true := by simpa [drops] using h
  exact if_pos hsame

@[simp] theorem after_nil (hours : SolarHours Zone) : hours.after [] = hours := rfl

@[simp] theorem after_append (hours : SolarHours Zone) (earlier later : List (SolarStep Zone)) :
    hours.after (earlier ++ later) = (hours.after earlier).after later :=
  List.foldl_append

@[simp] theorem after_cons (hours : SolarHours Zone) (step : SolarStep Zone)
    (later : List (SolarStep Zone)) :
    hours.after (step :: later) = (hours.step step).after later := rfl

/-! ### Calls -/

/-- The step makes the call that it has to make, and no other. -/
structure CallsIfNeeded (hours : SolarHours Zone) (step : SolarStep Zone) : Prop where
  called : ∀ date, step = .ask date → hours.Consults date →
    (hours.step step).calls = date :: hours.calls
  quiet : (∀ date, step = .ask date → ¬ hours.Consults date) →
    (hours.step step).calls = hours.calls

theorem callsIfNeeded (hnoted : hours.almanac.noted = true) (step : SolarStep Zone) :
    hours.CallsIfNeeded step := by
  cases step with
  | ask date =>
    constructor
    · rintro _ ⟨⟩ hconsults
      rw [SolarHours.step]
      rcases answer_of_consults hconsults hnoted with ⟨record, -, heq⟩ | ⟨-, heq⟩
      · rw [heq]
      · rw [heq]
    · intro hquiet
      rw [SolarHours.step, answer_of_not_consults (hquiet date rfl)]
  | setLocation location =>
    refine ⟨(fun _ h _ => nomatch h), fun _ => ?_⟩
    rw [SolarHours.step, setLocation]
    split <;> rfl
  | _ => exact ⟨(fun _ h _ => nomatch h), fun _ => rfl⟩

/-! ### Between two drops -/

/-- Among the steps is a request that the almanac is asked for and has the times of. -/
def AnsweredIn (start : SolarHours Zone) (steps : List (SolarStep Zone)) (date : Date) : Prop :=
  ∃ earlier later record, steps = earlier ++ .ask date :: later ∧
    (start.after earlier).Consults date ∧ ((start.after earlier).answer date).1 = .ok record

/-- How often the almanac is asked for a date in vain. -/
def refusals (start : SolarHours Zone) : List (SolarStep Zone) → Date → Nat
  | [], _ => 0
  | step :: later, date =>
    (if start.refuses date step then 1 else 0) + (start.step step).refusals later date

/-- The steps drop nothing. -/
def KeepsAll (start : SolarHours Zone) (steps : List (SolarStep Zone)) : Prop :=
  ∀ earlier step later, steps = earlier ++ step :: later →
    (start.after earlier).drops step = false

/-- What is known after steps that drop nothing, if nothing was computed before them. -/
structure Undropped (start : SolarHours Zone) (steps : List (SolarStep Zone))
    (now : SolarHours Zone) : Prop where
  noted_eq : now.almanac.noted = start.almanac.noted
  location_eq : now.location = start.location
  kept_iff : ∀ date : Date, date ∈ now.cache ↔ start.AnsweredIn steps date
  /-- A date was asked for once for each refusal, and once more if its times are kept. -/
  exists_log : ∃ log, now.calls = log ++ start.calls ∧ ∀ date : Date,
    log.count date = start.refusals steps date + if date ∈ now.cache then 1 else 0

theorem answeredIn_concat {step : SolarStep Zone} : start.AnsweredIn (steps ++ [step]) date ↔
    start.AnsweredIn steps date ∨ step = .ask date ∧ (start.after steps).Consults date ∧
      ∃ record, ((start.after steps).answer date).1 = .ok record := by
  constructor
  · rintro ⟨earlier, later, record, heq, hconsults, hanswer⟩
    rcases List.eq_nil_or_concat later with rfl | ⟨between, last, rfl⟩
    · obtain ⟨rfl, hstep⟩ := List.append_inj' heq rfl
      exact .inr ⟨List.singleton_inj.1 hstep, hconsults, record, hanswer⟩
    · rw [List.concat_eq_append, ← List.cons_append, ← List.append_assoc] at heq
      obtain ⟨rfl, -⟩ := List.append_inj' heq rfl
      exact .inl ⟨earlier, between, record, rfl, hconsults, hanswer⟩
  · rintro (⟨earlier, later, record, rfl, hconsults, hanswer⟩ | ⟨rfl, hconsults, record, hanswer⟩)
    · exact ⟨earlier, later ++ [step], record, by simp, hconsults, hanswer⟩
    · exact ⟨steps, [], record, rfl, hconsults, hanswer⟩

theorem refusals_concat (start : SolarHours Zone) (steps : List (SolarStep Zone))
    (step : SolarStep Zone) (date : Date) : start.refusals (steps ++ [step]) date =
      start.refusals steps date + if (start.after steps).refuses date step then 1 else 0 := by
  induction steps generalizing start with
  | nil => exact Nat.add_comm _ _
  | cons first steps ih => rw [List.cons_append, refusals, ih, refusals, after_cons, Nat.add_assoc]

namespace Undropped

theorem nil (h : start.cache = {}) : Undropped start [] start where
  noted_eq := rfl
  location_eq := rfl
  kept_iff date := by
    rw [h]
    refine iff_of_false Std.TreeMap.not_mem_emptyc ?_
    rintro ⟨earlier, later, -, heq, -⟩
    simp at heq
  exists_log := ⟨[], rfl, fun date => by rw [h, if_neg Std.TreeMap.not_mem_emptyc]; rfl⟩

/-- A step that the almanac is not asked for, and that changes nothing that is kept. -/
theorem other (h : Undropped start steps (start.after steps)) {later : SolarHours Zone}
    {step : SolarStep Zone}
    (hnoted : later.almanac.noted = (start.after steps).almanac.noted)
    (hlocation : later.location = (start.after steps).location)
    (hcache : later.cache = (start.after steps).cache)
    (hcalls : later.calls = (start.after steps).calls)
    (hquiet : ∀ date, step = .ask date → ¬ (start.after steps).Consults date) :
    Undropped start (steps ++ [step]) later where
  noted_eq := hnoted.trans h.noted_eq
  location_eq := hlocation.trans h.location_eq
  kept_iff date := by
    rw [hcache, h.kept_iff, answeredIn_concat]
    exact (or_iff_left fun hask => hquiet date hask.1 hask.2.1).symm
  exists_log := by
    have hrefuses : ∀ date, (start.after steps).refuses date step = false := by
      intro date
      cases step with
      | ask other =>
        rw [refuses, Bool.and_eq_false_iff]
        by_cases hsame : other = date
        · subst hsame
          refine .inr (decide_eq_false fun hanswer => ?_)
          exact hquiet other rfl (consults_of_unavailable hanswer)
        · exact .inl (decide_eq_false hsame)
      | _ => rfl
    simp only [hcache, hcalls, refusals_concat, hrefuses, Bool.false_eq_true, if_false,
      Nat.add_zero]
    exact h.exists_log

/-- A request that is answered by the almanac: the times are kept from now on. -/
theorem keep (h : Undropped start steps (start.after steps)) {record : SolarRecord}
    (hconsults : (start.after steps).Consults date)
    (hanswer : ((start.after steps).answer date).1 = .ok record) :
    Undropped start (steps ++ [.ask date])
      { start.after steps with
        calls := date :: (start.after steps).calls
        cache := (start.after steps).cache.insert date record } := by
  have hmem : ∀ other : Date, other ∈ (start.after steps).cache.insert date record ↔
      date = other ∨ other ∈ (start.after steps).cache := by
    intro other
    rw [Std.TreeMap.mem_insert, Std.LawfulEqOrd.compare_eq_iff_eq]
  obtain ⟨log, hlog, hcount⟩ := h.exists_log
  refine ⟨h.noted_eq, h.location_eq, fun other => ?_, date :: log, congrArg (date :: ·) hlog,
    fun other => ?_⟩
  · rw [answeredIn_concat, hmem, h.kept_iff]
    constructor
    · rintro (rfl | hbefore)
      · exact .inr ⟨rfl, hconsults, record, hanswer⟩
      · exact .inl hbefore
    · rintro (hbefore | ⟨hask, -⟩)
      · exact .inr hbefore
      · exact .inl (SolarStep.ask.inj hask)
  · rw [refusals_concat]
    by_cases hsame : date = other
    · subst hsame
      have hrefuses : (start.after steps).refuses date (.ask date) = false := by
        rw [refuses, hanswer]
        simp
      rw [List.count_cons_self, hcount date, if_neg hconsults.not_kept, hrefuses,
        if_pos ((hmem date).2 (.inl rfl))]
      rfl
    · rw [List.count_cons_of_ne hsame, hcount other, refuses_ask_of_ne hsame]
      exact congrArg _ (if_congr ((hmem other).trans (or_iff_right hsame)).symm rfl rfl)

/-- A request for which the almanac has no times. -/
theorem miss (h : Undropped start steps (start.after steps))
    (hanswer : ((start.after steps).answer date).1 = .error (.unavailable date)) :
    Undropped start (steps ++ [.ask date])
      { start.after steps with calls := date :: (start.after steps).calls } := by
  obtain ⟨log, hlog, hcount⟩ := h.exists_log
  refine ⟨h.noted_eq, h.location_eq, fun other => ?_, date :: log, congrArg (date :: ·) hlog,
    fun other => ?_⟩
  · rw [answeredIn_concat, ← h.kept_iff]
    refine (or_iff_left ?_).symm
    rintro ⟨hask, -, record, hrecord⟩
    obtain rfl := SolarStep.ask.inj hask
    cases hanswer.symm.trans hrecord
  · rw [refusals_concat]
    by_cases hsame : date = other
    · subst hsame
      have hrefuses : (start.after steps).refuses date (.ask date) = true := by
        rw [refuses, hanswer]
        simp
      rw [List.count_cons_self, hcount date, hrefuses, if_pos rfl, Nat.add_right_comm]
    · rw [List.count_cons_of_ne hsame, hcount other, refuses_ask_of_ne hsame]
      rfl

theorem ask (h : Undropped start steps (start.after steps))
    (hnoted : start.almanac.noted = true) (date : Date) :
    Undropped start (steps ++ [.ask date]) ((start.after steps).step (.ask date)) := by
  by_cases hconsults : (start.after steps).Consults date
  · rcases answer_of_consults hconsults (h.noted_eq.trans hnoted) with
      ⟨record, -, heq⟩ | ⟨-, heq⟩
    · have hstep := h.keep hconsults (congrArg Prod.fst heq)
      rw [SolarHours.step, heq]
      exact hstep
    · have hstep := h.miss (congrArg Prod.fst heq)
      rw [SolarHours.step, heq]
      exact hstep
  · rw [SolarHours.step, answer_of_not_consults hconsults]
    refine h.other rfl rfl rfl rfl fun other hask => ?_
    obtain rfl := SolarStep.ask.inj hask
    exact hconsults

/-- A step that drops nothing. -/
theorem step (h : Undropped start steps (start.after steps))
    (hnoted : start.almanac.noted = true) {step : SolarStep Zone}
    (hkeeps : (start.after steps).drops step = false) :
    Undropped start (steps ++ [step]) ((start.after steps).step step) := by
  cases step with
  | ask date => exact h.ask hnoted date
  | setLocation location =>
    rw [step_setLocation hkeeps]
    exact h.other rfl rfl rfl rfl fun _ hask => nomatch hask
  | setAlmanac _ | clear => cases hkeeps
  | _ => exact h.other rfl rfl rfl rfl fun _ hask => nomatch hask

end Undropped

/-- Steps that drop nothing, after nothing was computed. -/
theorem undropped (hempty : start.cache = {}) (hnoted : start.almanac.noted = true)
    (hkeeps : start.KeepsAll steps) : Undropped start steps (start.after steps) := by
  induction steps using List.reverseRecOn with
  | nil => exact .nil hempty
  | append_singleton steps step ih =>
    have hbefore : start.KeepsAll steps := fun earlier other later heq =>
      hkeeps earlier other (later ++ [step]) (by rw [heq, List.append_assoc]; rfl)
    rw [after_append]
    exact (ih hbefore).step hnoted (hkeeps steps step [] rfl)

theorem KeepsAll.left {later : List (SolarStep Zone)} (h : start.KeepsAll (steps ++ later)) :
    start.KeepsAll steps := fun earlier step rest heq =>
  h earlier step (rest ++ later) (by rw [heq, List.append_assoc]; rfl)

theorem KeepsAll.right {later : List (SolarStep Zone)} (h : start.KeepsAll (steps ++ later)) :
    (start.after steps).KeepsAll later := fun earlier step rest heq => by
  rw [← after_append]
  exact h (steps ++ earlier) step rest (by rw [heq, List.append_assoc])

/-! ### Almanacs that answer alike -/

/-- The almanac is not revised on the way. -/
def Steady (steps : List (SolarStep Zone)) : Prop := ∀ times, .revise times ∉ steps

theorem computes_step_iff {step : SolarStep Zone} (hkeeps : hours.drops step = false)
    (hsteady : ∀ times, step ≠ .revise times) {record : SolarRecord} :
    (hours.step step).sources.Computes date record ↔ hours.sources.Computes date record := by
  cases step with
  | ask date => rw [step, (Grows.answer hours date).sources_eq]
  | setLocation location => rw [step_setLocation hkeeps]
  | setAlmanac _ | clear => cases hkeeps
  | revise times => exact absurd rfl (hsteady times)
  | _ => exact Iff.rfl

/-- What is kept after a step was kept before it, or the almanac has its times. -/
theorem kept_step {step : SolarStep Zone} (hkeeps : hours.drops step = false)
    (h : date ∈ (hours.step step).cache) :
    date ∈ hours.cache ∨ ∃ record, hours.sources.Computes date record := by
  cases step with
  | ask other =>
    have hgained :=
      (Grows.answer hours other).gained date _ (Std.TreeMap.getElem?_eq_some_getElem h)
    refine hgained.imp (fun hkept => ?_) fun hcomputes => ⟨_, hcomputes⟩
    exact Std.TreeMap.mem_iff_isSome_getElem?.2 (Option.isSome_of_eq_some hkept)
  | setLocation location => exact .inl (step_setLocation hkeeps ▸ h)
  | setAlmanac _ | clear => cases hkeeps
  | _ => exact .inl h

theorem KeepsAll.computes_iff (h : start.KeepsAll steps) (hsteady : Steady steps)
    {record : SolarRecord} :
    (start.after steps).sources.Computes date record ↔ start.sources.Computes date record := by
  induction steps using List.reverseRecOn with
  | nil => exact Iff.rfl
  | append_singleton steps step ih =>
    have hsteady' : Steady steps := fun times hmem => hsteady times (List.mem_append_left _ hmem)
    have hlast : ∀ times, step ≠ .revise times := fun times heq =>
      hsteady times (heq ▸ List.mem_append_right _ List.mem_cons_self)
    rw [after_append]
    exact (computes_step_iff (h steps step [] rfl) hlast).trans (ih h.left hsteady')

/-- A date that is not kept, and that an almanac which answers alike does not have the times of, is
not kept later, either. -/
theorem KeepsAll.not_kept (h : start.KeepsAll steps) (hsteady : Steady steps)
    (hnone : ∀ record, ¬ start.sources.Computes date record) (hkept : date ∉ start.cache) :
    date ∉ (start.after steps).cache := by
  induction steps using List.reverseRecOn with
  | nil => exact hkept
  | append_singleton steps step ih =>
    have hsteady' : Steady steps := fun times hmem => hsteady times (List.mem_append_left _ hmem)
    rw [after_append]
    intro hlater
    rcases kept_step (h steps step [] rfl) hlater with hbefore | ⟨record, hcomputes⟩
    · exact ih h.left hsteady' hbefore
    · exact hnone record ((h.left.computes_iff hsteady').1 hcomputes)

/-- An almanac that answers alike never refuses a date that it has the times of. -/
theorem refusals_eq_zero (hempty : start.cache = {}) (hnoted : start.almanac.noted = true)
    (hkeeps : start.KeepsAll steps) (hsteady : Steady steps) {record : SolarRecord}
    (hcomputes : start.sources.Computes date record) : start.refusals steps date = 0 := by
  induction steps using List.reverseRecOn with
  | nil => rfl
  | append_singleton steps step ih =>
    have hsteady' : Steady steps := fun times hmem =>
      hsteady times (List.mem_append_left _ hmem)
    have hnow := undropped hempty hnoted hkeeps.left
    have hrefuses : (start.after steps).refuses date step = false := by
      cases step with
      | ask other =>
        by_cases hsame : other = date
        · subst hsame
          rw [refuses, decide_eq_true rfl, Bool.true_and, decide_eq_false_iff_not]
          intro hanswer
          exact not_computes_of_unavailable (hnow.noted_eq.trans hnoted) hanswer record
            ((hkeeps.left.computes_iff hsteady').2 hcomputes)
        · exact refuses_ask_of_ne hsame
      | _ => rfl
    rw [refusals_concat, hrefuses, ih hkeeps.left hsteady']
    rfl

/-- A date that an almanac answers with times, it has the times of from the beginning. -/
theorem AnsweredIn.exists_computes (h : start.AnsweredIn steps date) (hempty : start.cache = {})
    (hnoted : start.almanac.noted = true) (hkeeps : start.KeepsAll steps)
    (hsteady : Steady steps) : ∃ record, start.sources.Computes date record := by
  obtain ⟨earlier, later, record, rfl, hconsults, hanswer⟩ := h
  have hnow := undropped hempty hnoted hkeeps.left
  have hsteady' : Steady earlier := fun times hmem => hsteady times (List.mem_append_left _ hmem)
  rcases answer_of_consults hconsults (hnow.noted_eq.trans hnoted) with
    ⟨times, hcomputes, -⟩ | ⟨-, heq⟩
  · exact ⟨times, (hkeeps.left.computes_iff hsteady').1 hcomputes⟩
  · rw [heq] at hanswer
    cases hanswer

/-! ### Histories -/

/-- In steps that drop nothing, the almanac is asked no more often than it has to be, however it
answers from call to call. -/
structure Sparing (start : SolarHours Zone) (steps : List (SolarStep Zone)) : Prop where
  /-- Once it has answered a request for a date with times, it is not asked for the date again. -/
  answered_once : ∀ earlier between later date record,
    steps = earlier ++ .ask date :: (between ++ later) →
    (start.after earlier).Consults date → ((start.after earlier).answer date).1 = .ok record →
    ¬ (start.after (earlier ++ .ask date :: between)).Consults date
  /-- It is asked for a date once for each refusal, and once more if it has answered with times; as
  long as it answers alike, it is asked once for a date that it has the times of. -/
  once : ∃ log, (start.after steps).calls = log ++ start.calls ∧
    (∀ date : Date, log.count date =
      start.refusals steps date + if date ∈ (start.after steps).cache then 1 else 0) ∧
    (Steady steps → ∀ date, start.AnsweredIn steps date → log.count date = 1)
  /-- A failure is not kept: for a date that it does not have the times of, it is asked again at
  every request that is passed on for want of given times, until it answers one with times; and as
  long as it answers alike, it fails again. -/
  again : ∀ earlier between later date,
    steps = earlier ++ .ask date :: (between ++ .ask date :: later) →
    (start.after earlier).Consults date →
    ((start.after earlier).answer date).1 = .error (.unavailable date) →
    let before := start.after (earlier ++ .ask date :: between)
    before.overrides[date]? = none → before.default = none →
    (¬ start.AnsweredIn (earlier ++ .ask date :: between) date → before.Consults date) ∧
      (Steady between →
        before.Consults date ∧ (before.answer date).1 = .error (.unavailable date))
  /-- The dates that are kept are those that it was asked for and has the times of. -/
  kept_iff : ∀ date, date ∈ (start.after steps).cache.keys ↔ start.AnsweredIn steps date

/-- Nothing has happened yet, or the last step has dropped what was computed. -/
def DroppedLast (start : SolarHours Zone) (steps : List (SolarStep Zone)) : Prop :=
  steps = [] ∨ ∃ earlier step, steps = earlier ++ [step] ∧ (start.after earlier).drops step = true

theorem cache_of_drops {step : SolarStep Zone} (h : hours.drops step = true) :
    (hours.step step).cache = {} := by
  cases step with
  | setAlmanac _ | clear => rfl
  | setLocation location =>
    have hother : ¬ (hours.location == location) = true := by simpa [drops] using h
    rw [step, setLocation, if_neg hother]
  | _ => cases h

theorem DroppedLast.cache_eq (hempty : start.cache = {}) (h : start.DroppedLast steps) :
    (start.after steps).cache = {} := by
  obtain rfl | ⟨earlier, step, rfl, hdrops⟩ := h
  · exact hempty
  · rw [after_append]
    exact cache_of_drops hdrops

theorem noted_step {step : SolarStep Zone} (h : ∀ almanac, step ≠ .setAlmanac almanac) :
    (hours.step step).almanac.noted = hours.almanac.noted := by
  cases step with
  | ask date =>
    exact congrArg (·.almanac.noted) (Grows.answer hours date).sources_eq
  | setAlmanac almanac => exact absurd rfl (h almanac)
  | setLocation location =>
    rw [step, setLocation]
    split <;> rfl
  | _ => rfl

/-- If all almanacs note their calls, the one in use does. -/
theorem noted_after (hnoted : start.almanac.noted = true)
    (hsteps : ∀ almanac, .setAlmanac almanac ∈ steps → almanac.noted = true) :
    (start.after steps).almanac.noted = true := by
  induction steps generalizing start with
  | nil => exact hnoted
  | cons step steps ih =>
    refine ih ?_ fun almanac hmem => hsteps almanac (List.mem_cons_of_mem _ hmem)
    by_cases hset : ∃ almanac, step = .setAlmanac almanac
    · obtain ⟨almanac, rfl⟩ := hset
      exact hsteps almanac List.mem_cons_self
    · rw [noted_step fun almanac heq => hset ⟨almanac, heq⟩]
      exact hnoted

theorem sparing_of_keepsAll (hempty : start.cache = {}) (hnoted : start.almanac.noted = true)
    (hkeeps : start.KeepsAll steps) : start.Sparing steps where
  answered_once := by
    rintro earlier between later date record rfl hconsults hanswer hagain
    have hkeeps' : start.KeepsAll ((earlier ++ .ask date :: between) ++ later) := by
      simpa using hkeeps
    have hkept := ((undropped hempty hnoted hkeeps'.left).kept_iff date).2
      ⟨earlier, between, record, rfl, hconsults, hanswer⟩
    exact hagain.not_kept hkept
  once := by
    have h := undropped hempty hnoted hkeeps
    obtain ⟨log, hlog, hcount⟩ := h.exists_log
    refine ⟨log, hlog, hcount, fun hsteady date hanswered => ?_⟩
    obtain ⟨record, hcomputes⟩ := hanswered.exists_computes hempty hnoted hkeeps hsteady
    rw [hcount date, refusals_eq_zero hempty hnoted hkeeps hsteady hcomputes,
      if_pos ((h.kept_iff date).2 hanswered)]
  again := by
    rintro earlier between later date rfl hconsults hanswer before hoverride hdefault
    have hfirst := undropped hempty hnoted hkeeps.left
    have hkeeps' : start.KeepsAll ((earlier ++ .ask date :: between) ++ .ask date :: later) := by
      simpa using hkeeps
    have hsecond : Undropped start (earlier ++ .ask date :: between) before :=
      undropped hempty hnoted hkeeps'.left
    have hplace : before.location.isSome = true := by
      rw [hsecond.location_eq, ← hfirst.location_eq]
      exact hconsults.at_place
    have hagain : ¬ start.AnsweredIn (earlier ++ .ask date :: between) date →
        before.Consults date := fun hunanswered =>
      ⟨hoverride, hdefault, fun hkept => hunanswered ((hsecond.kept_iff date).1 hkept), hplace⟩
    refine ⟨hagain, fun hsteady => ?_⟩
    -- From the first request on, the almanac and the place stay the same.
    have hbetween : (start.after earlier).KeepsAll (.ask date :: between) := hkeeps'.left.right
    have hsteady' : Steady (.ask date :: between) := fun times hmem =>
      (List.mem_cons.1 hmem).elim nofun (hsteady times)
    have hnone := not_computes_of_unavailable (hfirst.noted_eq.trans hnoted) hanswer
    have hafter : before = (start.after earlier).after (.ask date :: between) := after_append ..
    have hconsults' : before.Consults date := by
      refine ⟨hoverride, hdefault, ?_, hplace⟩
      rw [hafter]
      exact hbetween.not_kept hsteady' hnone hconsults.not_kept
    refine ⟨hconsults', ?_⟩
    rcases answer_of_consults hconsults' (hsecond.noted_eq.trans hnoted) with
      ⟨record, hcomputes, -⟩ | ⟨-, heq⟩
    · rw [hafter, hbetween.computes_iff hsteady'] at hcomputes
      exact absurd hcomputes (hnone record)
    · exact congrArg Prod.fst heq
  kept_iff date := by
    rw [Std.TreeMap.mem_keys]
    exact (undropped hempty hnoted hkeeps).kept_iff date

/-- In any history with almanacs that note their calls, each step makes just the call that it has to
make, and between two drops the almanac is asked no more often than it has to be. -/
theorem sparing_history {sources : SolarSources Zone} (hnoted : sources.almanac.noted = true)
    {history : List (SolarStep Zone)}
    (hhistory : ∀ almanac, .setAlmanac almanac ∈ history → almanac.noted = true) :
    (∀ earlier step later, history = earlier ++ step :: later →
      (sources.fresh.after earlier).CallsIfNeeded step) ∧
    ∀ before stretch later, history = before ++ (stretch ++ later) →
      sources.fresh.DroppedLast before → (sources.fresh.after before).KeepsAll stretch →
      (sources.fresh.after before).Sparing stretch := by
  have hnow : ∀ before later, history = before ++ later →
      (sources.fresh.after before).almanac.noted = true := fun before later heq =>
    noted_after hnoted fun almanac hmem => hhistory almanac (heq ▸ List.mem_append_left _ hmem)
  constructor
  · intro earlier step later heq
    exact callsIfNeeded (hnow earlier _ heq) step
  · intro before stretch later heq hdropped hkeeps
    exact sparing_of_keepsAll (hdropped.cache_eq rfl) (hnow before _ heq) hkeeps

end SolarHours

namespace SolarStep

/-- An almanac that notes its calls, is replaced once, and has no times at first; an override comes
and goes between the requests. -/
def fitful : List (SolarStep Unit) :=
  [.setLocation (some ⟨⟨1, 1, by decide⟩, ()⟩), .ask default, .setAlmanac (.noting .silent),
    .ask default, .revise fun _ _ => some default, .ask default, .setOverride default default,
    .ask default, .removeOverride default, .ask default]

/-- The almanac refuses the second request and answers the third one; it is not asked again. -/
theorem sparing_fitful :
    let sources : SolarSources Unit := { almanac := .noting .silent }
    sources.almanac.noted = true ∧
      (∀ almanac, .setAlmanac almanac ∈ fitful → almanac.noted = true) ∧
      sources.fresh.DroppedLast (fitful.take 3) ∧
      (sources.fresh.after (fitful.take 3)).KeepsAll (fitful.drop 3) ∧
      (sources.fresh.after (fitful.take 3)).Sparing (fitful.drop 3) ∧
      (sources.fresh.after fitful).calls = [default, default, default] := by
  intro sources
  have hnoted : ∀ almanac, .setAlmanac almanac ∈ fitful → almanac.noted = true := by
    intro almanac hmem
    simp only [fitful, List.mem_cons, reduceCtorEq, SolarStep.setAlmanac.injEq, false_or,
      List.not_mem_nil, or_false] at hmem
    exact hmem ▸ rfl
  have hdropped : sources.fresh.DroppedLast (fitful.take 3) :=
    .inr ⟨fitful.take 2, .setAlmanac (.noting .silent), rfl, rfl⟩
  have hkeeps : (sources.fresh.after (fitful.take 3)).KeepsAll (fitful.drop 3) := by
    intro earlier step later heq
    have hmem : step ∈ fitful.drop 3 := heq ▸ List.mem_append_right _ List.mem_cons_self
    simp only [fitful, List.drop_succ_cons, List.drop_zero, List.mem_cons, List.not_mem_nil,
      or_false] at hmem
    rcases hmem with rfl | rfl | rfl | rfl | rfl | rfl | rfl <;> rfl
  have hhistory := @SolarHours.sparing_history _ _ sources rfl fitful hnoted
  exact ⟨rfl, hnoted, hdropped, hkeeps,
    hhistory.2 (fitful.take 3) (fitful.drop 3) [] (by rw [List.append_nil, List.take_append_drop])
      hdropped hkeeps, by rfl⟩

end SolarStep

end Timetable
