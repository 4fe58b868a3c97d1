import Timetable.Proofs.Evaluation.Coverage

/-!
The periods that a cursor finds one by one.

What a cursor has still to tell (`PeriodCursor.tellings`) is a list: the periods up to the first
date that cannot be evaluated, and the error of that date. Each answer is the head of this list and
leaves the tail (`answers_next`), so that the answers of a cursor are the elements of the list, and
nothing after them (`nextTimes_eq`). `periodsBetween_exact` says which instants the periods between
two bounds cover if all dates can be evaluated.

How an answer is found is told once (`run_next_induction`): without any date, on a date that fails,
or after a date was evaluated.
-/

namespace Timetable

variable {Zone : Type}

open Agenda

variable {agenda : Agenda} {hours : SolarHours Zone}

namespace Period

/-- Periods as they are told: joined, if they are to be merged. -/
def told (merge : Bool) (periods : List Period) : List Period :=
  if merge then mergeAll periods else periods

theorem told_cons_of_meet {current next : Period} (h : current.stop = next.start)
    (rest : List Period) :
    told true (current :: next :: rest) = told true (⟨current.start, next.stop⟩ :: rest) := by
  simp only [told, mergeAll, mergeInto, h, ↓reduceIte]

theorem told_cons_of_apart {current next : Period} (h : current.stop ≠ next.start)
    (rest : List Period) :
    told true (current :: next :: rest) = current :: told true (next :: rest) := by
  simp only [told, mergeAll, mergeInto, h, ↓reduceIte]

theorem InOrder.told {periods : List Period} (h : InOrder periods) (merge : Bool) :
    InOrder (told merge periods) := by
  cases merge with
  | false => exact h
  | true =>
    obtain ⟨hapart, hnonempty⟩ := apart_mergeAll h
    exact ⟨hnonempty, hapart.imp Int.le_of_lt⟩

theorem cover_told (merge : Bool) {periods : List Period} (h : InOrder periods)
    (instant : Instant) : Cover (Period.told merge periods) instant ↔ Cover periods instant := by
  cases merge with
  | false => rfl
  | true => exact cover_mergeAll h instant

end Period

open Period

namespace PeriodCursor

/-! ### Taking from a queue -/

/-- What the periods that are pending and queued give is the first of all that are told. -/
theorem told_of_take {merge : Bool} (queue : List Period) :
    ∀ {pending : Option Period}, (merge = false → pending = none) → ∀ later : List Period,
      match take merge pending queue with
      | .complete period pending' queue' =>
        told merge (pending.toList ++ queue ++ later) =
            period :: told merge (pending'.toList ++ queue' ++ later) ∧
          (merge = false → pending' = none)
      | .incomplete pending' =>
        told merge (pending.toList ++ queue ++ later) = told merge (pending'.toList ++ later) ∧
          (merge = false → pending' = none) := by
  induction queue with
  | nil =>
    intro pending hpending later
    rw [List.append_nil]
    exact ⟨rfl, hpending⟩
  | cons next queue ih =>
    intro pending hpending later
    cases merge with
    | false =>
      obtain rfl := hpending rfl
      exact ⟨rfl, fun _ => rfl⟩
    | true =>
      cases pending with
      | none => exact ih nofun later
      | some before =>
        by_cases hmeet : before.stop = next.start
        · simp only [take, hmeet, ↓reduceIte, Option.toList_some, List.cons_append, List.nil_append]
          rw [told_cons_of_meet hmeet]
          exact ih nofun later
        · simp only [take, hmeet, ↓reduceIte, Option.toList_some, List.cons_append, List.nil_append]
          exact ⟨told_cons_of_apart hmeet _, nofun⟩

/-! ### What is still to be told -/

/-- The periods of the dates that are still to be evaluated, and what goes wrong with them. -/
def later (agenda : Agenda) (hours : SolarHours Zone) (cursor : PeriodCursor) :
    List Period × Option SolarError :=
  match cursor.day with
  | none => ([], none)
  | some date => agenda.toldFrom hours cursor.lower cursor.upper cursor.daysLeft date

/-- All that is still to be told: periods, and then an error if a date cannot be evaluated. -/
def tellings (agenda : Agenda) (hours : SolarHours Zone) (cursor : PeriodCursor) :
    List (Except SolarError Period) :=
  match cursor.failure with
  | some error => [.error error]
  | none =>
    let rest := cursor.later agenda hours
    (told cursor.merge (cursor.pending.toList ++ cursor.queue ++ rest.1)).map .ok ++
      (rest.2.map .error).toList

/-- Places that an enumeration may come to: nothing is pending unless periods are merged, and no
date after the last one is evaluated. -/
structure Coherent (cursor : PeriodCursor) : Prop where
  pending_eq : cursor.merge = false → cursor.pending = none
  day_le : ∀ date ∈ cursor.day, date ≤ cursor.last

theorem day_le_following? (cursor : PeriodCursor) (date : Date) :
    ∀ next ∈ cursor.following? date, next ≤ cursor.last := by
  intro next hnext
  unfold following? at hnext
  split at hnext
  · split at hnext
    · rename_i hle
      exact Option.some.inj hnext ▸ hle
    · cases hnext
  · cases hnext

theorem coherent_finished (cursor : PeriodCursor) : Coherent cursor.finished :=
  ⟨fun _ => rfl, fun _ hday => nomatch hday⟩

theorem tellings_finished (agenda : Agenda) (hours : SolarHours Zone) (cursor : PeriodCursor) :
    cursor.finished.tellings agenda hours = [] := by
  unfold tellings finished later told
  cases cursor.merge <;> rfl

theorem toldFrom_congr {a b : SolarHours Zone} (h : a.Agree b) (agenda : Agenda)
    (lower upper : Option Instant) (count : Nat) : ∀ date,
      agenda.toldFrom a lower upper count date = agenda.toldFrom b lower upper count date := by
  induction count with
  | zero => exact fun _ => rfl
  | succ count ih =>
    intro date
    have hschedule : agenda.scheduleOn a date = agenda.scheduleOn b date :=
      (asking_scheduleAt agenda date).outcome_eq h
    simp only [toldFrom, hschedule, ih]

theorem tellings_congr {a b : SolarHours Zone} (h : a.Agree b) (agenda : Agenda)
    (cursor : PeriodCursor) : cursor.tellings agenda a = cursor.tellings agenda b := by
  have hlater : cursor.later agenda a = cursor.later agenda b := by
    unfold later
    cases cursor.day with
    | none => rfl
    | some date => exact toldFrom_congr h agenda _ _ _ date
  simp only [tellings, hlater]

/-- The date after another is the next one to evaluate, or none is left. -/
theorem following?_cases {cursor : PeriodCursor} {date : Date} (h : Coherent cursor)
    (hday : cursor.day = some date) :
    (∃ next, date.next? = some next ∧ cursor.following? date = some next ∧
        (cursor.last.number - date.number).toNat = (cursor.last.number - next.number).toNat + 1) ∨
      cursor.following? date = none ∧
        (date.next? = none ∨ (cursor.last.number - date.number).toNat = 0) := by
  have hle := Date.le_iff.1 (h.day_le date hday)
  unfold following?
  cases hnext : date.next? with
  | none => exact .inr ⟨rfl, .inl rfl⟩
  | some next =>
    have hnumber := Date.number_next? hnext
    by_cases hlast : next ≤ cursor.last
    · have hlast' := Date.le_iff.1 hlast
      exact .inl ⟨next, rfl, if_pos hlast, by omega⟩
    · have hlast' := mt Date.le_iff.2 hlast
      exact .inr ⟨if_neg hlast, .inr (by omega)⟩

/-- The dates after one that could be evaluated. -/
theorem later_of_day {cursor : PeriodCursor} {date : Date} {schedule : Schedule}
    (h : Coherent cursor) (hday : cursor.day = some date)
    (hschedule : agenda.scheduleOn hours date = .ok schedule) (queue : List Period)
    (pending : Option Period) :
    cursor.later agenda hours =
      let rest := later agenda hours { cursor with day := cursor.following? date, queue, pending }
      (cutPeriods cursor.lower cursor.upper date schedule ++ rest.1, rest.2) := by
  rcases following?_cases h hday with ⟨next, hnext, hfollowing, hleft⟩ | ⟨hfollowing, hend⟩
  · simp only [later, hday, daysLeft, toldFrom, hschedule, hnext, hfollowing, hleft]
  · simp only [later, hday, daysLeft, toldFrom, hschedule, hfollowing]
    rcases hend with hnone | hzero
    · simp only [hnone, List.append_nil]
    · rw [hzero]
      cases date.next? <;> simp only [toldFrom, List.append_nil]

/-! ### One answer -/

section Next

variable {cursor : PeriodCursor}

theorem next_of_failure {error : SolarError} (h : cursor.failure = some error) :
    (next agenda cursor : StateM (SolarHours Zone) _) =
      pure (some (.error error), cursor.finished) := by
  rw [next, h]

theorem next_of_complete {period : Period} {pending : Option Period} {queue : List Period}
    (hfailure : cursor.failure = none)
    (h : take cursor.merge cursor.pending cursor.queue = .complete period pending queue) :
    (next agenda cursor : StateM (SolarHours Zone) _) =
      pure (some (.ok period), { cursor with pending, queue }) := by
  rw [next, hfailure]
  simp only [h]

theorem next_of_end {pending : Option Period} (hfailure : cursor.failure = none)
    (h : take cursor.merge cursor.pending cursor.queue = .incomplete pending)
    (hday : cursor.day = none) :
    (next agenda cursor : StateM (SolarHours Zone) _) =
      pure (pending.map .ok, cursor.finished) := by
  rw [next, hfailure]
  simp only [h]
  split
  · rfl
  · rename_i hsome
    rw [hday] at hsome
    cases hsome

/-- The answer at a date that cannot be evaluated: a period that is pending comes first. -/
def giveUp (cursor : PeriodCursor) (error : SolarError) :
    Option Period → Option (Except SolarError Period) × PeriodCursor
  | some period => (some (.ok period), { cursor.finished with failure := some error })
  | none => (some (.error error), cursor.finished)

theorem next_of_day {pending : Option Period} {date : Date} (hfailure : cursor.failure = none)
    (h : take cursor.merge cursor.pending cursor.queue = .incomplete pending)
    (hday : cursor.day = some date) :
    (next agenda cursor : StateM (SolarHours Zone) _) =
      (agenda.clippedPeriods cursor.lower cursor.upper date).run >>= fun
      | .ok queue => next agenda { cursor with day := cursor.following? date, queue, pending }
      | .error error => pure (cursor.giveUp error pending) := by
  rw [next, hfailure]
  simp only [h]
  split
  · rename_i hnone
    rw [hday] at hnone
    cases hnone
  · rename_i other hsome
    obtain rfl := Option.some.inj (hsome.symm.trans hday)
    refine bind_congr ?_
    intro result
    cases result with
    | ok queue => rfl
    | error error => cases pending <;> rfl

/-- What holds of an answer that needs no date or fails on one, and of an answer if it holds of the
one that is found after a date was evaluated, holds of every answer. This is an induction on the
dates that are left, as each date that is evaluated without a period to tell leads to the next
one. -/
theorem run_next_induction {agenda : Agenda}
    {motive : PeriodCursor → SolarHours Zone →
      (Option (Except SolarError Period) × PeriodCursor) × SolarHours Zone → Prop}
    (failure : ∀ {cursor hours error}, cursor.failure = some error →
      motive cursor hours ((some (.error error), cursor.finished), hours))
    (complete : ∀ {cursor hours period pending queue}, cursor.failure = none →
      take cursor.merge cursor.pending cursor.queue = .complete period pending queue →
      motive cursor hours ((some (.ok period), { cursor with pending, queue }), hours))
    (finish : ∀ {cursor hours pending}, cursor.failure = none →
      take cursor.merge cursor.pending cursor.queue = .incomplete pending → cursor.day = none →
      motive cursor hours ((pending.map .ok, cursor.finished), hours))
    (giveUp : ∀ {cursor hours pending date error}, cursor.failure = none →
      take cursor.merge cursor.pending cursor.queue = .incomplete pending →
      cursor.day = some date → agenda.scheduleOn hours date = .error error →
      motive cursor hours (cursor.giveUp error pending, agenda.afterDate hours date))
    (day : ∀ {cursor hours pending date schedule result}, cursor.failure = none →
      take cursor.merge cursor.pending cursor.queue = .incomplete pending →
      cursor.day = some date → agenda.scheduleOn hours date = .ok schedule →
      motive { cursor with
          day := cursor.following? date
          queue := cutPeriods cursor.lower cursor.upper date schedule
          pending } (agenda.afterDate hours date) result →
      motive cursor hours result)
    (cursor : PeriodCursor) (hours : SolarHours Zone) :
    motive cursor hours ((next agenda cursor).run hours) := by
  induction hleft : cursor.daysLeft using Nat.strongRecOn generalizing cursor hours with
  | ind left ih =>
    cases hfailure : cursor.failure with
    | some error =>
      rw [next_of_failure hfailure]
      exact failure hfailure
    | none =>
      cases htake : take cursor.merge cursor.pending cursor.queue with
      | complete period pending queue =>
        rw [next_of_complete hfailure htake]
        exact complete hfailure htake
      | incomplete pending =>
        cases hday : cursor.day with
        | none =>
          rw [next_of_end hfailure htake hday]
          exact finish hfailure htake hday
        | some date =>
          rw [next_of_day hfailure htake hday, StateT.run_bind, run_clippedPeriods]
          cases hschedule : agenda.scheduleOn hours date with
          | error error => exact giveUp hfailure htake hday hschedule
          | ok schedule =>
            exact day hfailure htake hday hschedule
              (ih _ (hleft ▸ daysLeft_following hday _ _) _ _ rfl)

end Next

/-- The enumeration only asks. This is an induction on the dates that are left, as each date that is
evaluated without a period to tell leads to the next one. -/
theorem asking_next (agenda : Agenda) (cursor : PeriodCursor) :
    Asking (next agenda cursor : StateM (SolarHours Zone) _) := by
  induction hleft : cursor.daysLeft using Nat.strongRecOn generalizing cursor with
  | ind left ih =>
    cases hfailure : cursor.failure with
    | some error =>
      rw [next_of_failure hfailure]
      exact Asking.pure _
    | none =>
      cases htake : take cursor.merge cursor.pending cursor.queue with
      | complete period pending queue =>
        rw [next_of_complete hfailure htake]
        exact Asking.pure _
      | incomplete pending =>
        cases hday : cursor.day with
        | none =>
          rw [next_of_end hfailure htake hday]
          exact Asking.pure _
        | some date =>
          rw [next_of_day hfailure htake hday]
          refine Asking.bind (asking_clippedPeriods agenda _ _ _) fun result => ?_
          cases result with
          | ok queue => exact ih _ (hleft ▸ daysLeft_following hday _ _) _ rfl
          | error error => exact Asking.pure _

theorem asking_nextTimes (agenda : Agenda) (count : Nat) :
    ∀ cursor, Asking (nextTimes agenda count cursor : StateM (SolarHours Zone) _) := by
  induction count with
  | zero => exact fun _ => Asking.pure _
  | succ count ih =>
    intro cursor
    exact Asking.bind (asking_next agenda cursor) fun answer =>
      Asking.bind (ih answer.2) fun _ => Asking.pure _

/-- What an answer says in a state: it is the first of all that was to be told, the rest is still to
be told, and what is known about the sun stays the same. -/
structure Answers (agenda : Agenda) (hours : SolarHours Zone) (cursor : PeriodCursor)
    (result : (Option (Except SolarError Period) × PeriodCursor) × SolarHours Zone) : Prop where
  head_eq : result.1.1 = (cursor.tellings agenda hours).head?
  tail_eq : result.1.2.tellings agenda hours = (cursor.tellings agenda hours).tail
  coherent : Coherent result.1.2
  agree : hours.Agree result.2

theorem answers_finished {answer : Option (Except SolarError Period)} {cursor : PeriodCursor}
    (h : cursor.tellings agenda hours = answer.toList) :
    Answers agenda hours cursor ((answer, cursor.finished), hours) where
  head_eq := by rw [h]; cases answer <;> rfl
  tail_eq := by rw [h, tellings_finished]; cases answer <;> rfl
  coherent := coherent_finished cursor
  agree := SolarHours.Agree.refl hours

theorem answers_giveUp {cursor : PeriodCursor} {error : SolarError} {pending : Option Period}
    (h : cursor.tellings agenda hours = (pending.map .ok).toList ++ [.error error]) :
    Answers agenda hours cursor (cursor.giveUp error pending, hours) := by
  cases pending with
  | none => exact answers_finished h
  | some period =>
    have hcoherent := coherent_finished cursor
    exact ⟨by rw [h]; rfl, by rw [h]; rfl, ⟨hcoherent.pending_eq, hcoherent.day_le⟩, .refl hours⟩

/-- A place with the same to tell answers alike, in a state where the same is known. -/
theorem Answers.congr {hours' : SolarHours Zone} {cursor cursor' : PeriodCursor}
    {result : (Option (Except SolarError Period) × PeriodCursor) × SolarHours Zone}
    (hagree : hours.Agree hours')
    (htellings : cursor.tellings agenda hours = cursor'.tellings agenda hours)
    (h : Answers agenda hours' cursor' result) : Answers agenda hours cursor result where
  head_eq := by rw [htellings, tellings_congr hagree, h.head_eq]
  tail_eq := by
    rw [htellings, tellings_congr hagree, tellings_congr hagree, h.tail_eq]
  coherent := h.coherent
  agree := hagree.trans h.agree

section Take

variable {cursor : PeriodCursor} {pending : Option Period}

/-- Once the queue gives no period, only the pending one and the later dates are to be told. -/
theorem tellings_of_incomplete (hcoherent : Coherent cursor) (hfailure : cursor.failure = none)
    (htake : take cursor.merge cursor.pending cursor.queue = .incomplete pending) :
    cursor.tellings agenda hours =
      (told cursor.merge (pending.toList ++ (cursor.later agenda hours).1)).map .ok ++
        ((cursor.later agenda hours).2.map .error).toList := by
  have htold := told_of_take cursor.queue hcoherent.pending_eq (cursor.later agenda hours).1
  simp only [htake] at htold
  simp only [tellings, hfailure, htold.1]

theorem pending_of_incomplete (hcoherent : Coherent cursor)
    (htake : take cursor.merge cursor.pending cursor.queue = .incomplete pending) :
    cursor.merge = false → pending = none := by
  have htold := told_of_take cursor.queue hcoherent.pending_eq []
  simp only [htake] at htold
  exact htold.2

theorem told_pending (merge : Bool) (pending : Option Period) :
    told merge pending.toList = pending.toList := by
  cases pending <;> cases merge <;> rfl

theorem answers_complete {period : Period} {queue : List Period} (hcoherent : Coherent cursor)
    (hfailure : cursor.failure = none)
    (htake : take cursor.merge cursor.pending cursor.queue = .complete period pending queue) :
    Answers agenda hours cursor ((some (.ok period), { cursor with pending, queue }), hours) := by
  have htold := told_of_take cursor.queue hcoherent.pending_eq (cursor.later agenda hours).1
  simp only [htake] at htold
  have htellings : cursor.tellings agenda hours =
      .ok period :: tellings agenda hours { cursor with pending, queue } := by
    simp only [tellings, hfailure, htold.1]
    rfl
  exact ⟨by rw [htellings]; rfl, by rw [htellings]; rfl, ⟨htold.2, hcoherent.day_le⟩,
    .refl hours⟩

theorem tellings_of_end (hcoherent : Coherent cursor) (hfailure : cursor.failure = none)
    (htake : take cursor.merge cursor.pending cursor.queue = .incomplete pending)
    (hday : cursor.day = none) : cursor.tellings agenda hours = (pending.map .ok).toList := by
  have hlater : cursor.later agenda hours = ([], none) := by rw [later, hday]
  rw [tellings_of_incomplete hcoherent hfailure htake, hlater, List.append_nil, told_pending]
  cases pending <;> rfl

theorem tellings_of_error {date : Date} {error : SolarError} (hcoherent : Coherent cursor)
    (hfailure : cursor.failure = none)
    (htake : take cursor.merge cursor.pending cursor.queue = .incomplete pending)
    (hday : cursor.day = some date) (hschedule : agenda.scheduleOn hours date = .error error) :
    cursor.tellings agenda hours = (pending.map .ok).toList ++ [.error error] := by
  have hcount : cursor.daysLeft = (cursor.last.number - date.number).toNat + 1 := by
    simp only [daysLeft, hday]
  have hlater : cursor.later agenda hours = ([], some error) := by
    simp only [later, hday, hcount, toldFrom, hschedule]
  rw [tellings_of_incomplete hcoherent hfailure htake, hlater, List.append_nil, told_pending]
  cases pending <;> rfl

/-- What is told is the same once the periods of a date are queued. -/
theorem tellings_of_day {date : Date} {schedule : Schedule} (hcoherent : Coherent cursor)
    (hfailure : cursor.failure = none)
    (htake : take cursor.merge cursor.pending cursor.queue = .incomplete pending)
    (hday : cursor.day = some date) (hschedule : agenda.scheduleOn hours date = .ok schedule) :
    cursor.tellings agenda hours =
      tellings agenda hours { cursor with
        day := cursor.following? date
        queue := cutPeriods cursor.lower cursor.upper date schedule
        pending } := by
  rw [tellings_of_incomplete hcoherent hfailure htake, later_of_day hcoherent hday hschedule
    (cutPeriods cursor.lower cursor.upper date schedule) pending]
  simp only [tellings, hfailure, List.append_assoc]

end Take

/-- Each answer is the head of what is to be told, and leaves the tail. -/
theorem answers_next (agenda : Agenda) {hours : SolarHours Zone} {cursor : PeriodCursor}
    (hcoherent : Coherent cursor) :
    Answers agenda hours cursor ((next agenda cursor).run hours) := by
  revert hcoherent
  refine run_next_induction (motive := fun cursor hours result =>
    Coherent cursor → Answers agenda hours cursor result)
    ?failure ?complete ?finish ?giveUp ?day cursor hours
  case failure =>
    intro cursor hours error hfailure _
    exact answers_finished (by simp [tellings, hfailure])
  case complete =>
    intro cursor hours period pending queue hfailure htake hcoherent
    exact answers_complete hcoherent hfailure htake
  case finish =>
    intro cursor hours pending hfailure htake hday hcoherent
    exact answers_finished (tellings_of_end hcoherent hfailure htake hday)
  case giveUp =>
    intro cursor hours pending date error hfailure htake hday hschedule hcoherent
    have hagree := agenda.agree_afterDate hours date
    refine Answers.congr hagree rfl (answers_giveUp ?_)
    rw [← tellings_congr hagree]
    exact tellings_of_error hcoherent hfailure htake hday hschedule
  case day =>
    intro cursor hours pending date schedule result hfailure htake hday hschedule ih hcoherent
    have hpending := pending_of_incomplete hcoherent htake
    exact Answers.congr (agenda.agree_afterDate hours date)
      (tellings_of_day hcoherent hfailure htake hday hschedule)
      (ih ⟨hpending, day_le_following? cursor date⟩)

/-! ### All answers -/

theorem nextTimes_eq (agenda : Agenda) (count : Nat) : ∀ {hours : SolarHours Zone}
    {cursor : PeriodCursor}, Coherent cursor →
      ((nextTimes agenda count cursor).run hours).1 =
        (List.range count).map fun i => (cursor.tellings agenda hours)[i]? := by
  induction count with
  | zero => exact fun _ => rfl
  | succ count ih =>
    intro hours cursor hcoherent
    have hanswers := @answers_next _ agenda hours cursor hcoherent
    change ((next agenda cursor).run hours).1.1 ::
      ((nextTimes agenda count ((next agenda cursor).run hours).1.2).run
        ((next agenda cursor).run hours).2).1 = _
    rw [ih hanswers.coherent, ← tellings_congr hanswers.agree, hanswers.tail_eq,
      hanswers.head_eq, List.range_succ_eq_map, List.map_cons, List.map_map]
    refine congrArg₂ _ ?_ (List.map_congr_left fun i _ => ?_)
    · rw [List.head?_eq_getElem?]
    · rw [List.getElem?_tail]
      rfl

theorem coherent_ofBounds (start stop : Bound) (merge : Bool) :
    Coherent (ofBounds start stop merge) := by
  refine ⟨fun _ => rfl, fun date hday => ?_⟩
  simp only [ofBounds, Option.mem_def] at hday
  split at hday
  · rename_i hle
    exact Option.some.inj hday ▸ hle
  · cases hday

end PeriodCursor

/-! ### Periods between bounds -/

/-- The instant at which an enumeration begins. -/
def Bound.first : Bound → Instant
  | date day => day.midnight
  | instant moment => moment

/-- The instant before which an enumeration ends, given the date after the one of the bound. -/
def Bound.limit (stop : Bound) (next : Date) : Instant :=
  match stop with
  | date _ => next.midnight
  | instant moment => moment

namespace Period

/-- Periods of single days: none of them goes on past a midnight, and they meet at midnight only. -/
structure Daily (periods : List Period) : Prop where
  meet : periods.Pairwise fun a b => a.stop = b.start → ∃ date : Date, a.stop = date.midnight
  within : ∀ period ∈ periods, ∀ date : Date,
    ¬ (period.start < date.midnight ∧ date.midnight < period.stop)

/-- Periods that do not meet, so that each stretch of a window where a condition holds lies in one
of them. -/
structure Longest (periods : List Period) (first limit : Instant) (holds : Instant → Prop) :
    Prop where
  apart : periods.Pairwise fun a b => a.stop < b.start
  longest : ∀ a b, a < b → first ≤ a → b ≤ limit →
    (∀ instant, a ≤ instant → instant < b → holds instant) →
    ∃ period ∈ periods, period.start ≤ a ∧ b ≤ period.stop

end Period

namespace Agenda


/-- The periods between two bounds, and why there are no more if a date cannot be evaluated. -/
def toldBetween (agenda : Agenda) (hours : SolarHours Zone) (start stop : Bound) :
    List Period × Option SolarError :=
  agenda.toldFrom hours start.cut? stop.cut? (stop.day.number - start.day.number + 1).toNat
    start.day

theorem tellings_ofBounds (agenda : Agenda) (hours : SolarHours Zone) (start stop : Bound)
    (merge : Bool) :
    (PeriodCursor.ofBounds start stop merge).tellings agenda hours =
      (told merge (agenda.toldBetween hours start stop).1).map .ok ++
        ((agenda.toldBetween hours start stop).2.map .error).toList := by
  have hlater : (PeriodCursor.ofBounds start stop merge).later agenda hours =
      agenda.toldBetween hours start stop := by
    unfold PeriodCursor.later toldBetween PeriodCursor.ofBounds PeriodCursor.daysLeft
    dsimp only
    by_cases hle : start.day ≤ stop.day
    · have hcount : (stop.day.number - start.day.number + 1).toNat =
          (stop.day.number - start.day.number).toNat + 1 := by
        rw [Date.le_iff] at hle
        omega
      simp only [hle, ↓reduceIte, hcount]
    · have hcount : (stop.day.number - start.day.number + 1).toNat = 0 := by
        rw [Date.le_iff] at hle
        omega
      simp only [hle, ↓reduceIte, hcount, toldFrom]
  unfold PeriodCursor.tellings
  rw [hlater]
  rfl

theorem outcome_periodsBetween (agenda : Agenda) (hours : SolarHours Zone) (start stop : Bound)
    (merge : Bool) :
    outcome (agenda.periodsBetween start stop merge) hours =
      match agenda.toldBetween hours start stop with
      | (periods, none) => .ok (told merge periods)
      | (_, some error) => .error error := by
  unfold periodsBetween
  dsimp only
  rw [outcome_bind (asking_periodsFrom agenda _ _ _ _) (fun _ => asking_pure _),
    outcome_periodsFrom]
  unfold toldBetween
  rcases agenda.toldFrom hours start.cut? stop.cut? _ start.day with ⟨periods, _ | error⟩
  · rfl
  · rfl

/-! ### Which instants the periods cover -/

theorem first_le_iff (start : Bound) (instant : Instant) :
    start.first ≤ instant ↔ start.day ≤ instant.date ∧ ∀ bound ∈ start.cut?, bound ≤ instant := by
  cases start with
  | date day => simp [Bound.first, Bound.day, Bound.cut?, Date.midnight_le_iff]
  | instant moment =>
    simp only [Bound.first, Bound.day, Bound.cut?, Option.mem_some_iff, forall_eq']
    exact ⟨fun hle => ⟨Instant.date_le_of_le hle, hle⟩, And.right⟩

theorem lt_limit_iff {stop : Bound} {next : Date} (hnext : stop.day.next? = some next)
    (instant : Instant) :
    instant < stop.limit next ↔
      instant.date ≤ stop.day ∧ ∀ bound ∈ stop.cut?, instant < bound := by
  have hnumber := Date.number_next? hnext
  cases stop with
  | date day =>
    simp only [Bound.limit, Bound.day, Bound.cut?, Date.lt_midnight_iff, Date.lt_iff, Date.le_iff,
      Option.not_mem_none, false_implies, implies_true, and_true] at *
    omega
  | instant moment =>
    simp only [Bound.limit, Bound.day, Bound.cut?, Option.mem_some_iff, forall_eq']
    exact ⟨fun hlt => ⟨Instant.date_le_of_le (Int.le_of_lt hlt), hlt⟩, And.right⟩

/-- The dates between two bounds, cut at the bounds, are the window between them. -/
theorem window_iff {start stop : Bound} {next : Date} (hnext : stop.day.next? = some next)
    (instant : Instant) :
    start.day ≤ instant.date ∧
        instant.date.number <
          start.day.number + ((stop.day.number - start.day.number + 1).toNat : Int) ∧
        Between start.cut? stop.cut? instant ↔
      start.first ≤ instant ∧ instant < stop.limit next := by
  rw [first_le_iff, lt_limit_iff hnext, Between, Date.le_iff, Date.le_iff]
  constructor
  · rintro ⟨hle, hlt, hlower, hupper⟩
    exact ⟨⟨hle, hlower⟩, by omega, hupper⟩
  · rintro ⟨⟨hle, hlower⟩, hlast, hupper⟩
    exact ⟨hle, by omega, hlower, hupper⟩

theorem dayByDay_toldBetween {start stop : Bound} {next : Date}
    (hnext : stop.day.next? = some next)
    (hschedules : ∀ date, start.day ≤ date → date ≤ stop.day →
      ∃ schedule, agenda.scheduleOn hours date = .ok schedule) :
    (agenda.toldBetween hours start stop).2 = none ∧
      DayByDay agenda hours start.cut? stop.cut? start.day
        (stop.day.number - start.day.number + 1).toNat
        (agenda.toldBetween hours start stop).1 := by
  have hnumber := Date.number_next? hnext
  have hlast := next.le_last
  have hstart := start.day.le_last
  have hdates : ∀ date, start.day ≤ date →
      date.number < start.day.number + ((stop.day.number - start.day.number + 1).toNat : Int) →
      ∃ schedule, agenda.scheduleOn hours date = .ok schedule := by
    intro date hle hlt
    rw [Date.le_iff] at hle
    exact hschedules date (Date.le_iff.2 hle) (Date.le_iff.2 (by omega))
  exact ⟨toldFrom_snd_of_forall _ hdates, dayByDay_toldFrom _ _ (by omega) hdates⟩

theorem DayByDay.daily {lower upper : Option Instant} {first : Date} {count : Nat}
    {periods : List Period} (h : DayByDay agenda hours lower upper first count periods) :
    Daily periods := by
  refine ⟨h.meet, fun period hmem date => ?_⟩
  rintro ⟨hstart, hstop⟩
  obtain ⟨day, next, -, hnext, hfirst, hlast⟩ := h.within period hmem
  have hnumber := Date.number_next? hnext
  simp only [Instant.le_iff, Instant.lt_iff, Date.stamp_midnight] at *
  omega

/-- If all dates between two bounds can be evaluated, the periods between them cover the instants at
which the place is open. A cursor finds the same periods one by one, and then no more. Unless they
are merged, they are the periods of single days; if they are, they are as long as can be. -/
theorem periodsBetween_exact {start stop : Bound} {next : Date}
    (hnext : stop.day.next? = some next)
    (hschedules : ∀ date, start.day ≤ date → date ≤ stop.day →
      ∃ schedule, agenda.scheduleOn hours date = .ok schedule) (merge : Bool) :
    ∃ periods, outcome (agenda.periodsBetween start stop merge) hours = .ok periods ∧
      (∀ count, ((PeriodCursor.nextTimes agenda count (.ofBounds start stop merge)).run hours).1 =
        (List.range count).map fun i => periods[i]?.map .ok) ∧
      InOrder periods ∧
      (∀ instant, Cover periods instant ↔ start.first ≤ instant ∧ instant < stop.limit next ∧
        agenda.stateAt hours instant = .ok true) ∧
      (merge = false → Daily periods) ∧
      (merge = true → Longest periods start.first (stop.limit next) fun instant =>
        agenda.stateAt hours instant = .ok true) := by
  obtain ⟨herror, hdays⟩ := dayByDay_toldBetween hnext hschedules
  have houtcome := outcome_periodsBetween agenda hours start stop merge
  have htellings := tellings_ofBounds agenda hours start stop merge
  rcases hbetween : agenda.toldBetween hours start stop with ⟨periods, error⟩
  rw [hbetween] at herror hdays houtcome htellings
  obtain rfl : error = none := herror
  have hcover : ∀ instant, Cover (told merge periods) instant ↔ start.first ≤ instant ∧
      instant < stop.limit next ∧ agenda.stateAt hours instant = .ok true := by
    intro instant
    rw [cover_told merge hdays.inOrder, hdays.cover_iff, ← and_assoc (a := start.first ≤ instant),
      ← window_iff hnext]
    simp only [and_assoc]
  refine ⟨told merge periods, houtcome, fun count => ?_, hdays.inOrder.told merge, hcover, ?_, ?_⟩
  · rw [PeriodCursor.nextTimes_eq agenda count (PeriodCursor.coherent_ofBounds start stop merge),
      htellings]
    simp only [Option.map_none, Option.toList_none, List.append_nil, List.getElem?_map]
  · rintro rfl
    exact hdays.daily
  · rintro rfl
    obtain ⟨hapart, hnonempty⟩ := apart_mergeAll hdays.inOrder
    refine ⟨hapart, fun a b hlt hfirst hlimit hopen => ?_⟩
    refine exists_period_of_cover hnonempty hapart hlt ?_
    intro instant hle hbefore
    exact (hcover instant).2 ⟨Int.le_trans hfirst hle, Int.lt_of_lt_of_le hbefore hlimit,
      hopen instant hle hbefore⟩

/-- From 21:00 on a Monday until the end of Tuesday, the evenings are two periods. -/
theorem periodsBetween_evenings :
    ∃ start stop, outcome (evenings.periodsBetween start stop true) .unknown =
        .ok [⟨⟨default, .ofMinutes 1260⟩, ⟨⟨1, by decide, by decide⟩, .ofMinutes 120⟩⟩,
          ⟨⟨⟨1, by decide, by decide⟩, .ofMinutes 1200⟩, ⟨⟨2, by decide, by decide⟩, .midnight⟩⟩] ∧
      ∃ periods, outcome (evenings.periodsBetween start stop true) .unknown = .ok periods ∧
        InOrder periods ∧ ∀ instant, Cover periods instant ↔ start.first ≤ instant ∧
          instant < stop.limit ⟨2, by decide, by decide⟩ ∧
          evenings.stateAt .unknown instant = .ok true := by
  refine ⟨.instant ⟨default, .ofMinutes 1260⟩, .date ⟨1, by decide, by decide⟩, rfl, ?_⟩
  have hschedules : ∀ date, (default : Date) ≤ date → date ≤ ⟨1, by decide, by decide⟩ →
      ∃ schedule, evenings.scheduleOn .unknown date = .ok schedule := by
    intro date hfirst hlast
    have hdate : date = default ∨ date = ⟨1, by decide, by decide⟩ := by
      have hcases : date.number = 0 ∨ date.number = 1 := by
        have hfirst : (0 : Int) ≤ date.number := hfirst
        have hlast : date.number ≤ 1 := hlast
        omega
      exact hcases.imp Date.ext Date.ext
    have hok : ∀ result : Except SolarError Schedule, result.isOk = true →
        ∃ schedule, result = .ok schedule := by
      intro result hresult
      cases result with
      | ok schedule => exact ⟨schedule, rfl⟩
      | error error => cases hresult
    rcases hdate with rfl | rfl
    · exact hok _ (by decide)
    · exact hok _ (by decide)
  obtain ⟨periods, houtcome, -, hinOrder, hcover, -, -⟩ :=
    @periodsBetween_exact _ evenings .unknown (.instant ⟨default, .ofMinutes 1260⟩)
      (.date ⟨1, by decide, by decide⟩) ⟨2, by decide, by decide⟩ (by decide) hschedules true
  exact ⟨periods, houtcome, hinOrder, hcover⟩

end Agenda

end Timetable
