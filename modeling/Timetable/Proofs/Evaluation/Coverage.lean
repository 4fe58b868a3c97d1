import Timetable.Evaluation.Periods
import Timetable.Proofs.Calendar.Instant
import Timetable.Proofs.Evaluation.State

/-!
The instants of an enumeration of periods.

A list of periods is read as the set of the instants that it covers. Cutting, joining and putting
together the days are stated by these instants: `covers_cutPeriods` for a day, `covers_mergeAll` for
joining, and `exists_periodsFrom` for a run of days, where the periods of each day come after those
of the day before and meet them at midnight at most.
-/

namespace Timetable

variable {Zone : Type}

namespace Period

/-- Whether an instant lies in a period: the beginning does, and the end does not. -/
def Contains (period : Period) (instant : Instant) : Prop :=
  period.start ≤ instant ∧ instant < period.stop

/-- Whether an instant lies in one of the periods. -/
def Cover (periods : List Period) (instant : Instant) : Prop :=
  ∃ period ∈ periods, period.Contains instant

/-- Periods that are not empty and come one after the other. -/
structure InOrder (periods : List Period) : Prop where
  nonempty : ∀ period ∈ periods, period.start < period.stop
  ordered : periods.Pairwise fun a b => a.stop ≤ b.start

theorem cover_cons (period : Period) (periods : List Period) (instant : Instant) :
    Cover (period :: periods) instant ↔ period.Contains instant ∨ Cover periods instant := by
  simp only [Cover, List.mem_cons, exists_eq_or_imp]

theorem cover_append (a b : List Period) (instant : Instant) :
    Cover (a ++ b) instant ↔ Cover a instant ∨ Cover b instant := by
  simp only [Cover, List.mem_append, or_and_right, exists_or]

/-! ### Cutting -/

/-- Whether an instant lies between two bounds that may be missing. -/
def Between (lower upper : Option Instant) (instant : Instant) : Prop :=
  (∀ bound ∈ lower, bound ≤ instant) ∧ ∀ bound ∈ upper, instant < bound

/-- The later of an instant and a bound that may be missing. -/
def startFrom (lower : Option Instant) (instant : Instant) : Instant :=
  lower.elim instant instant.later

/-- The earlier of an instant and a bound that may be missing. -/
def stopBy (upper : Option Instant) (instant : Instant) : Instant :=
  upper.elim instant instant.earlier

theorem startFrom_le_iff {lower : Option Instant} {a instant : Instant} :
    startFrom lower a ≤ instant ↔ a ≤ instant ∧ ∀ bound ∈ lower, bound ≤ instant := by
  cases lower with
  | none => simp [startFrom]
  | some bound =>
    simp only [startFrom, Option.elim, Option.mem_some_iff, forall_eq', Instant.later]
    split <;> simp only [Instant.le_iff] at * <;> omega

theorem lt_stopBy_iff {upper : Option Instant} {a instant : Instant} :
    instant < stopBy upper a ↔ instant < a ∧ ∀ bound ∈ upper, instant < bound := by
  cases upper with
  | none => simp [stopBy]
  | some bound =>
    simp only [stopBy, Option.elim, Option.mem_some_iff, forall_eq', Instant.earlier]
    split <;> simp only [Instant.le_iff, Instant.lt_iff] at * <;> omega

theorem clip?_eq_some_iff {period part : Period} {lower upper : Option Instant} :
    period.clip? lower upper = some part ↔
      part = ⟨startFrom lower period.start, stopBy upper period.stop⟩ ∧ part.start < part.stop := by
  have hclip : period.clip? lower upper =
      if startFrom lower period.start < stopBy upper period.stop then
        some ⟨startFrom lower period.start, stopBy upper period.stop⟩ else none := by
    cases lower <;> cases upper <;> rfl
  rw [hclip]
  split
  · rename_i hlt
    constructor
    · intro h
      obtain rfl := Option.some.inj h
      exact ⟨rfl, hlt⟩
    · rintro ⟨rfl, -⟩
      rfl
  · rename_i hnot
    constructor
    · intro h
      cases h
    · rintro ⟨rfl, hlt⟩
      exact absurd hlt hnot

/-- What is left of a period lies in it and is not empty. -/
theorem bounds_of_clip? {period part : Period} {lower upper : Option Instant}
    (h : period.clip? lower upper = some part) :
    period.start ≤ part.start ∧ part.start < part.stop ∧ part.stop ≤ period.stop := by
  obtain ⟨rfl, hlt⟩ := clip?_eq_some_iff.1 h
  refine ⟨(startFrom_le_iff.1 (Instant.le_refl _)).1, hlt, Int.not_lt.1 fun hstop => ?_⟩
  exact Instant.lt_irrefl _ (lt_stopBy_iff.1 hstop).1

theorem contains_clip? (period : Period) (lower upper : Option Instant) (instant : Instant) :
    (∃ part, period.clip? lower upper = some part ∧ part.Contains instant) ↔
      period.Contains instant ∧ Between lower upper instant := by
  constructor
  · rintro ⟨part, hpart, hstart, hstop⟩
    obtain ⟨rfl, -⟩ := clip?_eq_some_iff.1 hpart
    obtain ⟨hstart, hlower⟩ := startFrom_le_iff.1 hstart
    obtain ⟨hstop, hupper⟩ := lt_stopBy_iff.1 hstop
    exact ⟨⟨hstart, hstop⟩, hlower, hupper⟩
  · rintro ⟨⟨hstart, hstop⟩, hlower, hupper⟩
    have hstart' := startFrom_le_iff.2 ⟨hstart, hlower⟩
    have hstop' := lt_stopBy_iff.2 ⟨hstop, hupper⟩
    exact ⟨_, clip?_eq_some_iff.2 ⟨rfl, Int.lt_of_le_of_lt hstart' hstop'⟩, hstart', hstop'⟩

/-! ### Joining -/

variable {current : Period} {rest : List Period}

theorem InOrder.head_lt (h : InOrder (current :: rest)) : current.start < current.stop :=
  h.nonempty current List.mem_cons_self

theorem InOrder.tail (h : InOrder (current :: rest)) : InOrder rest :=
  ⟨fun period hmem => h.nonempty period (List.mem_cons_of_mem _ hmem), h.ordered.tail⟩

/-- Two periods that meet may be replaced by one. -/
theorem InOrder.join {next : Period} (h : InOrder (current :: next :: rest)) :
    InOrder (⟨current.start, next.stop⟩ :: rest) := by
  have hcurrent := h.head_lt
  have hnext := h.tail.head_lt
  have hle := (List.pairwise_cons.1 h.ordered).1 next List.mem_cons_self
  constructor
  · intro period hmem
    rcases List.mem_cons.1 hmem with rfl | hmem
    · simp only [Instant.lt_iff, Instant.le_iff] at *
      omega
    · exact h.tail.tail.nonempty period hmem
  · exact List.pairwise_cons.2
      ⟨(List.pairwise_cons.1 h.tail.ordered).1, h.tail.tail.ordered⟩

theorem contains_join {next : Period} (h : InOrder (current :: next :: rest))
    (hmeet : current.stop = next.start) (instant : Instant) :
    Period.Contains ⟨current.start, next.stop⟩ instant ↔
      current.Contains instant ∨ next.Contains instant := by
  have hcurrent := h.head_lt
  have hnext := h.tail.head_lt
  simp only [Contains, Instant.lt_iff, Instant.le_iff, hmeet] at *
  omega

theorem cover_mergeInto (h : InOrder (current :: rest)) (instant : Instant) :
    Cover (current.mergeInto rest) instant ↔ Cover (current :: rest) instant := by
  induction rest generalizing current with
  | nil => rfl
  | cons next rest ih =>
    rw [mergeInto]
    split
    · rename_i hmeet
      rw [ih h.join, cover_cons, cover_cons, cover_cons, contains_join h hmeet, or_assoc]
    · rw [cover_cons, ih h.tail, cover_cons current]

theorem start_le_of_mem_mergeInto (h : InOrder (current :: rest)) :
    ∀ period ∈ current.mergeInto rest, current.start ≤ period.start := by
  induction rest generalizing current with
  | nil =>
    intro period hmem
    obtain rfl := List.mem_singleton.1 hmem
    exact Instant.le_refl _
  | cons next rest ih =>
    intro period hmem
    rw [mergeInto] at hmem
    split at hmem
    · exact ih h.join period hmem
    · rcases List.mem_cons.1 hmem with rfl | hmem
      · exact Instant.le_refl _
      · have hnext := ih h.tail period hmem
        have hle := (List.pairwise_cons.1 h.ordered).1 next List.mem_cons_self
        have hlt := h.head_lt
        simp only [Instant.lt_iff, Instant.le_iff] at *
        omega

/-- Periods that are joined do not meet any more. -/
theorem apart_mergeInto (h : InOrder (current :: rest)) :
    (current.mergeInto rest).Pairwise (fun a b => a.stop < b.start) ∧
      ∀ period ∈ current.mergeInto rest, period.start < period.stop := by
  induction rest generalizing current with
  | nil =>
    refine ⟨List.pairwise_singleton _ _, fun period hmem => ?_⟩
    exact h.nonempty period hmem
  | cons next rest ih =>
    rw [mergeInto]
    split
    · exact ih h.join
    · rename_i hapart
      obtain ⟨hpairs, hnonempty⟩ := ih h.tail
      have hle := (List.pairwise_cons.1 h.ordered).1 next List.mem_cons_self
      have hlt : current.stop < next.start :=
        Int.lt_iff_le_and_ne.2 ⟨hle, fun heq => hapart (Instant.stamp_injective heq)⟩
      refine ⟨List.pairwise_cons.2 ⟨fun period hmem => ?_, hpairs⟩, ?_⟩
      · exact Int.lt_of_lt_of_le hlt (start_le_of_mem_mergeInto h.tail period hmem)
      · exact List.forall_mem_cons.2 ⟨h.head_lt, hnonempty⟩

variable {periods : List Period}

theorem cover_mergeAll (h : InOrder periods) (instant : Instant) :
    Cover (mergeAll periods) instant ↔ Cover periods instant := by
  cases periods with
  | nil => rfl
  | cons first rest => exact cover_mergeInto h instant

theorem apart_mergeAll (h : InOrder periods) :
    (mergeAll periods).Pairwise (fun a b => a.stop < b.start) ∧
      ∀ period ∈ mergeAll periods, period.start < period.stop := by
  cases periods with
  | nil => exact ⟨List.Pairwise.nil, List.forall_mem_nil _⟩
  | cons first rest => exact apart_mergeInto h

/-- Periods that do not meet are as long as can be: what they cover without a gap lies in one of
them. -/
theorem exists_period_of_cover (hnonempty : ∀ period ∈ periods, period.start < period.stop)
    (hapart : periods.Pairwise fun a b => a.stop < b.start) {first last : Instant}
    (hlt : first < last)
    (hcover : ∀ instant, first ≤ instant → instant < last → Cover periods instant) :
    ∃ period ∈ periods, period.start ≤ first ∧ last ≤ period.stop := by
  obtain ⟨period, hmem, hstart, hstop⟩ := hcover first (Instant.le_refl _) hlt
  refine ⟨period, hmem, hstart, Int.not_lt.1 fun hmore => ?_⟩
  -- The end of the period would lie in another one, which would have to begin later.
  obtain ⟨other, hother, hbegun, hlasts⟩ := hcover period.stop (Int.le_of_lt hstop) hmore
  have hlong := hnonempty period hmem
  rcases eq_or_related hapart hmem hother with rfl | hbefore | hafter
  · exact Instant.lt_irrefl _ hlasts
  · simp only [Instant.lt_iff, Instant.le_iff] at *
    omega
  · simp only [Instant.lt_iff, Instant.le_iff] at *
    omega

/-! ### Periods of whole minutes -/

/-- A period lasts from one minute of a date until another one, which may be of the day after. -/
structure Lasts (period : Period) (date : Date) (first last : Nat) : Prop where
  lt : first < last
  stamp_start : period.start.stamp = date.midnight.stamp + first * 60000000000
  stamp_stop : period.stop.stamp = date.midnight.stamp + last * 60000000000

end Period

namespace Agenda

open Period

variable {agenda : Agenda} {hours : SolarHours Zone} {lower upper : Option Instant}

/-! ### The periods of a date -/

/-- A clock time of a date is an instant, unless it is 24:00 of the last date. -/
theorem exists_at? (date : Date) {time : ClockTime} (htime : time.minutes ≤ 1440)
    (hend : time.minutes < 1440 ∨ date.next? ≠ none) : ∃ instant, date.at? time = some instant := by
  by_cases hday : time.minutes < 1440
  · exact ⟨_, Date.at?_eq_atMinute date hday⟩
  · have hnumber : date.number + ((time.minutes / 1440 : Nat) : Int) = date.number + 1 := by omega
    obtain ⟨next, hnext⟩ := Option.ne_none_iff_exists'.1 (hend.resolve_left hday)
    rw [Date.next?] at hnext
    rw [Date.at?, hnumber, hnext]
    exact ⟨_, rfl⟩

/-- The periods of a date are intervals of its schedule. -/
theorem mem_periodsOf {date : Date} {schedule : Schedule} {period : Period}
    (h : period ∈ periodsOf date schedule) :
    ∃ interval ∈ schedule.intervals, period.Lasts date interval.start interval.stop := by
  obtain ⟨interval, hmem, h⟩ := List.mem_filterMap.1 h
  obtain ⟨start, hstart, h⟩ := Option.bind_eq_some_iff.1 h
  obtain ⟨stop, hstop, h⟩ := Option.bind_eq_some_iff.1 h
  obtain rfl := Option.some.inj h
  have hfirst := Date.stamp_at? hstart
  have hlast := Date.stamp_at? hstop
  simp only [Interval.startTime, Interval.stopTime] at hfirst hlast
  exact ⟨interval, hmem, interval.start_lt_stop, hfirst, hlast⟩

/-- An interval of its schedule is a period of a date, unless it lasts until 24:00 of the last
date. -/
theorem exists_mem_periodsOf {date : Date} {schedule : Schedule} (hday : schedule.WithinDay)
    {interval : Interval} (hmem : interval ∈ schedule.intervals)
    (hend : interval.stop < 1440 ∨ date.next? ≠ none) :
    ∃ period ∈ periodsOf date schedule, period.Lasts date interval.start interval.stop := by
  have hle := hday.stop_le interval hmem
  have hbegin : interval.start < 1440 := Nat.lt_of_lt_of_le interval.start_lt_stop hle
  have hstart : interval.startTime.minutes ≤ 1440 := Nat.le_of_lt hbegin
  have hstop : interval.stopTime.minutes ≤ 1440 := hle
  obtain ⟨start, hstart⟩ := exists_at? date hstart (.inl hbegin)
  obtain ⟨stop, hstop⟩ := exists_at? date hstop hend
  have hfirst := Date.stamp_at? hstart
  have hlast := Date.stamp_at? hstop
  simp only [Interval.startTime, Interval.stopTime] at hfirst hlast
  refine ⟨⟨start, stop⟩, List.mem_filterMap.2 ⟨interval, hmem, ?_⟩, interval.start_lt_stop,
    hfirst, hlast⟩
  rw [hstart, hstop]
  rfl

theorem cover_periodsOf {date next : Date} (hnext : date.next? = some next) {schedule : Schedule}
    (hday : schedule.WithinDay) (instant : Instant) :
    Cover (periodsOf date schedule) instant ↔
      instant.date = date ∧ schedule.Contains instant.clockTime.minutes := by
  have hminutes : instant.clockTime.minutes = instant.time.nanos / 60000000000 := rfl
  have hnanos := instant.time.nanos_lt
  have hmidnight := date.stamp_midnight
  constructor
  · rintro ⟨period, hmem, hstart, hstop⟩
    obtain ⟨interval, hinterval, hlasts⟩ := mem_periodsOf hmem
    have hle := hday.stop_le interval hinterval
    rw [Instant.le_iff, hlasts.stamp_start, hmidnight, Instant.stamp] at hstart
    rw [Instant.lt_iff, hlasts.stamp_stop, hmidnight, Instant.stamp] at hstop
    have hdate : instant.date = date := Date.ext (by omega)
    rw [hdate] at hstart hstop
    refine ⟨hdate, interval, hinterval, ?_, ?_⟩
    · rw [hminutes]
      omega
    · rw [hminutes]
      omega
  · rintro ⟨rfl, interval, hinterval, hstart, hstop⟩
    obtain ⟨period, hmem, hlasts⟩ := exists_mem_periodsOf hday hinterval
      (.inr (Option.ne_none_iff_exists'.2 ⟨next, hnext⟩))
    refine ⟨period, hmem, ?_, ?_⟩
    · rw [Instant.le_iff, hlasts.stamp_start, hmidnight, Instant.stamp]
      omega
    · rw [Instant.lt_iff, hlasts.stamp_stop, hmidnight, Instant.stamp]
      omega

theorem apart_periodsOf (date : Date) (schedule : Schedule) :
    (periodsOf date schedule).Pairwise fun a b => a.stop < b.start := by
  refine List.pairwise_filterMap.2 (schedule.separated.imp fun {a b} hlt x hx y hy => ?_)
  obtain ⟨start, hstart, hx⟩ := Option.bind_eq_some_iff.1 hx
  obtain ⟨stop, hstop, hx⟩ := Option.bind_eq_some_iff.1 hx
  obtain ⟨start', hstart', hy⟩ := Option.bind_eq_some_iff.1 hy
  obtain ⟨stop', hstop', hy⟩ := Option.bind_eq_some_iff.1 hy
  obtain rfl := Option.some.inj hx
  obtain rfl := Option.some.inj hy
  have hfirst := Date.stamp_at? hstop
  have hsecond := Date.stamp_at? hstart'
  simp only [Interval.stopTime, Interval.startTime] at hfirst hsecond
  rw [Instant.lt_iff, hfirst, hsecond]
  omega

/-- The periods of a date, cut at two instants. -/
def cutPeriods (lower upper : Option Instant) (date : Date) (schedule : Schedule) : List Period :=
  (periodsOf date schedule).filterMap (·.clip? lower upper)

theorem cover_cutPeriods {date next : Date} (hnext : date.next? = some next) {schedule : Schedule}
    (hday : schedule.WithinDay) (instant : Instant) :
    Cover (cutPeriods lower upper date schedule) instant ↔
      instant.date = date ∧ Between lower upper instant ∧
        schedule.Contains instant.clockTime.minutes := by
  have hperiods := cover_periodsOf hnext hday instant
  constructor
  · rintro ⟨part, hmem, hin⟩
    obtain ⟨period, hmem, hpart⟩ := List.mem_filterMap.1 hmem
    obtain ⟨hin, hbetween⟩ := (contains_clip? period lower upper instant).1 ⟨part, hpart, hin⟩
    obtain ⟨hdate, hcontains⟩ := hperiods.1 ⟨period, hmem, hin⟩
    exact ⟨hdate, hbetween, hcontains⟩
  · rintro ⟨hdate, hbetween, hcontains⟩
    obtain ⟨period, hmem, hin⟩ := hperiods.2 ⟨hdate, hcontains⟩
    obtain ⟨part, hpart, hin⟩ := (contains_clip? period lower upper instant).2 ⟨hin, hbetween⟩
    exact ⟨part, List.mem_filterMap.2 ⟨period, hmem, hpart⟩, hin⟩

theorem apart_cutPeriods (date : Date) (schedule : Schedule) :
    (cutPeriods lower upper date schedule).Pairwise fun a b => a.stop < b.start := by
  refine List.pairwise_filterMap.2 ((apart_periodsOf date schedule).imp fun hlt x hx y hy => ?_)
  have hfirst := bounds_of_clip? hx
  have hsecond := bounds_of_clip? hy
  simp only [Instant.le_iff, Instant.lt_iff] at *
  omega

/-- The periods of a date lie between its two midnights. -/
theorem bounds_of_mem_cutPeriods {date next : Date} (hnext : date.next? = some next)
    {schedule : Schedule} (hday : schedule.WithinDay) {period : Period}
    (h : period ∈ cutPeriods lower upper date schedule) :
    date.midnight ≤ period.start ∧ period.start < period.stop ∧ period.stop ≤ next.midnight := by
  obtain ⟨whole, hmem, hpart⟩ := List.mem_filterMap.1 h
  obtain ⟨interval, hinterval, -, hstart, hstop⟩ := mem_periodsOf hmem
  have hle := hday.stop_le interval hinterval
  have hbounds := bounds_of_clip? hpart
  have hnumber := Date.number_next? hnext
  simp only [Instant.le_iff, Instant.lt_iff, Date.stamp_midnight] at *
  omega

/-! ### A run of dates -/

/-- The periods of a number of dates, up to the first one that cannot be evaluated, and why that one
cannot. -/
def toldFrom (agenda : Agenda) (hours : SolarHours Zone) (lower upper : Option Instant) :
    Nat → Date → List Period × Option SolarError
  | 0, _ => ([], none)
  | count + 1, date =>
    match agenda.scheduleOn hours date with
    | .error error => ([], some error)
    | .ok schedule =>
      match date.next? with
      | none => (cutPeriods lower upper date schedule, none)
      | some next =>
        let rest := agenda.toldFrom hours lower upper count next
        (cutPeriods lower upper date schedule ++ rest.1, rest.2)

theorem asking_clippedPeriods (agenda : Agenda) (lower upper : Option Instant) (date : Date) :
    Asking (agenda.clippedPeriods lower upper date : SolarM Zone (List Period)).run :=
  asking_bind (asking_scheduleAt agenda date) fun _ => asking_pure _

theorem outcome_clippedPeriods (agenda : Agenda) (hours : SolarHours Zone)
    (lower upper : Option Instant) (date : Date) :
    outcome (agenda.clippedPeriods lower upper date) hours =
      (agenda.scheduleOn hours date).map (cutPeriods lower upper date) := by
  unfold clippedPeriods
  rw [outcome_bind (asking_scheduleAt agenda date) (fun _ => asking_pure _)]
  change agenda.scheduleOn hours date >>= _ = _
  cases agenda.scheduleOn hours date <;> rfl

/-- What is known after a date was evaluated. -/
def afterDate (agenda : Agenda) (hours : SolarHours Zone) (date : Date) : SolarHours Zone :=
  ((agenda.scheduleAt date).run.run hours).2

theorem agree_afterDate (agenda : Agenda) (hours : SolarHours Zone) (date : Date) :
    hours.Agree (agenda.afterDate hours date) :=
  (asking_scheduleAt agenda date).settled.agree_after hours

/-- Cutting its periods, a date is evaluated and nothing else. -/
theorem run_clippedPeriods (agenda : Agenda) (hours : SolarHours Zone)
    (lower upper : Option Instant) (date : Date) :
    (agenda.clippedPeriods lower upper date).run.run hours =
      ((agenda.scheduleOn hours date).map (cutPeriods lower upper date),
        agenda.afterDate hours date) := by
  refine Prod.ext (outcome_clippedPeriods agenda hours lower upper date) ?_
  rw [clippedPeriods, run_bind, afterDate]
  obtain ⟨schedule | error, later⟩ := (agenda.scheduleAt date).run.run hours
  · rfl
  · rfl

theorem asking_periodsFrom (agenda : Agenda) (lower upper : Option Instant) (count : Nat) :
    ∀ date, Asking (agenda.periodsFrom lower upper count date : SolarM Zone (List Period)).run := by
  induction count with
  | zero => exact fun date => asking_pure _
  | succ count ih =>
    intro date
    rw [periodsFrom]
    refine asking_bind (asking_clippedPeriods agenda lower upper date) ?_
    intro periods
    split
    · exact asking_pure _
    · exact asking_bind (ih _) fun _ => asking_pure _

theorem asking_periodsBetween (agenda : Agenda) (start stop : Bound) (merge : Bool) :
    Asking (agenda.periodsBetween start stop merge : SolarM Zone (List Period)).run :=
  asking_bind (asking_periodsFrom agenda _ _ _ _) fun _ => asking_pure _

theorem outcome_periodsFrom (agenda : Agenda) (hours : SolarHours Zone)
    (lower upper : Option Instant) (count : Nat) :
    ∀ date, outcome (agenda.periodsFrom lower upper count date) hours =
      match agenda.toldFrom hours lower upper count date with
      | (periods, none) => .ok periods
      | (_, some error) => .error error := by
  induction count with
  | zero => exact fun date => rfl
  | succ count ih =>
    intro date
    cases hnext : date.next? with
    | none =>
      simp only [periodsFrom, toldFrom, hnext]
      rw [outcome_bind (asking_clippedPeriods agenda lower upper date) fun _ => asking_pure _,
        outcome_clippedPeriods]
      cases agenda.scheduleOn hours date <;> rfl
    | some next =>
      have hrest : ∀ periods : List Period,
          Asking (agenda.periodsFrom lower upper count next >>= fun later =>
            pure (periods ++ later) : SolarM Zone (List Period)).run :=
        fun periods => asking_bind (asking_periodsFrom agenda lower upper count next)
          fun _ => asking_pure _
      simp only [periodsFrom, toldFrom, hnext]
      rw [outcome_bind (asking_clippedPeriods agenda lower upper date) hrest,
        outcome_clippedPeriods]
      cases agenda.scheduleOn hours date with
      | error error => rfl
      | ok schedule =>
        change outcome (agenda.periodsFrom lower upper count next >>= _) hours = _
        rw [outcome_bind (asking_periodsFrom agenda lower upper count next)
          (fun _ => asking_pure _), ih next]
        dsimp only
        rcases agenda.toldFrom hours lower upper count next with ⟨periods, _ | error⟩ <;> rfl

/-- The periods of a number of dates from a first one on: they come in order, each of them lies
within a date, they cover the instants between the cuts at which the place is open, and they meet at
midnight only. -/
structure DayByDay (agenda : Agenda) (hours : SolarHours Zone) (lower upper : Option Instant)
    (first : Date) (count : Nat) (periods : List Period) : Prop where
  inOrder : InOrder periods
  within : ∀ period ∈ periods, ∃ date next : Date, first ≤ date ∧ date.next? = some next ∧
    date.midnight ≤ period.start ∧ period.stop ≤ next.midnight
  cover_iff : ∀ instant, Cover periods instant ↔
    first ≤ instant.date ∧ instant.date.number < first.number + count ∧
      Between lower upper instant ∧ agenda.stateAt hours instant = .ok true
  meet : periods.Pairwise fun a b => a.stop = b.start → ∃ date : Date, a.stop = date.midnight

theorem dayByDay_nil (first : Date) : DayByDay agenda hours lower upper first 0 [] where
  inOrder := ⟨List.forall_mem_nil _, List.Pairwise.nil⟩
  within := List.forall_mem_nil _
  cover_iff instant := by
    simp only [Cover, List.not_mem_nil, false_and, exists_false, Date.le_iff, false_iff]
    omega
  meet := List.Pairwise.nil

/-- The periods of a date cover its instants between the cuts at which the place is open. -/
theorem cover_cutPeriods_iff {date next : Date} {schedule : Schedule}
    (hnext : date.next? = some next) (hschedule : agenda.scheduleOn hours date = .ok schedule)
    (instant : Instant) : Cover (cutPeriods lower upper date schedule) instant ↔
      instant.date = date ∧ Between lower upper instant ∧
        agenda.stateAt hours instant = .ok true := by
  rw [cover_cutPeriods hnext (withinDay_of_scheduleOn hschedule)]
  refine and_congr_right fun hdate => and_congr_right fun _ => ?_
  rw [stateAt_of_scheduleOn (hdate.symm ▸ hschedule)]
  simp

/-- The periods of a date come before those of the dates after it. -/
theorem DayByDay.append {date next : Date} {count : Nat} {schedule : Schedule}
    {periods : List Period} (h : DayByDay agenda hours lower upper next count periods)
    (hnext : date.next? = some next) (hschedule : agenda.scheduleOn hours date = .ok schedule) :
    DayByDay agenda hours lower upper date (count + 1)
      (cutPeriods lower upper date schedule ++ periods) := by
  have hday := withinDay_of_scheduleOn hschedule
  have hnumber := Date.number_next? hnext
  have hbounds : ∀ period ∈ cutPeriods lower upper date schedule,
      date.midnight ≤ period.start ∧ period.start < period.stop ∧ period.stop ≤ next.midnight :=
    fun _ hmem => bounds_of_mem_cutPeriods hnext hday hmem
  have hlater : ∀ period ∈ periods, next.midnight ≤ period.start := by
    intro period hmem
    obtain ⟨later, _, hle, -, hstart, -⟩ := h.within period hmem
    simp only [Instant.le_iff, Date.stamp_midnight, Date.le_iff] at *
    omega
  constructor
  · constructor
    · intro period hmem
      rcases List.mem_append.1 hmem with hmem | hmem
      · exact (hbounds period hmem).2.1
      · exact h.inOrder.nonempty period hmem
    · refine List.pairwise_append.2 ⟨(apart_cutPeriods date schedule).imp Int.le_of_lt,
        h.inOrder.ordered, fun a ha b hb => ?_⟩
      exact Int.le_trans (hbounds a ha).2.2 (hlater b hb)
  · intro period hmem
    rcases List.mem_append.1 hmem with hmem | hmem
    · exact ⟨date, next, Int.le_refl _, hnext, (hbounds period hmem).1, (hbounds period hmem).2.2⟩
    · obtain ⟨later, after, hle, hperiod⟩ := h.within period hmem
      exact ⟨later, after, Date.le_iff.2 (by rw [Date.le_iff] at hle; omega), hperiod⟩
  · intro instant
    have hdate : instant.date = date ↔ instant.date.number = date.number :=
      ⟨congrArg Date.number, Date.ext⟩
    rw [cover_append, cover_cutPeriods_iff hnext hschedule, h.cover_iff, hdate]
    simp only [Date.le_iff]
    constructor
    · rintro (⟨heq, hrest⟩ | ⟨hle, hlt, hrest⟩)
      · exact ⟨by omega, by omega, hrest⟩
      · exact ⟨by omega, by omega, hrest⟩
    · rintro ⟨hle, hlt, hrest⟩
      by_cases heq : instant.date.number = date.number
      · exact .inl ⟨heq, hrest⟩
      · exact .inr ⟨by omega, by omega, hrest⟩
  · refine List.pairwise_append.2 ⟨?_, h.meet, fun a ha b hb hmeet => ⟨next, ?_⟩⟩
    · refine (apart_cutPeriods date schedule).imp fun {a b} hlt hmeet => ?_
      rw [hmeet] at hlt
      exact absurd hlt (Instant.lt_irrefl _)
    · have hstop := (hbounds a ha).2.2
      have hstart := hlater b hb
      rw [hmeet] at hstop ⊢
      exact Instant.stamp_injective (Int.le_antisymm hstop hstart)

theorem toldFrom_snd_of_forall (count : Nat) {first : Date}
    (h : ∀ date, first ≤ date → date.number < first.number + count →
      ∃ schedule, agenda.scheduleOn hours date = .ok schedule) :
    (agenda.toldFrom hours lower upper count first).2 = none := by
  induction count generalizing first with
  | zero => rfl
  | succ count ih =>
    obtain ⟨schedule, hschedule⟩ := h first (Int.le_refl _) (by omega)
    cases hnext : first.next? with
    | none => simp only [toldFrom, hschedule, hnext]
    | some next =>
      have hnumber := Date.number_next? hnext
      simp only [toldFrom, hschedule, hnext]
      refine ih fun date hle hlt => h date ?_ (by omega)
      rw [Date.le_iff] at hle ⊢
      omega

theorem dayByDay_toldFrom (count : Nat) : ∀ first : Date, first.number + count ≤ 95745398 →
    (∀ date, first ≤ date → date.number < first.number + count →
      ∃ schedule, agenda.scheduleOn hours date = .ok schedule) →
    DayByDay agenda hours lower upper first count
      (agenda.toldFrom hours lower upper count first).1 := by
  induction count with
  | zero => exact fun first _ _ => dayByDay_nil first
  | succ count ih =>
    intro first hend hschedules
    obtain ⟨schedule, hschedule⟩ := hschedules first (Int.le_refl _) (by omega)
    cases hnext : first.next? with
    | none =>
      have := Date.next?_eq_none_iff.1 hnext
      omega
    | some next =>
      have hnumber := Date.number_next? hnext
      have hrest := ih next (by omega) fun date hle hlt =>
        hschedules date (by rw [Date.le_iff] at hle ⊢; omega) (by omega)
      simp only [toldFrom, hschedule, hnext]
      exact hrest.append hnext hschedule

end Agenda

end Timetable
