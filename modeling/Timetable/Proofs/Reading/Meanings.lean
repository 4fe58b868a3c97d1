import Timetable.Proofs.Reading.Supported

/-!
What a form means, up to the way it was written.

Two readings of a part of a text may give different forms: a form keeps where in the text it was
found, and the rows of digits of its numbers. `meaning?` is what a form says whatever its error
would be, and each lemma here says that the meaning of a form depends on the meanings of its parts
only.

Where a text was changed in a way that shows in its rules, there is still something that both texts
have in common. A `Sight` says what that is: what is seen of a clock time, of an amount by which an
event is moved and of a comment.
-/

namespace Timetable

/-! ### Sights -/

/-- A way to look at rules, through which some of them may look the same. -/
structure Sight where
  time : ClockTime → ClockTime
  shift : Int → Int
  comment : String → String
  /-- An event that is moved by either of two amounts that look the same looks the same. -/
  shift_congr : ∀ {amount amount' : ClockTime}, time amount = time amount' →
    shift amount.minutes = shift amount'.minutes ∧
      shift (-amount.minutes) = shift (-amount'.minutes)

namespace Sight

/-- All that the rules say. -/
def exact : Sight where
  time := id
  shift := id
  comment := id
  shift_congr h := by obtain rfl : _ = _ := h; exact ⟨rfl, rfl⟩

/-- What is seen of a moment. -/
def moment (sight : Sight) : Moment → Moment
  | .clock time => .clock (sight.time time)
  | .solar event offset => .solar event (sight.shift offset)

/-- What is seen of a span. -/
def span (sight : Sight) (span : TimeSpan) : TimeSpan :=
  ⟨sight.moment span.beginning, sight.moment span.ending⟩

/-- What is seen of a rule. -/
def rule (sight : Sight) (rule : Rule) : Rule :=
  { rule with spans := rule.spans.map sight.span, comment := rule.comment.map sight.comment }

theorem moment_exact (moment : Moment) : exact.moment moment = moment := by
  cases moment <;> rfl

theorem rule_exact (rule : Rule) : exact.rule rule = rule := by
  have hspan : exact.span = id := funext fun span => by
    rw [Sight.span, moment_exact, moment_exact]
    rfl
  have hcomment : exact.comment = id := rfl
  rw [Sight.rule, hspan, hcomment, List.map_id, Option.map_id]
  rfl

theorem map_rule_exact (rules : List Rule) : rules.map exact.rule = rules := by
  rw [funext rule_exact, List.map_id']

/-- A lone comment is seen as one. -/
theorem isLoneComment_map_rule (sight : Sight) (rules : List Rule) :
    IsLoneComment (rules.map sight.rule) ↔ IsLoneComment rules := by
  constructor
  · rintro ⟨_, _, heq, hkind, hselector, hspans, hcomment⟩
    obtain ⟨rule, rfl, rfl⟩ := List.map_eq_singleton_iff.1 heq
    obtain ⟨comment, hcomment, -⟩ := Option.map_eq_some_iff.1 hcomment
    exact ⟨rule, comment, rfl, hkind, hselector, List.map_eq_nil_iff.1 hspans, hcomment⟩
  · rintro ⟨rule, comment, rfl, hkind, hselector, hspans, hcomment⟩
    refine ⟨sight.rule rule, sight.comment comment, rfl, hkind, hselector, ?_, ?_⟩
    · rw [Sight.rule, hspans, List.map_nil]
    · rw [Sight.rule, hcomment, Option.map_some]

end Sight

namespace Grammar

/-- What a form means, if it means anything. -/
def meaning? {α β : Type} (interpret : α → Except ReadError β) (form : α) : Option β :=
  (interpret form).toOption

section Parts

variable {α β γ : Type}

theorem meaning?_eq_some {interpret : α → Except ReadError β} {form : α} {value : β} :
    meaning? interpret form = some value ↔ interpret form = .ok value := by
  unfold meaning?
  cases interpret form with
  | ok other =>
    exact ⟨fun h => congrArg _ (Option.some.inj h), fun h => congrArg _ (Except.ok.inj h)⟩
  | error error => exact ⟨nofun, nofun⟩

@[simp] theorem toOption_bind (first : Except ReadError α) (next : α → Except ReadError β) :
    (first >>= next).toOption = first.toOption.bind fun value => (next value).toOption := by
  cases first <;> rfl

@[simp] theorem toOption_map (f : α → β) (computation : Except ReadError α) :
    (f <$> computation).toOption = computation.toOption.map f := by
  cases computation <;> rfl

@[simp] theorem toOption_refuse (fragment : Fragment) (feature : Unsupported) :
    (fragment.refuse feature : Except ReadError α).toOption = none := rfl

/-- Whether a part that is refused is there is all that matters. -/
@[simp] theorem toOption_refuseIfPresent (feature : Unsupported) (fragment : Option Fragment) :
    (refuseIfPresent feature fragment).toOption = if fragment.isNone then some () else none := by
  cases fragment <;> rfl

/-- Lists whose elements look the same look the same. -/
theorem seen_mapM_congr {interpret : α → Except ReadError β} {see : β → γ} {as bs : List α}
    (h : as.map (fun a => (meaning? interpret a).map see) =
      bs.map fun b => (meaning? interpret b).map see) :
    (as.mapM interpret).toOption.map (List.map see) =
      (bs.mapM interpret).toOption.map (List.map see) := by
  induction as generalizing bs with
  | nil =>
    obtain rfl := List.map_eq_nil_iff.1 h.symm
    rfl
  | cons a as ih =>
    cases bs with
    | nil => cases h
    | cons b bs =>
      obtain ⟨hhead, htail⟩ := List.cons.inj h
      have hhead : (meaning? interpret a).map see = (meaning? interpret b).map see := hhead
      have hcons : ∀ a as, ((a :: as).mapM interpret).toOption.map (List.map see) =
          ((meaning? interpret a).map see).bind fun seen =>
            ((as.mapM interpret).toOption.map (List.map see)).map (seen :: ·) := by
        intro a as
        simp only [List.mapM_cons, toOption_bind, meaning?]
        cases (interpret a).toOption <;> cases (as.mapM interpret).toOption <;> rfl
      rw [hcons, hcons, hhead, ih htail]

/-- Lists whose elements mean the same mean the same. -/
theorem toOption_mapM_congr {interpret : α → Except ReadError β} {as bs : List α}
    (h : as.map (meaning? interpret) = bs.map (meaning? interpret)) :
    (as.mapM interpret).toOption = (bs.mapM interpret).toOption := by
  have hseen := @seen_mapM_congr _ _ _ interpret id as bs (by simpa using h)
  simpa using hseen

end Parts

/-! ### Spans -/

variable {sight : Sight}

/-- What is seen of a clock time, up to a number of hours after the end of the day. -/
def ClockForm.seen (sight : Sight) (form : ClockForm) (hours : Nat) : Option ClockTime :=
  (meaning? (·.interpret (24 + hours)) form).map sight.time

/-- What is seen of a moment, up to a number of hours after the end of the day. -/
def MomentForm.seen (sight : Sight) (form : MomentForm) (hours : Nat) : Option Moment :=
  (meaning? (·.interpret (24 + hours)) form).map sight.moment

/-- What is seen of the end of a span, if it is written and not left open. -/
def SpanEndForm.seen (sight : Sight) : SpanEndForm → Option Moment
  | .upTo moment false => moment.seen sight 24
  | _ => none

/-- What is seen of a span. -/
def SpanForm.seen (sight : Sight) (form : SpanForm) : Option TimeSpan :=
  (meaning? SpanForm.interpret form).map sight.span

/-- A clock time means what its numbers mean. -/
theorem seen_clockForm {a b : List Char × List Char}
    (h : Prod.map Decimal.value Decimal.value a = Prod.map Decimal.value Decimal.value b) :
    ClockForm.seen sight ⟨a.1, a.2⟩ = ClockForm.seen sight ⟨b.1, b.2⟩ := by
  obtain ⟨hhour, hminute⟩ := Prod.mk.inj h
  funext hours
  simp only [ClockForm.seen, meaning?, ClockForm.interpret, hhour, hminute]

theorem seen_clock {a b : ClockForm} (h : a.seen sight = b.seen sight) :
    (MomentForm.clock a).seen sight = (MomentForm.clock b).seen sight := by
  have heq : ∀ (form : ClockForm) hours, (MomentForm.clock form).seen sight hours =
      (form.seen sight hours).map .clock := by
    intro form hours
    simp only [MomentForm.seen, ClockForm.seen, meaning?, MomentForm.interpret]
    cases form.interpret (24 + hours) <;> rfl
  funext hours
  rw [heq, heq, h]

theorem seen_shifted (event : SolarEvent) (later : Bool) {a b : ClockForm}
    (h : a.seen sight = b.seen sight) :
    (MomentForm.shifted event later a).seen sight =
      (MomentForm.shifted event later b).seen sight := by
  have hsame : (meaning? (·.interpret 24) a).map sight.time =
      (meaning? (·.interpret 24) b).map sight.time := congrFun h 0
  funext hours
  simp only [meaning?] at hsame
  simp only [MomentForm.seen, meaning?, MomentForm.interpret]
  cases ha : a.interpret 24 with
  | error error =>
    cases hb : b.interpret 24 with
    | error error => rfl
    | ok amount' =>
      rw [ha, hb] at hsame
      cases hsame
  | ok amount =>
    cases hb : b.interpret 24 with
    | error error =>
      rw [ha, hb] at hsame
      cases hsame
    | ok amount' =>
      rw [ha, hb] at hsame
      obtain ⟨hlater, hearlier⟩ := sight.shift_congr (Option.some.inj hsame)
      cases later
      · exact congrArg (fun offset => some (Moment.solar event offset)) hearlier
      · exact congrArg (fun offset => some (Moment.solar event offset)) hlater

theorem SpanForm.seen_eq (beginning : MomentForm) (ending : SpanEndForm) (whole : Fragment) :
    SpanForm.seen sight ⟨beginning, ending, whole⟩ =
      (beginning.seen sight 0).bind fun seen => (ending.seen sight).map (⟨seen, ·⟩) := by
  simp only [SpanForm.seen, MomentForm.seen, meaning?, SpanForm.interpret]
  cases beginning.interpret 24 with
  | error error => rfl
  | ok first =>
    cases ending with
    | missing => rfl
    | plus => rfl
    | upTo moment opened =>
      cases opened <;> simp only [SpanEndForm.seen, MomentForm.seen, meaning?] <;>
        cases moment.interpret 48 <;> rfl

theorem seen_span {a b : (MomentForm × SpanEndForm) × Fragment}
    (h : Prod.map (MomentForm.seen sight) (SpanEndForm.seen sight) a.1 =
      Prod.map (MomentForm.seen sight) (SpanEndForm.seen sight) b.1) :
    SpanForm.seen sight ⟨a.1.1, a.1.2, a.2⟩ = SpanForm.seen sight ⟨b.1.1, b.1.2, b.2⟩ := by
  obtain ⟨hbeginning, hending⟩ := Prod.mk.inj h
  rw [SpanForm.seen_eq, SpanForm.seen_eq, hbeginning, hending]

/-- Of an open end, nothing is seen. -/
theorem seen_upTo {a b : MomentForm × Option Unit}
    (h : Prod.map (MomentForm.seen sight) (Option.map id) a =
      Prod.map (MomentForm.seen sight) (Option.map id) b) :
    SpanEndForm.seen sight (.upTo a.1 a.2.isSome) =
      SpanEndForm.seen sight (.upTo b.1 b.2.isSome) := by
  obtain ⟨hmoment, hopened⟩ := Prod.mk.inj h
  obtain ⟨moment, opened⟩ := a
  obtain ⟨moment', opened'⟩ := b
  obtain rfl : opened = opened' := by simpa using hopened
  cases opened with
  | none => exact congrFun hmoment 24
  | some plus => rfl

/-! ### Days -/

theorem isNone_eq_of_map_eq {a b : Option Fragment} {f : Fragment → Unit}
    (h : a.map f = b.map f) : a.isNone = b.isNone := by
  rw [← Option.isNone_map, h, Option.isNone_map]

theorem meaning?_weekday {f : Fragment → Unit}
    {a b : (Weekday × Option Weekday) × Option Fragment × Option Fragment}
    (h : Prod.map id (Prod.map (Option.map f) (Option.map f)) a =
      Prod.map id (Prod.map (Option.map f) (Option.map f)) b) :
    meaning? WeekdayForm.interpret ⟨a.1.1, a.1.2, a.2.1, a.2.2⟩ =
      meaning? WeekdayForm.interpret ⟨b.1.1, b.1.2, b.2.1, b.2.2⟩ := by
  obtain ⟨⟨first, last⟩, numbers, offset⟩ := a
  obtain ⟨⟨_, _⟩, numbers', offset'⟩ := b
  obtain ⟨hnames, hrest⟩ := Prod.mk.inj h
  obtain ⟨rfl, rfl⟩ := Prod.mk.inj hnames
  obtain ⟨hnumbers, hoffset⟩ := Prod.mk.inj hrest
  simp [meaning?, WeekdayForm.interpret, isNone_eq_of_map_eq hnumbers,
    isNone_eq_of_map_eq hoffset]

theorem meaning?_holiday {f : Fragment → Unit} {a b : Holiday × Option Fragment}
    (h : Prod.map id (Option.map f) a = Prod.map id (Option.map f) b) :
    meaning? HolidayForm.interpret ⟨a.1, a.2⟩ = meaning? HolidayForm.interpret ⟨b.1, b.2⟩ := by
  obtain ⟨kind, offset⟩ := a
  obtain ⟨_, offset'⟩ := b
  obtain ⟨rfl, hoffset⟩ := Prod.mk.inj h
  simp [meaning?, HolidayForm.interpret, isNone_eq_of_map_eq hoffset]

theorem meaning?_holidaysOnWeekdays {a b : List HolidayForm × List WeekdayForm}
    (h : Prod.map (List.map (meaning? HolidayForm.interpret))
        (List.map (meaning? WeekdayForm.interpret)) a =
      Prod.map (List.map (meaning? HolidayForm.interpret))
        (List.map (meaning? WeekdayForm.interpret)) b) :
    meaning? DaysForm.interpret (.holidaysOnWeekdays a.1 a.2) =
      meaning? DaysForm.interpret (.holidaysOnWeekdays b.1 b.2) := by
  obtain ⟨hholidays, hweekdays⟩ := Prod.mk.inj h
  simp [meaning?, DaysForm.interpret, toOption_mapM_congr hholidays,
    toOption_mapM_congr hweekdays]

theorem meaning?_weekdaysThenHolidays {a b : List WeekdayForm × List HolidayForm}
    (h : Prod.map (List.map (meaning? WeekdayForm.interpret))
        (List.map (meaning? HolidayForm.interpret)) a =
      Prod.map (List.map (meaning? WeekdayForm.interpret))
        (List.map (meaning? HolidayForm.interpret)) b) :
    meaning? DaysForm.interpret (.weekdaysThenHolidays a.1 a.2) =
      meaning? DaysForm.interpret (.weekdaysThenHolidays b.1 b.2) := by
  obtain ⟨hweekdays, hholidays⟩ := Prod.mk.inj h
  simp [meaning?, DaysForm.interpret, toOption_mapM_congr hholidays,
    toOption_mapM_congr hweekdays]

theorem meaning?_holidaysThenWeekdays {a b : List HolidayForm × List WeekdayForm}
    (h : Prod.map (List.map (meaning? HolidayForm.interpret))
        (List.map (meaning? WeekdayForm.interpret)) a =
      Prod.map (List.map (meaning? HolidayForm.interpret))
        (List.map (meaning? WeekdayForm.interpret)) b) :
    meaning? DaysForm.interpret (.holidaysThenWeekdays a.1 a.2) =
      meaning? DaysForm.interpret (.holidaysThenWeekdays b.1 b.2) := by
  obtain ⟨hholidays, hweekdays⟩ := Prod.mk.inj h
  simp [meaning?, DaysForm.interpret, toOption_mapM_congr hholidays,
    toOption_mapM_congr hweekdays]

/-- No elements are as good as an empty list of them. -/
theorem map_getD_nil {α β : Type} {view : α → β} {a b : Option (List α)}
    (h : a.map (List.map view) = b.map (List.map view)) :
    (a.getD []).map view = (b.getD []).map view := by
  cases a <;> cases b <;> simp_all

/-! ### Weeks and years -/

/-- A step means what its number means. -/
theorem toOption_interpretStep_congr {a b : Option (List Char)}
    (h : a.map Decimal.value = b.map Decimal.value) (greatest : Nat) (limit : Limit) :
    (interpretStep a greatest limit).toOption = (interpretStep b greatest limit).toOption := by
  cases a with
  | none =>
    obtain rfl := Option.map_eq_none_iff.1 h.symm
    rfl
  | some row =>
    cases b with
    | none => cases h
    | some row' =>
      have hvalue : Decimal.value row = Decimal.value row' := Option.some.inj h
      simp only [interpretStep, hvalue]
      split
      · rfl
      · rfl

/-- Weeks mean what their numbers mean. -/
theorem meaning?_week {a b : List Char × Option (List Char × Option (List Char))}
    (h : Prod.map Decimal.value
        (Option.map (Prod.map Decimal.value (Option.map Decimal.value))) a =
      Prod.map Decimal.value
        (Option.map (Prod.map Decimal.value (Option.map Decimal.value))) b) :
    meaning? WeekForm.interpret ⟨a.1, a.2.map Prod.fst, a.2.bind Prod.snd⟩ =
      meaning? WeekForm.interpret ⟨b.1, b.2.map Prod.fst, b.2.bind Prod.snd⟩ := by
  obtain ⟨first, later⟩ := a
  obtain ⟨first', later'⟩ := b
  obtain ⟨hfirst, hlater⟩ := Prod.mk.inj h
  have hnumber : ∀ {row row' : List Char}, Decimal.value row = Decimal.value row' →
      interpretWeekNumber row = interpretWeekNumber row' := by
    intro row row' hvalue
    rw [interpretWeekNumber, interpretWeekNumber, hvalue]
  cases later with
  | none =>
    obtain rfl := Option.map_eq_none_iff.1 hlater.symm
    simp [meaning?, WeekForm.interpret, hnumber hfirst]
  | some range =>
    cases later' with
    | none => cases hlater
    | some range' =>
      obtain ⟨hlast, hstep⟩ := Prod.mk.inj (Option.some.inj hlater)
      simp [meaning?, WeekForm.interpret, hnumber hfirst, hnumber hlast,
        toOption_interpretStep_congr hstep]

/-- What the end of a range of years means after a first year. -/
def YearEndForm.meaningAfter (ending : YearEndForm) (first : Nat) : Option YearRange :=
  match ending with
  | .missing => some ⟨first, first, 1⟩
  | .plus => some ⟨first, 9999, 1⟩
  | .upTo last step =>
    (interpretStep step 65535 .yearStep).toOption.map (⟨first, Decimal.value last, ·⟩)

theorem meaning?_year {a b : List Char × YearEndForm}
    (h : Prod.map Decimal.value YearEndForm.meaningAfter a =
      Prod.map Decimal.value YearEndForm.meaningAfter b) :
    meaning? YearForm.interpret ⟨a.1, a.2⟩ = meaning? YearForm.interpret ⟨b.1, b.2⟩ := by
  have heq : ∀ (first : List Char) (ending : YearEndForm),
      meaning? YearForm.interpret ⟨first, ending⟩ = ending.meaningAfter (Decimal.value first) := by
    intro first ending
    cases ending with
    | missing => rfl
    | plus => rfl
    | upTo last step => exact toOption_map _ _
  obtain ⟨hfirst, hending⟩ := Prod.mk.inj h
  rw [heq, heq, hfirst, hending]

theorem meaningAfter_yearUpTo {a b : List Char × Option (List Char)}
    (h : Prod.map Decimal.value (Option.map Decimal.value) a =
      Prod.map Decimal.value (Option.map Decimal.value) b) :
    (YearEndForm.upTo a.1 a.2).meaningAfter = (YearEndForm.upTo b.1 b.2).meaningAfter := by
  obtain ⟨hlast, hstep⟩ := Prod.mk.inj h
  funext first
  rw [YearEndForm.meaningAfter, YearEndForm.meaningAfter, hlast,
    toOption_interpretStep_congr hstep]

/-! ### Dates -/

theorem interpretDayNumber_congr {row row' : List Char}
    (h : Decimal.value row = Decimal.value row') :
    interpretDayNumber row = interpretDayNumber row' := by
  rw [interpretDayNumber, interpretDayNumber, h]

/-- A day of the year means what its numbers mean. -/
theorem interpret_day_congr {a b : Option (List Char) × Option (Month × List Char)}
    (h : Prod.map (Option.map Decimal.value) (Option.map (Prod.map id Decimal.value)) a =
      Prod.map (Option.map Decimal.value) (Option.map (Prod.map id Decimal.value)) b) :
    (match a.2 with
      | some fixed => DayForm.fixed a.1 fixed.1 fixed.2
      | none => DayForm.easter a.1).interpret =
    (match b.2 with
      | some fixed => DayForm.fixed b.1 fixed.1 fixed.2
      | none => DayForm.easter b.1).interpret := by
  obtain ⟨year, fixed⟩ := a
  obtain ⟨year', fixed'⟩ := b
  obtain ⟨hyear, hfixed⟩ := Prod.mk.inj h
  cases fixed with
  | none =>
    obtain rfl := Option.map_eq_none_iff.1 hfixed.symm
    exact congrArg AnnualDay.easter hyear
  | some fixed =>
    cases fixed' with
    | none => cases hfixed
    | some fixed' =>
      obtain ⟨hmonth, hnumber⟩ := Prod.mk.inj (Option.some.inj hfixed)
      have hmonth : fixed.1 = fixed'.1 := hmonth
      dsimp only [DayForm.interpret]
      rw [hyear, hmonth, interpretDayNumber_congr hnumber]

/-- What the last day means after a first day. -/
def LastDayForm.meaningAfter (form : LastDayForm) (first : AnnualDay) : Option AnnualDay :=
  meaning? (·.interpret first) form

/-- What the end of a range means after a first day. -/
def DayEndForm.meaningAfter (ending : DayEndForm) (first : AnnualDay) : Option DateRange :=
  match ending with
  | .missing => some (.days first first)
  | .plus => some (.days first (.fixed (first.year?.map fun _ => 9999) .december 31))
  | .upTo last offset =>
    (last.meaningAfter first).bind fun day => if offset.isNone then some (.days first day) else none

theorem meaningAfter_number {fragment fragment' : Fragment}
    (h : Decimal.value fragment.text = Decimal.value fragment'.text) :
    (LastDayForm.number fragment).meaningAfter = (LastDayForm.number fragment').meaningAfter := by
  funext first
  cases first with
  | easter year => rfl
  | fixed year month day =>
    simp only [LastDayForm.meaningAfter, meaning?, LastDayForm.interpret,
      interpretDayNumber_congr h]

theorem meaningAfter_upTo {f : Fragment → Unit} {a b : LastDayForm × Option Fragment}
    (h : Prod.map LastDayForm.meaningAfter (Option.map f) a =
      Prod.map LastDayForm.meaningAfter (Option.map f) b) :
    (DayEndForm.upTo a.1 a.2).meaningAfter = (DayEndForm.upTo b.1 b.2).meaningAfter := by
  obtain ⟨hlast, hoffset⟩ := Prod.mk.inj h
  funext first
  rw [DayEndForm.meaningAfter, DayEndForm.meaningAfter, hlast, isNone_eq_of_map_eq hoffset]

theorem meaning?_days {f : Fragment → Unit} {a b : DayForm × Option Fragment × DayEndForm}
    (h : Prod.map DayForm.interpret (Prod.map (Option.map f) DayEndForm.meaningAfter) a =
      Prod.map DayForm.interpret (Prod.map (Option.map f) DayEndForm.meaningAfter) b) :
    meaning? DateForm.interpret (.days a.1 a.2.1 a.2.2) =
      meaning? DateForm.interpret (.days b.1 b.2.1 b.2.2) := by
  have heq : ∀ (first : DayForm) offset ending,
      meaning? DateForm.interpret (.days first offset ending) =
        if offset.isNone then ending.meaningAfter first.interpret else none := by
    intro first offset ending
    cases offset with
    | some fragment => rfl
    | none =>
      cases ending with
      | missing => rfl
      | plus => rfl
      | upTo last offset =>
        simp only [meaning?, DateForm.interpret, DayEndForm.meaningAfter,
          LastDayForm.meaningAfter, toOption_bind, toOption_refuseIfPresent]
        cases (last.interpret first.interpret).toOption <;> cases offset <;> rfl
  obtain ⟨hfirst, hrest⟩ := Prod.mk.inj h
  obtain ⟨hoffset, hending⟩ := Prod.mk.inj hrest
  rw [heq, heq, hfirst, hending, isNone_eq_of_map_eq hoffset]

theorem meaning?_months {a b : Option (List Char) × Month × Option Month}
    (h : Prod.map (Option.map Decimal.value) id a = Prod.map (Option.map Decimal.value) id b) :
    meaning? DateForm.interpret (.months a.1 a.2.1 a.2.2) =
      meaning? DateForm.interpret (.months b.1 b.2.1 b.2.2) := by
  obtain ⟨year, names⟩ := a
  obtain ⟨year', names'⟩ := b
  obtain ⟨hyear, hnames⟩ := Prod.mk.inj h
  obtain rfl : names = names' := hnames
  simp only [meaning?, DateForm.interpret, hyear]

/-! ### Rules -/

theorem meaning?_wide {a b : (List YearForm × List DateForm) × Option (List WeekForm)}
    (h : Prod.map (Prod.map (List.map (meaning? YearForm.interpret))
          (List.map (meaning? DateForm.interpret)))
        (Option.map (List.map (meaning? WeekForm.interpret))) a =
      Prod.map (Prod.map (List.map (meaning? YearForm.interpret))
          (List.map (meaning? DateForm.interpret)))
        (Option.map (List.map (meaning? WeekForm.interpret))) b) :
    meaning? WideForm.interpret ⟨a.1.1, a.1.2, a.2.getD []⟩ =
      meaning? WideForm.interpret ⟨b.1.1, b.1.2, b.2.getD []⟩ := by
  obtain ⟨hlead, hweeks⟩ := Prod.mk.inj h
  obtain ⟨hyears, hdates⟩ := Prod.mk.inj hlead
  simp [meaning?, WideForm.interpret, toOption_mapM_congr hyears, toOption_mapM_congr hdates,
    toOption_mapM_congr (map_getD_nil hweeks)]

/-- What is seen of conditions and spans. -/
def TimesForm.seen (sight : Sight) (form : TimesForm) : Option (Selector × List TimeSpan) :=
  (meaning? TimesForm.interpret form).map (Prod.map id (List.map sight.span))

/-- What is seen of the small conditions after any wide ones. -/
def SmallForm.seenAfter (sight : Sight) (form : SmallForm) (wide : Option WideForm) :
    Option (Selector × List TimeSpan) :=
  TimesForm.seen sight (.times wide (some form))

theorem seenAfter_small {days days' : Option DaysForm} {spans spans' : List SpanForm}
    (hdays : days.map (meaning? DaysForm.interpret) = days'.map (meaning? DaysForm.interpret))
    (hspans : spans.map (SpanForm.seen sight) = spans'.map (SpanForm.seen sight)) :
    SmallForm.seenAfter sight ⟨days, spans⟩ = SmallForm.seenAfter sight ⟨days', spans'⟩ := by
  have heq : ∀ (days : Option DaysForm) (spans : List SpanForm) (wide : Option WideForm),
      SmallForm.seenAfter sight ⟨days, spans⟩ wide =
        (wide.elim (.ok {}) WideForm.interpret).toOption.bind fun conditions =>
          (days.elim (.ok ([], [])) DaysForm.interpret).toOption.bind fun found =>
            ((spans.mapM SpanForm.interpret).toOption.map (List.map sight.span)).map
              (⟨{ conditions with weekdays := found.1, holidays := found.2 }, ·⟩) := by
    intro days spans wide
    simp only [SmallForm.seenAfter, TimesForm.seen, meaning?, TimesForm.interpret_times,
      toOption_bind, Option.bind_some, Option.elim_some]
    cases (wide.elim (.ok {}) WideForm.interpret).toOption with
    | none => rfl
    | some conditions =>
      cases (days.elim (.ok ([], [])) DaysForm.interpret).toOption with
      | none => rfl
      | some found => cases (spans.mapM SpanForm.interpret).toOption <;> rfl
  have hsame : (days.elim (.ok ([], [])) DaysForm.interpret).toOption =
      (days'.elim (.ok ([], [])) DaysForm.interpret).toOption := by
    cases days <;> cases days' <;> simp_all [meaning?]
  funext wide
  rw [heq, heq, hsame, seen_mapM_congr hspans]

theorem seen_times {a b : WideForm × Option SmallForm}
    (h : Prod.map (meaning? WideForm.interpret) (Option.map (SmallForm.seenAfter sight)) a =
      Prod.map (meaning? WideForm.interpret) (Option.map (SmallForm.seenAfter sight)) b) :
    TimesForm.seen sight (.times (some a.1) a.2) =
      TimesForm.seen sight (.times (some b.1) b.2) := by
  obtain ⟨wide, small⟩ := a
  obtain ⟨wide', small'⟩ := b
  obtain ⟨hwide, hsmall⟩ := Prod.mk.inj h
  have hconditions : TimesForm.seen sight (.times (some wide) small) =
      TimesForm.seen sight (.times (some wide') small) := by
    have hsame : wide.interpret.toOption = wide'.interpret.toOption := hwide
    simp [TimesForm.seen, meaning?, TimesForm.interpret_times, hsame]
  refine hconditions.trans ?_
  cases small with
  | none =>
    obtain rfl := Option.map_eq_none_iff.1 hsmall.symm
    rfl
  | some form =>
    cases small' with
    | none => cases hsmall
    | some form' => exact congrFun (Option.some.inj hsmall) (some wide')

/-- What is seen of a modifier. -/
def ModifierForm.seen (sight : Sight) (form : ModifierForm) : Option RuleKind × Option String :=
  (form.kind, form.comment.map fun comment => sight.comment (String.ofList comment))

/-- What is seen of a rule, depending on whether it adds to the one before it. -/
def RuleForm.seenWhen (sight : Sight) (form : RuleForm) (additional : Bool) : Option Rule :=
  (meaning? (·.interpret additional) form).map sight.rule

theorem RuleForm.seenWhen_exact (form : RuleForm) (additional : Bool) :
    form.seenWhen .exact additional = meaning? (·.interpret additional) form := by
  rw [seenWhen, funext Sight.rule_exact, Option.map_id']

theorem seenWhen_rule {times times' : Option TimesForm} {modifier modifier' : Option ModifierForm}
    (htimes : times.map (TimesForm.seen sight) = times'.map (TimesForm.seen sight))
    (hmodifier : modifier.map (ModifierForm.seen sight) =
      modifier'.map (ModifierForm.seen sight)) :
    RuleForm.seenWhen sight ⟨times, modifier⟩ = RuleForm.seenWhen sight ⟨times', modifier'⟩ := by
  funext additional
  -- What is assembled from conditions and spans looks like what is assembled from what is seen.
  have hassemble : ∀ found found' : Selector × List TimeSpan,
      Prod.map id (List.map sight.span) found = Prod.map id (List.map sight.span) found' →
      sight.rule (RuleForm.assemble ⟨times, modifier⟩ additional found) =
        sight.rule (RuleForm.assemble ⟨times', modifier'⟩ additional found') := by
    rintro ⟨selector, spans⟩ ⟨selector', spans'⟩ hfound
    obtain ⟨hselector, hspans⟩ := Prod.mk.inj hfound
    obtain rfl : selector = selector' := hselector
    have hempty : spans.isEmpty = spans'.isEmpty := by
      rw [← List.isEmpty_map, hspans, List.isEmpty_map]
    have hword : modifier.bind ModifierForm.kind = modifier'.bind ModifierForm.kind := by
      cases modifier <;> cases modifier' <;> simp_all [ModifierForm.seen]
    have hcomment : (RuleForm.comment? ⟨times, modifier⟩).map sight.comment =
        (RuleForm.comment? ⟨times', modifier'⟩).map sight.comment := by
      cases modifier <;> cases modifier' <;>
        simp_all [ModifierForm.seen, RuleForm.comment?, Function.comp_def]
    have hkind : RuleForm.kindOver ⟨times, modifier⟩ spans =
        RuleForm.kindOver ⟨times', modifier'⟩ spans' := by
      have hsome := congrArg Option.isSome hcomment
      rw [Option.isSome_map, Option.isSome_map] at hsome
      simp only [RuleForm.kindOver, hword, hsome, hempty]
    simp only [Sight.rule, RuleForm.assemble, hkind, hcomment, hempty]
    split
    · rfl
    · rw [hspans]
  have hseen : ∀ (times : Option TimesForm),
      (times.elim (.ok ({}, [])) TimesForm.interpret).toOption.map
          (Prod.map id (List.map sight.span)) =
        (times.map (TimesForm.seen sight)).getD (some ({}, [])) := by
    intro times
    cases times <;> rfl
  have hfound := (hseen times).trans ((congrArg (Option.getD · _) htimes).trans (hseen times').symm)
  simp only [RuleForm.seenWhen, meaning?, RuleForm.interpret_eq, toOption_bind]
  generalize (times.elim (.ok ({}, [])) TimesForm.interpret).toOption = found at hfound ⊢
  generalize (times'.elim (.ok ({}, [])) TimesForm.interpret).toOption = found' at hfound ⊢
  cases found with
  | none =>
    obtain rfl := Option.map_eq_none_iff.1 hfound.symm
    rfl
  | some found =>
    cases found' with
    | none => cases hfound
    | some found' => exact congrArg some (hassemble _ _ (Option.some.inj hfound))

/-- What is seen of a rule behind a separator. -/
def seenPart (sight : Sight) (part : SeparatorForm × RuleForm) : Option Rule :=
  (meaning? interpretPart part).map sight.rule

theorem seenPart_exact : seenPart .exact = meaning? interpretPart := by
  funext part
  rw [seenPart, funext Sight.rule_exact, Option.map_id']

theorem seen_part {a b : SeparatorForm × RuleForm}
    (h : Prod.map (meaning? SeparatorForm.interpret) (RuleForm.seenWhen sight) a =
      Prod.map (meaning? SeparatorForm.interpret) (RuleForm.seenWhen sight) b) :
    seenPart sight a = seenPart sight b := by
  have heq : ∀ part : SeparatorForm × RuleForm, seenPart sight part =
      (meaning? SeparatorForm.interpret part.1).bind (part.2.seenWhen sight) := by
    rintro ⟨separator, form⟩
    simp only [seenPart, meaning?, interpretPart, toOption_bind]
    cases separator.interpret.toOption <;> rfl
  obtain ⟨hseparator, hrule⟩ := Prod.mk.inj h
  rw [heq, heq, hseparator, hrule]

end Grammar

end Timetable
