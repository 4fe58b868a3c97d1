import Mathlib.Algebra.Group.Nat.Defs
import Timetable.Proofs.Reading.Supported

/-!
Years, and all that is known of a text that was read.

Nothing bounds the value of a year where forms are given their meaning: years are small because the
grammar reads them as rows of four digits. A single day number behind a day in December of the year
9999 is the one way past four digits, and then the year is 10000. With the bounds of the other
numbers this makes up `RulesAccepted`, which holds of whatever was read
(`Expression.accepted_of_read`).
-/

namespace Timetable

/-! ### Years within bounds -/

/-- A year that may be missing is not past a last one. -/
def YearUpTo (last : Nat) (year : Option Nat) : Prop := ∀ value ∈ year, value ≤ last

/-- Both years have at most four digits. -/
def YearRange.HasSmallYears (range : YearRange) : Prop := range.first ≤ 9999 ∧ range.last ≤ 9999

/-- All years have at most four digits, except that a range of days may end in the year 10000. -/
def DateRange.HasSmallYears : DateRange → Prop
  | .months year _ _ => YearUpTo 9999 year
  | .days first last => YearUpTo 9999 first.year? ∧ YearUpTo 10000 last.year?

/-- All years of the selector are small. -/
structure Selector.HasSmallYears (selector : Selector) : Prop where
  years : ∀ range ∈ selector.years, range.HasSmallYears
  dates : ∀ range ∈ selector.dates, range.HasSmallYears

theorem YearUpTo.mono {last later : Nat} {year : Option Nat} (h : YearUpTo last year)
    (hle : last ≤ later) : YearUpTo later year :=
  fun value hvalue => Nat.le_trans (h value hvalue) hle

theorem yearUpTo_none (last : Nat) : YearUpTo last none := nofun

theorem yearUpTo_some {last value : Nat} (h : value ≤ last) : YearUpTo last (some value) := by
  rintro _ ⟨⟩
  exact h

/-- Moving a year by one moves the bound. -/
theorem YearUpTo.succ {last : Nat} {year : Option Nat} (h : YearUpTo last year) :
    YearUpTo (last + 1) (year.map (· + 1)) := by
  cases year with
  | none => exact yearUpTo_none _
  | some value => exact yearUpTo_some (Nat.succ_le_succ (h value rfl))

/-- A row of digits denotes less than the power of ten with as many zeros. -/
theorem Decimal.value_lt {row : List Char} (h : ∀ c ∈ row, c.isDigit = true) :
    value row < 10 ^ row.length := by
  -- the digits before the row count as `init` times that power
  have hfrom : ∀ init, Nat.ofDigitChars 10 row init < (init + 1) * 10 ^ row.length := by
    induction row with
    | nil => intro init; simp
    | cons c row ih =>
      intro init
      obtain ⟨hc, hrow⟩ := List.forall_mem_cons.1 h
      have hdigit : c.toNat - '0'.toNat ≤ 9 := by
        rw [Char.isDigit, Bool.and_eq_true, decide_eq_true_eq, decide_eq_true_eq] at hc
        have hle : c.toNat ≤ '9'.toNat := hc.2
        have hnine : '9'.toNat = 57 := rfl
        have hzero : '0'.toNat = 48 := rfl
        omega
      calc Nat.ofDigitChars 10 (c :: row) init
          = Nat.ofDigitChars 10 row (10 * init + (c.toNat - '0'.toNat)) := Nat.ofDigitChars_cons
        _ < (10 * init + (c.toNat - '0'.toNat) + 1) * 10 ^ row.length := ih hrow _
        _ ≤ ((init + 1) * 10) * 10 ^ row.length := Nat.mul_le_mul_right _ (by omega)
        _ = (init + 1) * 10 ^ (c :: row).length := by
          rw [List.length_cons, Nat.pow_succ, Nat.mul_assoc, Nat.mul_comm 10]
  simpa [value] using hfrom 0

namespace Grammar

/-! ### Years as they are written -/

/-- Four digits. -/
def FourDigitRow (row : List Char) : Prop := (∀ c ∈ row, c.isDigit = true) ∧ row.length = 4

theorem FourDigitRow.value_le {row : List Char} (h : FourDigitRow row) :
    Decimal.value row ≤ 9999 := by
  have hlt := Decimal.value_lt h.1
  rw [h.2] at hlt
  omega

/-- The last year has four digits, if one is written. -/
def YearEndForm.Written (form : YearEndForm) : Prop :=
  ∀ last step, form = .upTo last step → FourDigitRow last

/-- The years of the range have four digits each. -/
def YearForm.Written (form : YearForm) : Prop := FourDigitRow form.first ∧ form.ending.Written

/-- The year of the day, if one is written. -/
def DayForm.year? : DayForm → Option (List Char)
  | .fixed year _ _ => year
  | .easter year => year

/-- The year of the last day has four digits, if one is written. -/
def LastDayForm.Written (form : LastDayForm) : Prop :=
  ∀ last, form = .day last → ∀ row ∈ last.year?, FourDigitRow row

/-- The years have four digits each. -/
def DateForm.Written : DateForm → Prop
  | .days first _ ending =>
    (∀ row ∈ first.year?, FourDigitRow row) ∧
      ∀ last offset, ending = .upTo last offset → last.Written
  | .months year _ _ => ∀ row ∈ year, FourDigitRow row

/-- All years have four digits. -/
def WideForm.Written (form : WideForm) : Prop :=
  (∀ range ∈ form.years, range.Written) ∧ ∀ range ∈ form.dates, range.Written

/-! ### Years as they are read -/

theorem yearUpTo_of_fourDigitRow {year : Option (List Char)} (h : ∀ row ∈ year, FourDigitRow row) :
    YearUpTo 9999 (year.map Decimal.value) := by
  cases year with
  | none => exact yearUpTo_none _
  | some row => exact yearUpTo_some (h row rfl).value_le

theorem YearForm.hasSmallYears {form : YearForm} {range : YearRange} (hwritten : form.Written)
    (h : form.interpret = .ok range) : range.HasSmallYears := by
  obtain ⟨hfirst, hlast⟩ := hwritten
  unfold YearForm.interpret at h
  dsimp only at h
  split at h
  · obtain rfl := Except.ok.inj h
    exact ⟨hfirst.value_le, hfirst.value_le⟩
  · obtain rfl := Except.ok.inj h
    exact ⟨hfirst.value_le, Nat.le_refl 9999⟩
  · rename_i last step hending
    obtain ⟨number, -, h⟩ := bind_eq_ok.1 h
    obtain rfl := Except.ok.inj h
    exact ⟨hfirst.value_le, (hlast last step hending).value_le⟩

theorem DayForm.yearUpTo {form : DayForm} (h : ∀ row ∈ form.year?, FourDigitRow row) :
    YearUpTo 9999 form.interpret.year? := by
  cases form with
  | fixed year month day => exact yearUpTo_of_fourDigitRow h
  | easter year => exact yearUpTo_of_fourDigitRow h

/-- The last day is of the next year just if a day number goes on from December into January. -/
theorem LastDayForm.yearUpTo {form : LastDayForm} {first day : AnnualDay}
    (hwritten : form.Written) (hfirst : YearUpTo 9999 first.year?)
    (h : form.interpret first = .ok day) :
    YearUpTo 10000 day.year? := by
  cases form with
  | day written =>
    obtain rfl := Except.ok.inj h
    exact (DayForm.yearUpTo (hwritten written rfl)).mono (by decide)
  | number fragment =>
    cases first with
    | easter year => cases h
    | fixed year month firstNumber =>
      have hsame : YearUpTo 10000 year := YearUpTo.mono hfirst (by decide)
      unfold LastDayForm.interpret at h
      dsimp only at h
      split at h
      · obtain rfl := Except.ok.inj h
        change YearUpTo 10000 (if month = .december then year.map (· + 1) else year)
        split
        · exact YearUpTo.succ hfirst
        · exact hsame
      · obtain rfl := Except.ok.inj h
        exact hsame

theorem DateForm.hasSmallYears {form : DateForm} {range : DateRange} (hwritten : form.Written)
    (h : form.interpret = .ok range) : range.HasSmallYears := by
  cases form with
  | months year first last =>
    obtain rfl := Except.ok.inj h
    exact yearUpTo_of_fourDigitRow hwritten
  | days first offset ending =>
    have hfirst : YearUpTo 9999 first.interpret.year? := DayForm.yearUpTo hwritten.1
    obtain ⟨-, -, h⟩ := bind_eq_ok.1 h
    cases ending with
    | missing =>
      obtain rfl := Except.ok.inj h
      exact ⟨hfirst, hfirst.mono (by decide)⟩
    | plus =>
      obtain rfl := Except.ok.inj h
      refine ⟨hfirst, ?_⟩
      change YearUpTo 10000 (first.interpret.year?.map fun _ => 9999)
      cases first.interpret.year? with
      | none => exact yearUpTo_none _
      | some _ => exact yearUpTo_some (show 9999 ≤ 10000 by decide)
    | upTo last offset =>
      obtain ⟨lastDay, hlast, h⟩ := bind_eq_ok.1 h
      obtain ⟨-, -, h⟩ := bind_eq_ok.1 h
      obtain rfl := Except.ok.inj h
      exact ⟨hfirst, LastDayForm.yearUpTo (hwritten.2 last _ rfl) hfirst hlast⟩

/-- The wide conditions that a form has, if it has any. -/
def RuleForm.wide? (form : RuleForm) : Option WideForm :=
  match form.times with
  | some (.times wide _) => wide
  | _ => none

theorem TimesForm.hasSmallYears {wide : Option WideForm} {small : Option SmallForm}
    {selector : Selector} {spans : List TimeSpan} (hwritten : ∀ form ∈ wide, form.Written)
    (h : (TimesForm.times wide small).interpret = .ok (selector, spans)) :
    selector.HasSmallYears := by
  obtain ⟨hwide, -, -⟩ := TimesForm.interpret_times_eq_ok.1 h
  cases wide with
  | none =>
    have heq := Except.ok.inj hwide
    have hyears : [] = selector.years := congrArg Selector.years heq
    have hdates : [] = selector.dates := congrArg Selector.dates heq
    exact ⟨hyears ▸ List.forall_mem_nil _, hdates ▸ List.forall_mem_nil _⟩
  | some form =>
    obtain ⟨hyears, hdates, -⟩ := WideForm.interpret_eq_ok.1 hwide
    obtain ⟨hyearForms, hdateForms⟩ := hwritten form rfl
    exact ⟨forall_mem_of_mapM_eq_ok hyears fun form hform _ =>
        YearForm.hasSmallYears (hyearForms form hform),
      forall_mem_of_mapM_eq_ok hdates fun form hform _ =>
        DateForm.hasSmallYears (hdateForms form hform)⟩

theorem RuleForm.hasSmallYears {form : RuleForm} {additional : Bool} {rule : Rule}
    (hwritten : ∀ wide ∈ form.wide?, wide.Written) (h : form.interpret additional = .ok rule) :
    rule.selector.HasSmallYears := by
  obtain ⟨⟨selector, spans⟩, htimes, rfl⟩ := RuleForm.interpret_eq_ok.1 h
  change selector.HasSmallYears
  obtain ⟨times, modifier⟩ := form
  match times, hwritten, htimes with
  | none, _, htimes =>
    obtain ⟨rfl, -⟩ := Prod.mk.inj (Except.ok.inj htimes)
    exact ⟨List.forall_mem_nil _, List.forall_mem_nil _⟩
  | some .always, _, htimes =>
    obtain ⟨rfl, -⟩ := Prod.mk.inj (Except.ok.inj htimes)
    exact ⟨List.forall_mem_nil _, List.forall_mem_nil _⟩
  | some (.times wide small), hwritten, htimes => exact TimesForm.hasSmallYears hwritten htimes

/-! ### What the grammar says of years -/

open Peg

variable {source : List Char}

theorem yields_year : year.Yields source FourDigitRow :=
  Yields.named (Yields.followedBy (Yields.mono yields_chars
    fun _ h => ⟨h.1, Nat.le_antisymm (h.2.2 4 rfl) h.2.1⟩))

theorem yields_leadingYear : leadingYear.Yields source fun row? => ∀ row ∈ row?, FourDigitRow row :=
  Yields.optional yields_year.followedBy

theorem yields_yearRange_written : yearRange.Yields source YearForm.Written := by
  have hupTo : ∀ source, (map (fun parts => YearEndForm.upTo parts.1 parts.2)
      (seq ((token ['-']).andThen year) (optional ((token ['/']).andThen number)))).Yields source
        YearEndForm.Written := by
    intro source
    refine Yields.map (Yields.seq_left (Yields.andThen fun _ => yields_year)) ?_
    rintro ⟨row, _⟩ hrow _ _ ⟨⟩
    exact hrow
  have hplus : ∀ source, (map (fun _ => YearEndForm.plus) plus).Yields source
      YearEndForm.Written := fun _ => Yields.map yields_true fun _ _ _ _ => nofun
  have hmissing : ∀ source, (Peg.pure YearEndForm.missing).Yields source YearEndForm.Written :=
    fun _ => yields_pure fun _ _ => nofun
  exact Yields.named (Yields.map (Yields.seq yields_year fun between =>
    Yields.choice (hupTo between) (Yields.choice (hplus between)
      (Yields.choice (hmissing between) refuses_fail.yields))) fun _ h => h)

theorem yields_day_written :
    day.Yields source fun form => ∀ row ∈ form.year?, FourDigitRow row := by
  apply Yields.named
  refine Yields.map yields_leadingYear.seq_left ?_
  rintro ⟨row?, fixed⟩ hrow
  cases fixed with
  | none => exact hrow
  | some fixed => exact hrow

theorem yields_lastDay_written : lastDay.Yields source LastDayForm.Written := by
  apply Yields.named
  refine Yields.choice (Yields.map yields_day_written ?_)
    (Yields.map yields_true fun _ _ _ => nofun)
  rintro _ hday _ ⟨⟩
  exact hday

theorem yields_dateRange_written : dateRange.Yields source DateForm.Written := by
  have hend : ∀ source, dayEnd.Yields source fun ending =>
      ∀ last offset, ending = .upTo last offset → last.Written := by
    intro source
    refine Yields.choice ?_ (Yields.choice ?_ (Yields.choice ?_ refuses_fail.yields))
    · refine Yields.map (Yields.andThen fun _ => Yields.seq_left yields_lastDay_written) ?_
      rintro ⟨_, _⟩ hday _ _ ⟨⟩
      exact hday
    · exact Yields.map yields_true fun _ _ _ _ => nofun
    · exact yields_pure fun _ _ => nofun
  apply Yields.named
  refine Yields.choice ?_ ?_
  · refine Yields.map (Yields.seq yields_day_written fun _ =>
      Yields.seq yields_true fun _ => hend _) ?_
    rintro _ ⟨hfirst, -, hending⟩
    exact ⟨hfirst, hending⟩
  · exact Yields.map yields_leadingYear.seq_left fun _ => id

theorem yields_wide_written : wide.Yields source WideForm.Written := by
  have hdates : ∀ source, dates.Yields source fun forms => ∀ form ∈ forms, form.Written :=
    fun _ => Yields.named (Yields.separatedBy consumes_comma fun _ => yields_dateRange_written)
  have hyears : ∀ source, years.Yields source fun forms => ∀ form ∈ forms, form.Written :=
    fun _ => Yields.named (Yields.separatedBy consumes_comma fun _ => yields_yearRange_written)
  have hlead : ∀ source, wideLead.Yields source fun parts =>
      (∀ form ∈ parts.1, form.Written) ∧ ∀ form ∈ parts.2, form.Written := by
    intro source
    refine Yields.choice (Yields.map (hdates _) fun _ h => ⟨List.forall_mem_nil _, h⟩) ?_
    refine Yields.map (Yields.seq (hyears _) fun _ =>
      Yields.optional (Yields.andThen fun _ => hdates _)) ?_
    rintro ⟨_, dates?⟩ ⟨hyears, hdates⟩
    refine ⟨hyears, ?_⟩
    cases dates? with
    | none => exact List.forall_mem_nil _
    | some forms => exact hdates forms rfl
  exact Yields.named (Yields.choice (Yields.map (hlead source).seq_left fun _ => id)
    (Yields.map yields_true fun _ _ => ⟨List.forall_mem_nil _, List.forall_mem_nil _⟩))

theorem yields_rule_written : rule.Yields source fun form => ∀ wide ∈ form.wide?, wide.Written := by
  have htimes : times.Yields source fun form =>
      ∀ wide ∈ RuleForm.wide? ⟨some form, none⟩, wide.Written := by
    apply Yields.named
    refine Yields.choice ?_ (Yields.choice ?_ (Yields.choice ?_ refuses_fail.yields))
    · exact Yields.named (Yields.map yields_true fun _ _ => nofun)
    · refine Yields.map (yields_wide_written.seq_left) ?_
      rintro _ hwide _ ⟨⟩
      exact hwide
    · exact Yields.map yields_true fun _ _ => nofun
  apply Yields.named
  refine Yields.choice (Yields.map htimes.seq_left ?_) (Yields.map yields_true fun _ _ => nofun)
  rintro ⟨form, _⟩ hform
  cases form with
  | always => nofun
  | times wide small => exact hform

theorem yields_wholeText_written : wholeText.Yields source fun form =>
    (∀ wide ∈ form.first.wide?, wide.Written) ∧
      ∀ part ∈ form.rest, ∀ wide ∈ part.2.wide?, wide.Written := by
  refine Yields.followedBy (Yields.followedBy (Yields.andThen fun _ => Yields.named
    (Yields.followedBy (Yields.map (Yields.seq yields_rule_written fun _ =>
      Yields.many consumes_separator.seq_left fun _ =>
        Yields.seq yields_true fun _ => yields_rule_written) ?_))))
  rintro _ ⟨hfirst, hrest⟩
  exact ⟨hfirst, fun part hpart => (hrest part hpart).2⟩

end Grammar

/-! ### What was read -/

open Grammar

/-- All that holds of the rules of every text that can be read. -/
structure RulesAccepted (rules : List Rule) : Prop extends RulesInBounds rules where
  years : ∀ rule ∈ rules, rule.selector.HasSmallYears
  not_comment : ¬ IsLoneComment rules

namespace Expression

theorem hasSmallYears_of_readRules {text : List Char} {rules : List Rule}
    (h : readRules text = .ok rules) : ∀ rule ∈ rules, rule.selector.HasSmallYears := by
  obtain ⟨form, cursor, hform, hinterpret⟩ := readRules_eq_ok.1 h
  obtain ⟨hfirst, hrest⟩ := yields_wholeText_written 0 form cursor hform
  obtain ⟨first, rest, hfirst', hrest', rfl⟩ := ExpressionForm.interpret_eq_ok.1 hinterpret
  refine List.forall_mem_cons.2 ⟨RuleForm.hasSmallYears hfirst hfirst',
    forall_mem_of_mapM_eq_ok hrest' fun part hpart rule hrule => ?_⟩
  obtain ⟨additional, -, hrule⟩ := bind_eq_ok.1 hrule
  exact RuleForm.hasSmallYears (hrest part hpart) hrule

/-- Every text that is read gives at least one rule, the first of which overrides. In each rule
steps are at least 1, weeks are from 1 to 53 and day numbers from 1 to 31, years are small, spans
begin by 24:00 and end by 48:00, events are moved by a day at most, an open rule has spans, weekdays
and holidays stand in an order that can be written, and no comment has a quote. The rules are more
than one lone comment. -/
theorem accepted_of_read {text : String} {expression : Expression}
    (h : read text = .ok expression) : RulesAccepted expression.rules := by
  obtain ⟨hrules, hlone, -, -⟩ := read_eq_ok.1 h
  obtain ⟨form, cursor, hform, hinterpret⟩ := readRules_eq_ok.1 hrules
  obtain ⟨hfirst, hrest⟩ := yields_wholeText_written 0 form cursor hform
  obtain ⟨first, rest, hfirst', hrest', heq⟩ := ExpressionForm.interpret_eq_ok.1 hinterpret
  refine ⟨inBounds_of_read h, ?_, loneComment?_eq_none_iff.1 hlone⟩
  rw [heq]
  refine List.forall_mem_cons.2 ⟨RuleForm.hasSmallYears hfirst hfirst',
    forall_mem_of_mapM_eq_ok hrest' fun part hpart rule hrule => ?_⟩
  obtain ⟨additional, -, hrule⟩ := bind_eq_ok.1 hrule
  exact RuleForm.hasSmallYears (hrest part hpart) hrule

/-- From 28 December 9999 to 5 January 10000, with a comment, and the holidays on Mondays. -/
def lastNewYear : Expression where
  given := "9999 Dec 28-05 17:45-25:15 \"last\"; PH Mo off"
  source := "9999 Dec 28-05 17:45-25:15 \"last\"; PH Mo off"
  rules := [{
    selector := {
      dates := [.days (.fixed (some 9999) .december 28) (.fixed (some 10000) .january 5)] }
    spans := [.ofClock ⟨1065, by decide⟩ ⟨1515, by decide⟩]
    kind := .opened
    comment := some "last" }, {
    selector := { weekdays := [.days .monday .monday], holidays := [.publicHoliday] } }]

theorem accepted_lastNewYear :
    read "9999 Dec 28-05 17:45-25:15 \"last\"; PH Mo off" = .ok lastNewYear ∧
      RulesAccepted lastNewYear.rules := by
  have hread : read "9999 Dec 28-05 17:45-25:15 \"last\"; PH Mo off" = .ok lastNewYear := by rfl
  exact ⟨hread, accepted_of_read hread⟩

end Expression

end Timetable
