import Timetable.Proofs.Building.Spans

/-!
What is built from a tree is what the form means: weekdays and holidays.
-/

namespace Timetable.Grammar

variable {α β : Type}

open Peg

/-! ### Days -/

/-- Days by which another day is meant are not built, but refused where they stand; their place and
their text are kept for this. -/
theorem mirrors_dayOffset :
    Tree.dayOffset.Mirrors (Tree.Named .dayOffset fun tree whole => tree.whole = whole)
      dayOffset := by
  have hinner := Tree.mirrors_branch .dayOffset (Tree.mirrors_before
    (Tree.mirrors_behind someSpace (Tree.mirrors_both mirrors_sign mirrors_number))
    (someSpace.andThen (choice (token "days".toList) (token "day".toList))))
  exact (Tree.mirrors_kept hinner).map_right fun _ _ ⟨tree, heq, hsymbol, hkept⟩ =>
    ⟨tree, heq, hsymbol, hkept.2⟩

theorem mirrors_occurrences :
    Tree.occurrences.Mirrors (Tree.Named .occurrences fun tree whole => tree.whole = whole)
      occurrences :=
  (Tree.mirrors_kept (Tree.mirrors_mark .occurrences _)).map_right
    fun _ _ ⟨tree, heq, hsymbol, hkept⟩ => ⟨tree, heq, hsymbol, hkept.2⟩

/-- What is refused of a part is what is refused of its text at its place. -/
theorem refuse_eq {tree : Tree} {whole : Fragment} (h : tree.whole = whole)
    (feature : Unsupported) :
    (Build.refuse tree feature : Except Fault α) = refusing (whole.refuse feature) := by
  rw [Build.refuse, h]
  rfl

/-- The second weekday of a range is the part behind the first one, if that is a weekday. -/
theorem lastWeekday_eq {first : Weekday} {last : Option Weekday} {trees rest : List Tree}
    (h : Tree.Maybe (Tree.Named .weekday fun tree day => Build.weekday tree = .ok day) trees last)
    (hrest : ∀ part ∈ rest.head?, part.symbol ≠ .weekday) :
    Build.lastWeekday first (trees ++ rest) = .ok (last.getD first, rest) := by
  cases last with
  | some day =>
    obtain ⟨second, rfl, hsecond, hday⟩ := h
    rw [List.singleton_append, Build.lastWeekday, if_pos hsecond, hday]
    rfl
  | none =>
    obtain rfl : trees = [] := h
    cases rest with
    | nil => rfl
    | cons part rest => exact if_neg (hrest part rfl)

/-- Where nothing is left, or an offset that is refused. -/
theorem unmoved_eq {trees : List Tree} {offset : Option Fragment}
    (h : Tree.Maybe (Tree.Named .dayOffset fun tree whole => tree.whole = whole) trees offset)
    (value : α) : Build.unmoved value trees =
      refusing (do refuseIfPresent .dayOffset offset; return value) := by
  cases offset with
  | some whole =>
    obtain ⟨part, rfl, -, hwhole⟩ := h
    rw [Build.unmoved, refuse_eq hwhole]
    rfl
  | none =>
    obtain rfl : trees = [] := h
    rfl

/-- A range of weekdays is built; numbers between brackets are refused before days that are added.
-/
theorem mirrors_weekdayRange : Tree.weekdayRange.Mirrors
    (Tree.Named .weekdayRange (Builds Build.weekdayRange WeekdayForm.interpret)) weekdayRange := by
  refine Tree.mirrors_map (Tree.mirrors_both (Tree.mirrors_both mirrors_weekday
    (Tree.mirrors_maybe (Tree.mirrors_behind (token ['-']) mirrors_weekday)))
    (Tree.mirrors_both (Tree.mirrors_maybe mirrors_occurrences)
      (Tree.mirrors_maybe mirrors_dayOffset))) ?_
  rintro tree ⟨⟨first, last⟩, ⟨numbers, offset⟩⟩ hsymbol ⟨_, _, hchildren,
    ⟨_, lasts, rfl, ⟨start, rfl, -, hfirst⟩, hlast⟩, ⟨numbered, offsets, rfl, hnumbers, hoffset⟩⟩
  rw [Builds, Build.weekdayRange, expect_eq hsymbol, hchildren]
  simp only [ok_bind, Build.next, List.cons_append, List.nil_append, hfirst, WeekdayForm.interpret]
  cases numbers with
  | some whole =>
    obtain ⟨part, rfl, hpart, hwhole⟩ := hnumbers
    rw [lastWeekday_eq hlast (by rintro _ ⟨⟩; rw [hpart]; decide), ok_bind]
    dsimp only [List.cons_append]
    rw [if_pos hpart, refuse_eq hwhole]
    rfl
  | none =>
    obtain rfl : numbered = [] := hnumbers
    have hunmoved := unmoved_eq hoffset (WeekdayRange.days first (last.getD first))
    rw [List.nil_append]
    cases offset with
    | some whole =>
      obtain ⟨part, rfl, hpart, -⟩ := hoffset
      rw [lastWeekday_eq hlast (by rintro _ ⟨⟩; rw [hpart]; decide), ok_bind]
      dsimp only
      rw [if_neg (by rw [hpart]; decide), hunmoved]
      rfl
    | none =>
      obtain rfl : offsets = [] := hoffset
      have hnone : ∀ part ∈ ([] : List Tree).head?, part.symbol ≠ .weekday := by
        rintro _ ⟨⟩
      rw [lastWeekday_eq hlast hnone]
      rfl

theorem mirrors_weekdays : Tree.weekdays.Mirrors (Tree.Named .weekdays
    (Builds (Build.listOf .weekdays Build.weekdayRange)
      fun forms => forms.mapM WeekdayForm.interpret)) weekdays :=
  mirrors_list (Tree.mirrors_listOf mirrors_weekdayRange _)

/-- A part that is read as a holiday is of one of the two kinds. -/
theorem mirrors_holiday :
    Tree.holiday.Mirrors (Tree.Named .holiday (Builds Build.holiday HolidayForm.interpret))
      holiday := by
  have hkind : (choice (Tree.leaf .publicHoliday (token "PH".toList))
      (Tree.leaf .schoolHoliday (token "SH".toList))).Mirrors
        (fun trees kind => ∃ tree, trees = [tree] ∧ Build.holidayKind tree = .ok kind)
        (choice (named (word "PH" Holiday.publicHoliday))
          (named (word "SH" Holiday.schoolHoliday))) := by
    refine ((Tree.mirrors_leaf_word .publicHoliday "PH" _).mono ?_).choice
      ((Tree.mirrors_leaf_word .schoolHoliday "SH" _).mono ?_) <;>
    · rintro _ _ ⟨tree, rfl, hsymbol, rfl⟩
      refine ⟨tree, rfl, ?_⟩
      rw [Build.holidayKind, hsymbol]
  refine Tree.mirrors_map (Tree.mirrors_both hkind (Tree.mirrors_maybe mirrors_dayOffset)) ?_
  rintro tree ⟨kind, offset⟩ hsymbol ⟨_, rest, hchildren, ⟨first, rfl, hkind⟩, hoffset⟩
  rw [Builds, Build.holiday, expect_eq hsymbol, hchildren]
  simp only [ok_bind, Build.next, List.cons_append, List.nil_append, hkind]
  exact unmoved_eq hoffset kind

theorem mirrors_holidays : Tree.holidays.Mirrors (Tree.Named .holidays
    (Builds (Build.listOf .holidays Build.holiday)
      fun forms => forms.mapM HolidayForm.interpret)) holidays :=
  mirrors_list (Tree.mirrors_listOf mirrors_holiday _)

/-- A list of parts that may be missing. -/
def Listed (symbol : Symbol) (item : Tree → Except Fault β) (meaning : α → Except ReadError β)
    (trees : List Tree) (forms : List α) : Prop :=
  (trees = [] ∧ forms = []) ∨
    Tree.Named symbol (Builds (Build.listOf symbol item) fun forms => forms.mapM meaning) trees
      forms

section Listed

variable {symbol : Symbol} {item : Tree → Except Fault β} {meaning : α → Except ReadError β}
  {trees : List Tree} {forms : List α}

/-- A list that is missing has no elements. -/
theorem Listed.of_maybe {forms? : Option (List α)} (h : Tree.Maybe (Tree.Named symbol
      (Builds (Build.listOf symbol item) fun forms => forms.mapM meaning)) trees forms?) :
    Listed symbol item meaning trees (forms?.getD []) := by
  cases forms? with
  | some forms => exact .inr h
  | none => exact .inl ⟨h, rfl⟩

/-- Where the list is put into what was found so far, it does not matter if it is missing. -/
theorem Listed.foldlM_eq (h : Listed symbol item meaning trees forms)
    (add : γ → Tree → Except Fault γ) (put : γ → List β → γ) (found : γ)
    (hadd : ∀ tree, tree.symbol = symbol →
      add found tree = (do return put found (← Build.listOf symbol item tree)))
    (hput : put found [] = found) :
    trees.foldlM add found = refusing (do return put found (← forms.mapM meaning)) := by
  rcases h with ⟨rfl, rfl⟩ | ⟨tree, rfl, hsymbol, hbuilds⟩
  · exact congrArg Except.ok hput.symm
  · rw [List.foldlM_cons, hadd tree hsymbol, hbuilds.out, refusing_bind]
    simp only [List.foldlM_nil, bind_assoc, pure_bind]
    rfl

end Listed

/-- What is found in the trees, one after the other, is what the days mean. -/
def DaysParts (trees : List Tree) (form : DaysForm) : Prop :=
  trees.foldlM Build.addDays ([], []) = refusing form.interpret

theorem mirrors_holidaysOnWeekdays : Tree.holidaysOnWeekdays.Mirrors DaysParts
    holidaysOnWeekdays := by
  have hparts : Tree.holidaysOnWeekdays.Mirrors
      (Tree.Named .holidaysOnWeekdays fun tree form => DaysParts [tree] form)
        holidaysOnWeekdays := by
    refine Tree.mirrors_map (Tree.mirrors_both (Tree.mirrors_before mirrors_holidays someSpace)
      mirrors_weekdays) ?_
    rintro tree ⟨holidays, weekdays⟩ hsymbol
      ⟨_, _, hchildren, ⟨first, rfl, hfirst, hholidays⟩, ⟨second, rfl, hsecond, hweekdays⟩⟩
    rw [DaysParts, List.foldlM_cons, Build.addDays, hsymbol]
    simp only [hchildren, List.cons_append, List.nil_append, List.foldlM_cons, List.foldlM_nil,
      Build.addDemanded, hfirst, hsecond, hholidays.out, hweekdays.out, DaysForm.interpret,
      refusing_bind, bind_assoc, pure_bind, bind_pure]
    rfl
  exact hparts.mono fun _ _ ⟨_, heq, _, hvalue⟩ => heq ▸ hvalue

theorem mirrors_afterComma {symbol : Symbol} {item : Tree → Except Fault β}
    {meaning : α → Except ReadError β} {trees : Peg (List Tree)} {peg : Peg (List α)}
    (h : trees.Mirrors (Tree.Named symbol
      (Builds (Build.listOf symbol item) fun forms => forms.mapM meaning)) peg) :
    (Tree.maybe (Tree.behind (token [',']) trees)).Mirrors (Listed symbol item meaning)
      (afterComma peg) :=
  (Tree.mirrors_maybe (Tree.mirrors_behind (token [',']) h)).map_right
    fun _ _ hlisted => .of_maybe hlisted

theorem foldlM_weekdays {trees : List Tree} {forms : List WeekdayForm}
    (h : Listed .weekdays Build.weekdayRange WeekdayForm.interpret trees forms)
    (found : List WeekdayRange × List Holiday) : trees.foldlM Build.addDays found =
      refusing (do return (found.1 ++ (← forms.mapM WeekdayForm.interpret), found.2)) :=
  h.foldlM_eq Build.addDays (fun found ranges => (found.1 ++ ranges, found.2)) found
    (fun _ hsymbol => by rw [Build.addDays, hsymbol]) (by simp)

theorem foldlM_holidays {trees : List Tree} {forms : List HolidayForm}
    (h : Listed .holidays Build.holiday HolidayForm.interpret trees forms)
    (found : List WeekdayRange × List Holiday) : trees.foldlM Build.addDays found =
      refusing (do
        let kinds ← forms.mapM HolidayForm.interpret
        return (found.1 ++ kinds.map .holiday, found.2)) :=
  h.foldlM_eq Build.addDays (fun found kinds => (found.1 ++ kinds.map .holiday, found.2)) found
    (fun _ hsymbol => by rw [Build.addDays, hsymbol]) (by simp)

theorem mirrors_weekdaysThenHolidays :
    (Tree.both Tree.weekdays (Tree.maybe (Tree.behind (token [',']) Tree.holidays))).Mirrors
      DaysParts (map (fun parts => DaysForm.weekdaysThenHolidays parts.1 parts.2)
        (seq weekdays (afterComma holidays))) := by
  refine (Tree.mirrors_both mirrors_weekdays (mirrors_afterComma mirrors_holidays)).map_right ?_
  rintro _ ⟨weekdays, holidays⟩ ⟨_, rest, rfl, hweekdays, hholidays⟩
  rw [DaysParts, List.foldlM_append, foldlM_weekdays (.inr hweekdays), DaysForm.interpret]
  simp only [foldlM_holidays hholidays, refusing_bind, bind_assoc]
  rfl

theorem mirrors_holidaysThenWeekdays :
    (Tree.both Tree.holidays (Tree.maybe (Tree.behind (token [',']) Tree.weekdays))).Mirrors
      DaysParts (map (fun parts => DaysForm.holidaysThenWeekdays parts.1 parts.2)
        (seq holidays (afterComma weekdays))) := by
  refine (Tree.mirrors_both mirrors_holidays (mirrors_afterComma mirrors_weekdays)).map_right ?_
  rintro _ ⟨holidays, weekdays⟩ ⟨_, rest, rfl, hholidays, hweekdays⟩
  rw [DaysParts, List.foldlM_append, foldlM_holidays (.inr hholidays), DaysForm.interpret]
  simp only [foldlM_weekdays hweekdays, refusing_bind, bind_assoc]
  rfl

/-- In whatever order weekdays and holidays come, no other part stands among the days. -/
theorem mirrors_days :
    Tree.days.Mirrors (Tree.Named .days (Builds Build.days DaysForm.interpret)) days := by
  refine Tree.mirrors_mono (Tree.mirrors_branch .days (mirrors_holidaysOnWeekdays.choice
    (mirrors_weekdaysThenHolidays.choice (mirrors_holidaysThenWeekdays.choice mirrors_fail)))) ?_
  intro tree form hsymbol hparts
  rw [Builds, Build.days, expect_eq hsymbol]
  exact hparts

end Timetable.Grammar
