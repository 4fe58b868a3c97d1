import Timetable.Proofs.Building.Elements

/-!
What is built from a tree is what the form means: spans of time.

A clock time up to 24:00 has at most 1440 minutes, so that a signed offset of so many minutes fits
16 bits.
-/

namespace Timetable.Grammar

open Peg

/-! ### Spans of time -/

/-- Hours are looked at before they are multiplied, so that the product fits 16 bits. -/
theorem clockTime?_eq (hour minute : Nat) :
    Build.clockTime? hour minute = .ok (ClockTime.ofHourMinute? hour minute) := by
  unfold Build.clockTime? ClockTime.ofHourMinute? ClockTime.ofMinutes?
  split
  · rename_i hbeyond
    refine congrArg Except.ok ?_
    split
    · rw [dif_neg (by omega)]
    · rfl
  · rename_i hwithin
    rw [Build.fitsUnsigned, if_pos (by omega), if_pos (by omega)]
    simp only [ok_bind]
    rw [Build.fitsUnsigned, if_pos (by omega)]
    rfl

/-- A clock time is built or refused as its form is; its hour and its minute are there. -/
theorem clockUpTo_eq {hours : Nat} (hhours : hours = 24 ∨ hours = 48) {tree first second : Tree}
    {form : ClockForm} (hchildren : tree.children = [first, second])
    (hhour : Row 2 first form.hour) (hminute : Row 2 second form.minute) :
    Build.clockUpTo hours tree = refusing (form.interpret hours) := by
  obtain ⟨hfirst, hrow⟩ := hhour
  obtain ⟨hsecond, hrow'⟩ := hminute
  rw [← hfirst] at hrow
  rw [← hsecond] at hrow'
  have hgreatest : (ClockTime.ofHourMinute? hours 0).getD .endOfNextDay =
      ⟨hours * 60, by omega⟩ := by
    rcases hhours with rfl | rfl <;> rfl
  rw [Build.clockUpTo, hchildren]
  simp only [Build.next, ok_bind, hrow.numeral_eq (show 10 ^ 2 ≤ 2 ^ 8 by decide),
    hrow'.numeral_eq (show 10 ^ 2 ≤ 2 ^ 8 by decide), clockTime?_eq, hgreatest,
    ClockForm.interpret, ← hfirst, ← hsecond]
  cases ClockTime.ofHourMinute? (Decimal.value first.text) (Decimal.value second.text) with
  | none => rfl
  | some time =>
    dsimp only
    split
    · rename_i hle
      rw [if_pos (show time.minutes ≤ hours * 60 from hle)]
      rfl
    · rename_i hlt
      rw [if_neg (show ¬ time.minutes ≤ hours * 60 from hlt)]
      rfl

theorem mirrors_clockUpTo {symbol symbol' : Symbol} {hours : Nat} (hhours : hours = 24 ∨ hours = 48)
    {build : Tree → Except Fault ClockTime}
    (hbuild : ∀ tree, tree.symbol = symbol → build tree = Build.clockUpTo hours tree) :
    (Tree.branch symbol (Tree.both (Tree.before (Tree.leaf symbol' (digits 1 2)) (token [':']))
      (Tree.leaf .minute (digits 2 2)))).Mirrors
        (Tree.Named symbol (Builds build fun form : ClockForm => form.interpret hours)) clock := by
  refine Tree.mirrors_map (Tree.mirrors_both
    (Tree.mirrors_before (mirrors_digits symbol' (by decide)) (token [':']))
    (mirrors_digits .minute (by decide))) ?_
  rintro tree value hsymbol ⟨_, _, hchildren, ⟨first, rfl, -, hfirst⟩, ⟨second, rfl, -, hsecond⟩⟩
  rw [Builds, hbuild tree hsymbol]
  exact clockUpTo_eq hhours hchildren hfirst hsecond

theorem mirrors_clock : Tree.clock.Mirrors
    (Tree.Named .clock (Builds Build.clock fun form : ClockForm => form.interpret 24)) clock :=
  mirrors_clockUpTo (.inl rfl) fun tree hsymbol => by
    rw [Build.clock, expect_eq hsymbol]
    rfl

theorem mirrors_lateClock : Tree.lateClock.Mirrors
    (Tree.Named .lateClock (Builds Build.lateClock fun form : ClockForm => form.interpret 48))
      clock :=
  mirrors_clockUpTo (.inr rfl) fun tree hsymbol => by
    rw [Build.lateClock, expect_eq hsymbol]
    rfl

/-- The name of the part that stands for an event. -/
def eventSymbol : SolarEvent → Symbol
  | .dawn => .dawn
  | .sunrise => .sunrise
  | .sunset => .sunset
  | .dusk => .dusk

/-- A part that is read as an event has one of the four names within it. -/
theorem mirrors_event : Tree.event.Mirrors
    (Tree.Named .event fun tree kind => Build.event tree = .ok kind) event := by
  have hword : ∀ text kind, (Tree.leaf (eventSymbol kind) (token text.toList)).Mirrors
      (fun trees kind => ∃ tree, trees = [tree] ∧ tree.symbol = eventSymbol kind)
      (named (word text kind)) := fun text kind =>
    (Tree.mirrors_leaf_word _ text kind).mono fun _ _ ⟨tree, heq, hsymbol, hkind⟩ =>
      ⟨tree, heq, hkind ▸ hsymbol⟩
  refine Tree.mirrors_mono (Tree.mirrors_branch .event ((hword "dawn" .dawn).choice
    ((hword "sunrise" .sunrise).choice ((hword "sunset" .sunset).choice
      ((hword "dusk" .dusk).choice mirrors_fail))))) ?_
  rintro tree kind hsymbol ⟨inner, hchildren, hinner⟩
  rw [Build.event, expect_eq hsymbol, hchildren]
  simp only [ok_bind, Build.next, hinner]
  cases kind <;> rfl

/-- A clock time within a day fits 16 bits, with its sign, too. -/
theorem offset_eq {time : ClockTime} (h : time.minutes ≤ 1440) (later : Bool)
    (next : Int → Except Fault β) :
    (do
      let minutes ← Build.fitsSigned (← Build.fitsUnsigned time.minutes)
      next (← Build.fitsSigned ((if later then 1 else -1) * minutes))) =
        next (if later then time.minutes else -time.minutes) := by
  rw [Build.fitsUnsigned, if_pos (by omega), ok_bind, Build.fitsSigned, if_pos (by omega), ok_bind]
  cases later with
  | true =>
    rw [if_pos rfl, if_pos rfl, Int.one_mul, Build.fitsSigned, if_pos (by omega), ok_bind]
  | false =>
    rw [if_neg Bool.noConfusion, if_neg Bool.noConfusion, Int.neg_mul, Int.one_mul,
      Build.fitsSigned, if_pos (by omega), ok_bind]

/-- The parts of a moment that depends on the sun. -/
def SolarParts (trees : List Tree) : MomentForm → Prop
  | .clock _ => False
  | .event kind => ∃ first, trees = [first] ∧ Build.event first = .ok kind
  | .shifted kind later amount => ∃ first second third, trees = [first, second, third] ∧
      Build.event first = .ok kind ∧ Build.sign second = .ok (if later then 1 else -1) ∧
      Builds Build.clock (fun form : ClockForm => form.interpret 24) third amount

theorem mirrors_solarParts : Tree.solarMoment.Mirrors
    (Tree.Named .solarMoment fun tree form => SolarParts tree.children form) solarMoment := by
  have hplain : Tree.event.Mirrors SolarParts (map .event event) :=
    mirrors_event.map_right fun _ kind ⟨tree, heq, _, hkind⟩ => ⟨tree, heq, hkind⟩
  have hshifted := Tree.mirrors_behind (token ['(']) (Tree.mirrors_behind spaces (Tree.mirrors_both
    (Tree.mirrors_before mirrors_event spaces) (Tree.mirrors_both
      (Tree.mirrors_before mirrors_sign spaces)
      (Tree.mirrors_before (Tree.mirrors_before mirrors_clock spaces) (token [')'])))))
  refine Tree.mirrors_branch .solarMoment (hplain.choice (hshifted.map_right ?_))
  rintro _ ⟨kind, later, amount⟩ ⟨_, _, rfl, ⟨first, rfl, -, hkind⟩, ⟨_, _, rfl,
    ⟨second, rfl, -, hlater⟩, ⟨third, rfl, -, hamount⟩⟩⟩
  exact ⟨first, second, third, rfl, hkind, hlater, hamount⟩

/-- An event is moved by a day at most, which fits 16 bits with a sign. -/
theorem mirrors_solarMoment (hours : Nat) : Tree.solarMoment.Mirrors
    (Tree.Named .solarMoment (Builds Build.solarMoment fun form : MomentForm =>
      form.interpret hours)) solarMoment := by
  refine Tree.mirrors_mono mirrors_solarParts ?_
  intro tree form hsymbol hparts
  rw [Builds, Build.solarMoment, expect_eq hsymbol]
  cases form with
  | clock _ => exact hparts.elim
  | event kind =>
    obtain ⟨first, hchildren, hkind⟩ := hparts
    simp only [ok_bind, hchildren, Build.next, hkind]
    rfl
  | shifted kind later amount =>
    obtain ⟨first, second, third, hchildren, hkind, hlater, hamount⟩ := hparts
    simp only [ok_bind, hchildren, Build.next, hkind, hlater, hamount.out, MomentForm.interpret,
      refusing_bind]
    cases htime : amount.interpret 24 with
    | error error => rfl
    | ok time =>
      have hle := ClockForm.interpret_le htime
      simp only [refusing_ok, ok_bind]
      rw [offset_eq hle]
      rfl

/-- A beginning or an end of a span: a clock time up to a full hour, or an event. -/
theorem mirrors_momentUpTo {symbol symbol' : Symbol} (hours : Nat) {clockTree : Peg (List Tree)}
    {build : Tree → Except Fault Moment} {clock' : Tree → Except Fault ClockTime}
    (hclock : clockTree.Mirrors (Tree.Named symbol'
      (Builds clock' fun form : ClockForm => form.interpret hours)) clock)
    (hbuild : ∀ tree inner, tree.symbol = symbol → tree.children = [inner] →
      (inner.symbol = symbol' → build tree = do return .clock (← clock' inner)) ∧
        (inner.symbol = .solarMoment → build tree = Build.solarMoment inner)) :
    (Tree.branch symbol (choice clockTree Tree.solarMoment)).Mirrors
      (Tree.Named symbol (Builds build fun form : MomentForm => form.interpret hours)) moment := by
  have hleft : clockTree.Mirrors (Tree.Within symbol
      (Builds build fun form : MomentForm => form.interpret hours)) (map .clock clock) := by
    refine hclock.map_right ?_
    rintro _ form ⟨inner, rfl, hinner, hform⟩ tree hsymbol hchildren
    rw [Builds, (hbuild tree inner hsymbol hchildren).1 hinner, hform.out, MomentForm.interpret,
      refusing_bind]
    rfl
  have hright : Tree.solarMoment.Mirrors (Tree.Within symbol
      (Builds build fun form : MomentForm => form.interpret hours)) solarMoment := by
    refine (mirrors_solarMoment hours).mono ?_
    rintro _ form ⟨inner, rfl, hinner, hform⟩ tree hsymbol hchildren
    rw [Builds, (hbuild tree inner hsymbol hchildren).2 hinner, hform.out]
  exact Tree.mirrors_within (hleft.choice hright)

theorem mirrors_moment : Tree.moment.Mirrors
    (Tree.Named .moment (Builds Build.moment fun form : MomentForm => form.interpret 24))
      moment := by
  refine mirrors_momentUpTo 24 mirrors_clock fun tree inner hsymbol hchildren => ⟨?_, ?_⟩ <;>
    intro hinner <;> rw [Build.moment, expect_eq hsymbol, hchildren] <;>
    simp only [ok_bind, Build.next, hinner]

theorem mirrors_lateMoment : Tree.lateMoment.Mirrors
    (Tree.Named .lateMoment (Builds Build.lateMoment fun form : MomentForm => form.interpret 48))
      moment := by
  refine mirrors_momentUpTo 48 mirrors_lateClock fun tree inner hsymbol hchildren => ⟨?_, ?_⟩ <;>
    intro hinner <;> rw [Build.lateMoment, expect_eq hsymbol, hchildren] <;>
    simp only [ok_bind, Build.next, hinner]

/-- The parts behind the beginning of a span. -/
def EndParts (trees : List Tree) : SpanEndForm → Prop
  | .missing => trees = []
  | .plus => ∃ second, trees = [second] ∧ second.symbol = .spanPlus
  | .upTo ending plus => ∃ second rest, trees = second :: rest ∧ second.symbol = .lateMoment ∧
      Builds Build.lateMoment (fun form : MomentForm => form.interpret 48) second ending ∧
      rest.isEmpty = !plus

/-- Behind a beginning there is an end, a plus sign, or nothing. -/
theorem mirrors_spanEnd : (firstOf
    [Tree.behind (spaced "-") (Tree.both Tree.lateMoment (Tree.maybe Tree.spanPlus)),
      Tree.spanPlus, pure []]).Mirrors EndParts spanEnd := by
  have hplus : Tree.spanPlus.Mirrors (Tree.Named .spanPlus fun _ _ => True) plus :=
    Tree.mirrors_mark .spanPlus _
  have hupTo := Tree.mirrors_behind (spaced "-")
    (Tree.mirrors_both mirrors_lateMoment (Tree.mirrors_maybe hplus))
  have hmissing : (pure [] : Peg (List Tree)).Mirrors EndParts (pure .missing) := mirrors_pure rfl
  refine (hupTo.map_right ?_).choice ((hplus.map_right ?_).choice (hmissing.choice mirrors_fail))
  · rintro _ ⟨ending, plus?⟩ ⟨_, rest, rfl, ⟨second, rfl, hsymbol, hending⟩, hplus⟩
    refine ⟨second, rest, rfl, hsymbol, hending, ?_⟩
    cases plus? with
    | none =>
      obtain rfl : rest = [] := hplus
      rfl
    | some _ =>
      obtain ⟨third, rfl, -⟩ := hplus
      rfl
  · rintro _ _ ⟨second, rfl, hsymbol, -⟩
    exact ⟨second, rfl, hsymbol⟩

/-- A span without an end is refused, and so is one with an end and a plus sign. -/
theorem mirrors_span :
    Tree.span.Mirrors (Tree.Named .span (Builds Build.span SpanForm.interpret)) span := by
  refine Tree.mirrors_map_located (Tree.mirrors_both mirrors_moment mirrors_spanEnd) ?_
  rintro tree ⟨beginning, ending⟩ hsymbol ⟨_, rest, hchildren, ⟨first, rfl, -, hfirst⟩, hrest⟩
  rw [Builds, Build.span, expect_eq hsymbol, hchildren]
  simp only [ok_bind, Build.next, List.singleton_append, hfirst.out, SpanForm.interpret,
    refusing_bind]
  congr 1
  funext start
  cases ending with
  | missing =>
    obtain rfl : rest = [] := hrest
    rfl
  | plus =>
    obtain ⟨second, rfl, hplus⟩ := hrest
    dsimp only
    rw [if_pos hplus]
    rfl
  | upTo ending plus =>
    obtain ⟨second, rest, rfl, hlate, hending, hempty⟩ := hrest
    dsimp only
    rw [if_neg (by rw [hlate]; decide), hending.out, refusing_bind]
    congr 1
    funext stop
    rw [hempty]
    cases plus <;> rfl

theorem mirrors_spans : Tree.spans.Mirrors (Tree.Named .spans
    (Builds (Build.listOf .spans Build.span) fun forms => forms.mapM SpanForm.interpret)) spans :=
  mirrors_list (Tree.mirrors_listOf mirrors_span _)

end Timetable.Grammar
