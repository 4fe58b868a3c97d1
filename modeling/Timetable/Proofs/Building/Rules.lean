import Timetable.Proofs.Building.Dates
import Timetable.Proofs.Reading.Bounds

/-!
No assumption about a tree is broken.

The rules are built in the order of their trees, each separator with the rule behind it. As the
trees of a whole text mirror its form, the text is read by way of trees exactly as it is read
without them, and every assumption that is checked on the way holds.
-/

namespace Timetable.Grammar

open Peg

/-! ### Rules -/

/-- The lists of the wide conditions, each of which may be missing. -/
def WideParts (trees : List Tree) (form : WideForm) : Prop :=
  ∃ years dates weeks, trees = years ++ (dates ++ weeks) ∧
    Listed .years Build.yearRange YearForm.interpret years form.years ∧
    Listed .dates Build.dateRange DateForm.interpret dates form.dates ∧
    Listed .weeks Build.weekRange WeekForm.interpret weeks form.weeks

/-- The wide conditions are read in one order only, and each of them at most once. -/
theorem mirrors_wideParts : (choice
    (Tree.both (choice Tree.dates (Tree.both Tree.years
        (Tree.maybe (Tree.behind someSpace Tree.dates))))
      (Tree.maybe (Tree.behind someSpace Tree.weeks)))
    Tree.weeks).Mirrors WideParts (choice
      (map (fun parts => ⟨parts.1.1, parts.1.2, parts.2.getD []⟩)
        (seq
          (choice (map (fun dates => ([], dates)) dates)
            (map (fun parts => (parts.1, parts.2.getD []))
              (seq years (optional (someSpace.andThen dates)))))
          (optional (someSpace.andThen weeks))))
      (map (fun weeks => ⟨[], [], weeks⟩) weeks)) := by
  have hdates : Tree.dates.Mirrors (Tree.Both
      (Listed .years Build.yearRange YearForm.interpret)
      (Listed .dates Build.dateRange DateForm.interpret)) (map (fun dates => ([], dates)) dates) :=
    mirrors_dates.map_right fun trees _ hdates =>
      ⟨[], trees, rfl, .inl ⟨rfl, rfl⟩, .inr hdates⟩
  have hyears : (Tree.both Tree.years (Tree.maybe (Tree.behind someSpace Tree.dates))).Mirrors
      (Tree.Both (Listed .years Build.yearRange YearForm.interpret)
        (Listed .dates Build.dateRange DateForm.interpret))
      (map (fun parts => (parts.1, parts.2.getD []))
        (seq years (optional (someSpace.andThen dates)))) := by
    refine (Tree.mirrors_both mirrors_years
      (Tree.mirrors_maybe (Tree.mirrors_behind someSpace mirrors_dates))).map_right ?_
    rintro _ _ ⟨years, dates, rfl, hyears, hdates⟩
    exact ⟨years, dates, rfl, .inr hyears, .of_maybe hdates⟩
  have hweeks := Tree.mirrors_maybe (Tree.mirrors_behind someSpace mirrors_weeks)
  refine ((Tree.mirrors_both (hdates.choice hyears) hweeks).map_right ?_).choice
    (mirrors_weeks.map_right ?_)
  · rintro _ _ ⟨_, weeks, rfl, ⟨years, dates, rfl, hyears, hdates⟩, hweeks⟩
    exact ⟨years, dates, weeks, List.append_assoc _ _ _, hyears, hdates, .of_maybe hweeks⟩
  · intro trees _ hweeks
    exact ⟨[], [], trees, rfl, .inl ⟨rfl, rfl⟩, .inl ⟨rfl, rfl⟩, .inr hweeks⟩

/-- No other part stands among the wide conditions. -/
theorem mirrors_wide :
    Tree.wide.Mirrors (Tree.Named .wide (Builds (Build.wide {}) WideForm.interpret)) wide := by
  refine Tree.mirrors_mono (Tree.mirrors_branch .wide mirrors_wideParts) ?_
  rintro tree form hsymbol ⟨years, dates, weeks, hchildren, hyears, hdates, hweeks⟩
  have hfirst := hyears.foldlM_eq Build.addWide
    (fun selector years => { selector with years }) {}
    (fun _ hsymbol => by rw [Build.addWide, hsymbol]) rfl
  have hsecond := fun years => hdates.foldlM_eq Build.addWide
    (fun selector dates => { selector with dates }) { years }
    (fun _ hsymbol => by rw [Build.addWide, hsymbol]) rfl
  have hthird := fun years dates => hweeks.foldlM_eq Build.addWide
    (fun selector weeks => { selector with weeks }) { years, dates }
    (fun _ hsymbol => by rw [Build.addWide, hsymbol]) rfl
  rw [Builds, Build.wide, expect_eq hsymbol, ok_bind, hchildren, List.foldlM_append, hfirst,
    WideForm.interpret]
  simp only [List.foldlM_append, refusing_bind, bind_assoc, refusing_pure, ok_bind, hsecond,
    hthird]

/-- The selector and the spans that the small conditions make of a selector. -/
def SmallForm.interpretWith (form : SmallForm) (selector : Selector) :
    Except ReadError (Selector × List TimeSpan) := do
  let (weekdays, holidays) ← match form.days with
    | some days => days.interpret
    | none => pure ([], [])
  let spans ← form.spans.mapM SpanForm.interpret
  return ({ selector with weekdays, holidays }, spans)

/-- The small conditions are built, whatever the selector without days is. -/
def IsSmall (tree : Tree) (form : SmallForm) : Prop :=
  ∀ selector : Selector, selector.weekdays = [] → selector.holidays = [] →
    Build.small selector tree = refusing (form.interpretWith selector)

/-- Spans leave the selector alone. -/
theorem foldlM_spans {trees : List Tree} {forms : List SpanForm}
    (h : Listed .spans Build.span SpanForm.interpret trees forms) (selector : Selector) :
    trees.foldlM Build.addSmall (selector, []) =
      refusing (do return (selector, ← forms.mapM SpanForm.interpret)) :=
  h.foldlM_eq Build.addSmall (fun found spans => (found.1, spans)) (selector, [])
    (fun _ hsymbol => by rw [Build.addSmall, hsymbol]) rfl

theorem mirrors_small : Tree.small.Mirrors (Tree.Named .small IsSmall) small := by
  have hdays : (Tree.both Tree.days (Tree.maybe (Tree.behind someSpace Tree.spans))).Mirrors
      (Tree.Within .small IsSmall)
      (map (fun parts => ⟨some parts.1, parts.2.getD []⟩)
        (seq days (optional (someSpace.andThen spans)))) := by
    refine (Tree.mirrors_both mirrors_days
      (Tree.mirrors_maybe (Tree.mirrors_behind someSpace mirrors_spans))).map_right ?_
    rintro _ ⟨days, spans?⟩ ⟨_, rest, rfl, ⟨first, rfl, hfirst, hdays⟩, hspans⟩ tree hsymbol
      hchildren selector - -
    have hrest := foldlM_spans (.of_maybe hspans)
    rw [Build.small, expect_eq hsymbol, hchildren, ok_bind, List.singleton_append,
      List.foldlM_cons, Build.addSmall, hfirst]
    simp only [hdays.out, bind_assoc, pure_bind, hrest, SmallForm.interpretWith, refusing_bind]
  have hspans : Tree.spans.Mirrors
      (Tree.Within .small IsSmall)
      (map (fun spans => ⟨none, spans⟩) spans) := by
    refine mirrors_spans.map_right ?_
    intro trees forms hspans tree hsymbol hchildren selector hweekdays hholidays
    have hsame : { selector with weekdays := [], holidays := [] } = selector := by
      rw [← hweekdays, ← hholidays]
    rw [Build.small, expect_eq hsymbol, hchildren, ok_bind, foldlM_spans (.inr hspans),
      SmallForm.interpretWith]
    simp only [pure_bind, hsame]
  exact Tree.mirrors_within (hdays.choice hspans)

/-- The parts of the times of a rule. -/
def TimesParts (trees : List Tree) : TimesForm → Prop
  | .always => ∃ first, trees = [first] ∧ first.symbol = .always
  | .times wide? small? => ∃ wides smalls, trees = wides ++ smalls ∧ trees ≠ [] ∧
      Tree.Maybe (Tree.Named .wide (Builds (Build.wide {}) WideForm.interpret)) wides wide? ∧
      Tree.Maybe (Tree.Named .small IsSmall) smalls small?

theorem mirrors_timesParts : (firstOf
    [Tree.leaf .always (token "24/7".toList),
      Tree.both Tree.wide (Tree.maybe (Tree.behind conditionSeparator Tree.small)),
      Tree.small]).Mirrors TimesParts (firstOf
        [named (word "24/7" .always),
          map (fun parts => .times (some parts.1) parts.2)
            (seq wide (optional (conditionSeparator.andThen small))),
          map (fun small => .times none (some small)) small]) := by
  have halways : (Tree.leaf .always (token "24/7".toList)).Mirrors TimesParts
      (named (word "24/7" .always)) := by
    refine (Tree.mirrors_leaf_word .always "24/7" _).mono ?_
    rintro _ _ ⟨first, rfl, hfirst, rfl⟩
    exact ⟨first, rfl, hfirst⟩
  have hsmall := Tree.mirrors_maybe (Tree.mirrors_behind conditionSeparator mirrors_small)
  refine halways.choice (((Tree.mirrors_both mirrors_wide hsmall).map_right ?_).choice
    ((mirrors_small.map_right ?_).choice mirrors_fail))
  · rintro _ ⟨wide, small?⟩ ⟨_, smalls, rfl, hwide, hsmall⟩
    refine ⟨_, smalls, rfl, ?_, hwide, hsmall⟩
    obtain ⟨first, rfl, -⟩ := hwide
    exact List.cons_ne_nil _ _
  · intro trees small hsmall
    refine ⟨[], trees, rfl, ?_, rfl, hsmall⟩
    obtain ⟨first, rfl, -⟩ := hsmall
    exact List.cons_ne_nil _ _

/-- The small conditions are put into the selector that the wide ones have made. -/
theorem TimesForm.interpret_eq_with (wide? : Option WideForm) (small? : Option SmallForm) :
    (TimesForm.times wide? small?).interpret =
      wide?.elim (.ok {}) WideForm.interpret >>= fun selector =>
        small?.elim (.ok (selector, [])) (SmallForm.interpretWith · selector) := by
  cases wide? <;> cases small? <;> rfl

theorem foldlM_wide {trees : List Tree} {wide? : Option WideForm}
    (h : Tree.Maybe (Tree.Named .wide (Builds (Build.wide {}) WideForm.interpret)) trees wide?) :
    trees.foldlM Build.addTimes ({}, []) =
      refusing (do return (← wide?.elim (.ok {}) WideForm.interpret, [])) := by
  cases wide? with
  | none =>
    obtain rfl : trees = [] := h
    rfl
  | some wide =>
    obtain ⟨tree, rfl, hsymbol, hwide⟩ := h
    rw [List.foldlM_cons, Build.addTimes, hsymbol]
    simp only [hwide.out, List.foldlM_nil, bind_pure, Option.elim_some, refusing_bind]
    rfl

theorem foldlM_small {trees : List Tree} {small? : Option SmallForm}
    (h : Tree.Maybe (Tree.Named .small IsSmall) trees small?) {selector : Selector}
    (hweekdays : selector.weekdays = []) (hholidays : selector.holidays = []) :
    trees.foldlM Build.addTimes (selector, []) =
      refusing (small?.elim (.ok (selector, [])) (SmallForm.interpretWith · selector)) := by
  cases small? with
  | none =>
    obtain rfl : trees = [] := h
    rfl
  | some small =>
    obtain ⟨tree, rfl, hsymbol, hsmall⟩ := h
    rw [List.foldlM_cons, Build.addTimes, hsymbol]
    simp only [hsmall selector hweekdays hholidays, List.foldlM_nil, bind_pure, Option.elim_some]

/-- Conditions are not mistaken for the word for all times. -/
theorem not_always_of_maybe {wides smalls : List Tree} {wide? : Option WideForm}
    {small? : Option SmallForm}
    (hwide : Tree.Maybe (Tree.Named .wide (Builds (Build.wide {}) WideForm.interpret)) wides wide?)
    (hsmall : Tree.Maybe (Tree.Named .small IsSmall) smalls small?) :
    ∀ part ∈ (wides ++ smalls).head?, part.symbol ≠ .always := by
  cases wide? with
  | some wide =>
    obtain ⟨first, rfl, hfirst, -⟩ := hwide
    rintro _ ⟨⟩
    rw [hfirst]
    decide
  | none =>
    obtain rfl : wides = [] := hwide
    cases small? with
    | some small =>
      obtain ⟨first, rfl, hfirst, -⟩ := hsmall
      rintro _ ⟨⟩
      rw [hfirst]
      decide
    | none =>
      obtain rfl : smalls = [] := hsmall
      nofun

/-- The times of a rule are built, with at least one part. -/
theorem mirrors_times :
    Tree.times.Mirrors (Tree.Named .times (Builds Build.times TimesForm.interpret)) times := by
  refine Tree.mirrors_mono (Tree.mirrors_branch .times mirrors_timesParts) ?_
  intro tree form hsymbol hparts
  rw [Builds, Build.times, expect_eq hsymbol, ok_bind]
  cases form with
  | always =>
    obtain ⟨first, hchildren, hfirst⟩ := hparts
    simp only [hchildren, Build.next, ok_bind, hfirst]
    rfl
  | times wide? small? =>
    obtain ⟨wides, smalls, hchildren, hne, hwide, hsmall⟩ := hparts
    -- The first tree tells the two ways apart, whichever of the conditions it belongs to.
    have hother := not_always_of_maybe hwide hsmall
    rw [← hchildren] at hother
    obtain ⟨first, rest, hfirst⟩ := List.exists_cons_of_ne_nil hne
    rw [hfirst] at hother
    rw [TimesForm.interpret_eq_with, hfirst]
    simp only [Build.next, ok_bind, if_neg (hother first rfl)]
    rw [← hfirst, hchildren, List.foldlM_append, foldlM_wide hwide, refusing_bind, refusing_bind]
    cases hconditions : wide?.elim (.ok {}) WideForm.interpret with
    | error error => rfl
    | ok selector =>
      obtain ⟨hweekdays, hholidays⟩ := days_eq_nil_of_wide hconditions
      exact foldlM_small hsmall hweekdays hholidays

/-! ### What is said of a rule beside its times -/

/-- The name of the part that stands for a kind. -/
def kindSymbol : RuleKind → Symbol
  | .closed => .closed
  | .opened => .opened
  | .unknown => .unknown

/-- A part that is read as a kind has one of the three kinds within it. -/
theorem mirrors_kind :
    Tree.kind.Mirrors (Tree.Named .kind fun tree kind => Build.kind tree = .ok kind) kind := by
  have hword : ∀ text kind, (Tree.leaf (kindSymbol kind) (token text.toList)).Mirrors
      (fun trees kind => ∃ tree, trees = [tree] ∧ tree.symbol = kindSymbol kind)
      (named (word text kind)) := fun text kind =>
    (Tree.mirrors_leaf_word _ text kind).mono fun _ _ ⟨tree, heq, hsymbol, hkind⟩ =>
      ⟨tree, heq, hkind ▸ hsymbol⟩
  have hclosed : (Tree.leaf .closed (choice (token "closed".toList) (token "off".toList))).Mirrors
      (fun trees kind => ∃ tree, trees = [tree] ∧ tree.symbol = kindSymbol kind)
      (named (choice (word "closed" RuleKind.closed) (word "off" .closed))) :=
    (Tree.mirrors_leaf_value .closed (Mirrors.choice (Tree.mirrors_word "closed" RuleKind.closed)
      (Tree.mirrors_word "off" _))).mono fun _ _ ⟨tree, heq, hsymbol, hkind⟩ =>
        ⟨tree, heq, hkind ▸ hsymbol⟩
  refine Tree.mirrors_mono (Tree.mirrors_branch .kind (hclosed.choice
    ((hword "open" .opened).choice ((hword "unknown" .unknown).choice mirrors_fail)))) ?_
  rintro tree kind hsymbol ⟨inner, hchildren, hinner⟩
  rw [Build.kind, expect_eq hsymbol, hchildren]
  simp only [ok_bind, Build.next, hinner]
  cases kind <;> rfl

theorem mirrors_comment : Tree.comment.Mirrors
    (Tree.Named .comment fun tree row => Build.comment tree = .ok (String.ofList row)) comment := by
  have hinner := Tree.mirrors_leaf_self .commentText (@spells_chars (· != '"') 0 none)
  refine Tree.mirrors_mono (Tree.mirrors_branch .comment (Tree.mirrors_behind (token ['"'])
    (Tree.mirrors_before hinner (token ['"'])))) ?_
  rintro tree row hsymbol ⟨inner, hchildren, -, -, rfl⟩
  rw [Build.comment, expect_eq hsymbol, hchildren]
  rfl

theorem comment?_eq_of_maybe {trees : List Tree} {row? : Option (List Char)}
    (h : Tree.Maybe (Tree.Named .comment fun tree row =>
      Build.comment tree = .ok (String.ofList row)) trees row?) :
    Build.comment? trees = .ok (row?.map String.ofList) := by
  cases row? with
  | none =>
    obtain rfl : trees = [] := h
    rfl
  | some row =>
    obtain ⟨tree, rfl, -, hrow⟩ := h
    rw [Build.comment?, hrow]
    rfl

/-- A modifier is built. -/
def IsModifier (tree : Tree) (form : ModifierForm) : Prop :=
  Build.modifier tree = .ok (form.kind, form.comment.map String.ofList)

/-- A kind and a comment are told apart, also if one of them is missing. -/
theorem mirrors_modifier : Tree.modifier.Mirrors (Tree.Named .modifier IsModifier) modifier := by
  have hkind : (Tree.both Tree.kind (Tree.maybe (Tree.behind someSpace Tree.comment))).Mirrors
      (Tree.Within .modifier IsModifier)
      (map (fun parts => ⟨some parts.1, parts.2⟩)
        (seq kind (optional (someSpace.andThen comment)))) := by
    refine (Tree.mirrors_both mirrors_kind
      (Tree.mirrors_maybe (Tree.mirrors_behind someSpace mirrors_comment))).map_right ?_
    rintro _ ⟨kind, comment⟩ ⟨_, rest, rfl, ⟨first, rfl, hfirst, hkind⟩, hcomment⟩ tree hsymbol
      hchildren
    rw [IsModifier, Build.modifier, expect_eq hsymbol, hchildren]
    simp only [ok_bind, Build.next, List.cons_append, List.nil_append, hfirst, if_pos, hkind,
      comment?_eq_of_maybe hcomment]
    rfl
  have hcomment : Tree.comment.Mirrors (Tree.Within .modifier IsModifier)
      (map (fun comment => ⟨none, some comment⟩) comment) := by
    refine mirrors_comment.map_right ?_
    rintro _ row ⟨first, rfl, hfirst, hrow⟩ tree hsymbol hchildren
    rw [IsModifier, Build.modifier, expect_eq hsymbol, hchildren]
    simp only [ok_bind, Build.next, hfirst, reduceCtorEq, if_false, Build.comment?, hrow]
    rfl
  exact Tree.mirrors_within (hkind.choice hcomment)

theorem modifier?_eq {trees : List Tree} {form? : Option ModifierForm}
    (h : Tree.Maybe (Tree.Named .modifier IsModifier) trees form?) :
    Build.modifier? trees.head? = .ok (form?.bind ModifierForm.kind,
      form?.bind fun form => form.comment.map String.ofList) := by
  cases form? with
  | none =>
    obtain rfl : trees = [] := h
    rfl
  | some form =>
    obtain ⟨tree, rfl, -, hform⟩ := h
    exact hform

/-! ### Rules and expressions -/

/-- A rule is put together from its parts as it is from its form. -/
theorem assemble_eq_assemble (form : RuleForm) (additional : Bool) (selector : Selector)
    (spans : List TimeSpan) :
    Build.assemble selector spans (form.modifier.bind ModifierForm.kind) form.comment? additional =
      form.assemble additional (selector, spans) := by
  have hkind : (form.modifier.bind ModifierForm.kind).getD
      (if form.comment?.isSome && spans.isEmpty then .unknown else .opened) =
        form.kindOver spans := by
    unfold RuleForm.kindOver
    cases form.modifier.bind ModifierForm.kind <;> rfl
  rw [Build.assemble, hkind, RuleForm.assemble]
  cases spans with
  | nil => simp
  | cons span spans => simp

/-- A rule is built, whether it adds to the one before it or not. -/
def IsRuleTree (tree : Tree) (form : RuleForm) : Prop :=
  ∀ additional, Build.rule additional tree = refusing (form.interpret additional)

/-- A rule begins with its times, or it has nothing but a kind and a comment. -/
theorem mirrors_rule : Tree.rule.Mirrors (Tree.Named .rule IsRuleTree) rule := by
  have htimes : (Tree.both Tree.times (Tree.maybe (Tree.behind someSpace Tree.modifier))).Mirrors
      (Tree.Within .rule IsRuleTree)
      (map (fun parts => ⟨some parts.1, parts.2⟩)
        (seq times (optional (someSpace.andThen modifier)))) := by
    refine (Tree.mirrors_both mirrors_times
      (Tree.mirrors_maybe (Tree.mirrors_behind someSpace mirrors_modifier))).map_right ?_
    rintro _ ⟨times, modifier⟩ ⟨_, rest, rfl, ⟨first, rfl, hfirst, htimes⟩, hmodifier⟩ tree hsymbol
      hchildren additional
    rw [Build.rule, expect_eq hsymbol, hchildren, RuleForm.interpret_eq]
    simp only [ok_bind, Build.next, List.cons_append, List.nil_append, hfirst, if_pos, htimes.out,
      modifier?_eq hmodifier, Option.elim_some, refusing_bind]
    refine congrArg _ (funext fun found => ?_)
    exact congrArg Except.ok (assemble_eq_assemble ⟨some times, modifier⟩ additional _ _)
  have hmodifier : Tree.modifier.Mirrors (Tree.Within .rule IsRuleTree)
      (map (fun modifier => ⟨none, some modifier⟩) modifier) := by
    refine mirrors_modifier.map_right ?_
    rintro _ modifier ⟨first, rfl, hfirst, hmodifier⟩ tree hsymbol hchildren additional
    rw [Build.rule, expect_eq hsymbol, hchildren, RuleForm.interpret_eq]
    simp only [ok_bind, Build.next, hfirst, reduceCtorEq, if_false, Build.modifier?,
      show Build.modifier first = _ from hmodifier, Option.elim_none]
    exact congrArg Except.ok (assemble_eq_assemble ⟨none, some modifier⟩ additional _ _)
  exact Tree.mirrors_within (htimes.choice hmodifier)

/-- What stands between two rules has a sort; rules that are tried only if those before them fail
are refused. -/
theorem mirrors_separator : Tree.separator.Mirrors
    (Tree.Named .separator (Builds Build.separator SeparatorForm.interpret)) separator := by
  have hmark : ∀ (symbol : Symbol) (text : String) (form : SeparatorForm),
      (∀ inner, inner.symbol = symbol →
        Tree.Within .separator (Builds Build.separator SeparatorForm.interpret) [inner] form) →
      (Tree.leaf symbol (spaced text)).Mirrors
        (Tree.Within .separator (Builds Build.separator SeparatorForm.interpret))
        (map (fun _ => form) (named (spaced text))) := by
    intro symbol text form hform
    refine (Tree.mirrors_mark symbol _).map_right ?_
    rintro _ _ ⟨inner, rfl, hinner, -⟩
    exact hform inner hinner
  have hfallback : (Tree.leaf .fallback (spaced "||")).Mirrors
      (Tree.Within .separator (Builds Build.separator SeparatorForm.interpret))
      (map (fun parts => .fallback parts.2) (located (named (spaced "||")))) := by
    refine (Tree.mirrors_kept (Tree.mirrors_mark .fallback _)).map_right ?_
    rintro _ ⟨_, bars⟩ ⟨inner, rfl, hinner, -, hwhole⟩ tree hsymbol hchildren
    rw [Builds, Build.separator, expect_eq hsymbol, hchildren]
    simp only [ok_bind, Build.next, hinner]
    exact refuse_eq hwhole _
  refine Tree.mirrors_within ((hmark .overriding ";" .overriding ?_).choice (hfallback.choice
    ((hmark .adding "," .adding ?_).choice mirrors_fail)))
  · intro inner hinner tree hsymbol hchildren
    rw [Builds, Build.separator, expect_eq hsymbol, hchildren]
    simp only [ok_bind, Build.next, hinner]
    rfl
  · intro inner hinner tree hsymbol hchildren
    rw [Builds, Build.separator, expect_eq hsymbol, hchildren]
    simp only [ok_bind, Build.next, hinner]
    rfl

/-- The trees of a separator and of the rule behind it. -/
abbrev PartTrees : List Tree → SeparatorForm × RuleForm → Prop :=
  Tree.Both (Tree.Named .separator (Builds Build.separator SeparatorForm.interpret))
    (Tree.Named .rule IsRuleTree)

/-- Rules and separators take turns, so that a rule stands behind each separator. This is an
induction on the pairs of a separator and a rule. -/
theorem rules_eq {rows : List (List Tree)} {parts : List (SeparatorForm × RuleForm)}
    (h : List.Forall₂ PartTrees rows parts) :
    Build.rules rows.flatten = refusing (parts.mapM interpretPart) := by
  induction h with
  | nil => rfl
  | cons hfirst _ ih =>
    obtain ⟨_, _, rfl, ⟨mark, rfl, hmark, hmeaning⟩, ⟨tree, rfl, hsymbol, htree⟩⟩ := hfirst
    rw [List.flatten_cons, List.mapM_cons, interpretPart]
    simp only [List.cons_append, List.nil_append, Build.rules, hmark, hmeaning.out, htree _,
      ih, refusing_bind, bind_assoc, refusing_pure]
    rfl

/-- An expression is built or refused as its form is. -/
theorem mirrors_expression : Tree.expression.Mirrors
    (Tree.Named .expression (Builds Build.expression ExpressionForm.interpret)) expression := by
  have hrules : (Tree.both Tree.rule (Tree.repeated (Tree.both Tree.separator Tree.rule))).Mirrors
      (fun trees (form : ExpressionForm) => Build.rules trees = refusing form.interpret)
      (map (fun parts => ⟨parts.1, parts.2⟩) (seq rule (many (seq separator rule)))) := by
    refine (Tree.mirrors_both mirrors_rule (Tree.mirrors_repeated
      (Tree.mirrors_both mirrors_separator mirrors_rule))).map_right ?_
    rintro _ ⟨first, parts⟩ ⟨_, _, rfl, ⟨tree, rfl, hsymbol, htree⟩, ⟨rows, rfl, hrows⟩⟩
    simp only [List.cons_append, List.nil_append, Build.rules, hsymbol, htree _, rules_eq hrows,
      ExpressionForm.interpret, refusing_bind, refusing_pure]
    rfl
  refine Tree.mirrors_mono (Tree.mirrors_branch .expression (Tree.mirrors_before hrules _)) ?_
  intro tree form hsymbol hform
  rw [Builds, Build.expression, expect_eq hsymbol, ok_bind]
  exact hform

theorem mirrors_wholeText : Tree.wholeText.Mirrors (fun trees form => ∃ tree rest,
    trees = tree :: rest ∧ Build.expression tree = refusing form.interpret) wholeText := by
  refine (Tree.mirrors_both (Tree.mirrors_before (Tree.mirrors_behind spaces mirrors_expression) _)
    (Tree.mirrors_mark .endOfText endOfText)).map_right ?_
  rintro _ ⟨form, _⟩ ⟨_, rest, rfl, ⟨tree, rfl, -, htree⟩, -⟩
  exact ⟨tree, rest, rfl, htree⟩

end Timetable.Grammar

namespace Timetable.Expression

open Grammar

/-- Reading by way of trees, with every assumption checked, comes to what reading comes to without.
-/
theorem readRulesChecked_eq (text : List Char) :
    readRulesChecked text = refusing (readRules text) := by
  have hmirrors := mirrors_wholeText (Cursor.ofText text)
  unfold readRulesChecked readRules parse
  dsimp only
  revert hmirrors
  generalize Tree.wholeText.run (Cursor.ofText text) = checked
  generalize wholeText.run (Cursor.ofText text) = outcome
  rintro (@⟨_, _, form, _, tree, rest, rfl, htree⟩ | _)
  · exact htree
  · dsimp only
    cases bareComment? text <;> rfl

theorem readFromChecked_eq (given source : String) :
    readFromChecked given source = refusing (readFrom given source) := by
  unfold readFromChecked readFrom
  rw [readRulesChecked_eq, refusing_bind]
  refine congrArg _ (funext fun rules => ?_)
  dsimp only
  cases Expression.loneComment? ⟨given, source, rules⟩ <;> rfl

/-- No assumption about a tree is broken, whatever the text: with every one of them checked, both
entries come to what they come to without. -/
theorem assumptions_hold (text : String) :
    (∀ assertion, readChecked text ≠ .error (.broken assertion)) ∧
      (∀ assertion, readTidiedChecked text ≠ .error (.broken assertion)) ∧
      readChecked text = refusing (read text) ∧
      readTidiedChecked text = refusing (readTidied text) := by
  have hread : readChecked text = refusing (read text) := readFromChecked_eq text text
  have htidied : readTidiedChecked text = refusing (readTidied text) :=
    readFromChecked_eq text (Tidy.tidy text)
  refine ⟨fun assertion => ?_, fun assertion => ?_, hread, htidied⟩
  · rw [hread]
    exact refusing_ne_broken _ _
  · rw [htidied]
    exact refusing_ne_broken _ _

end Timetable.Expression
