import Mathlib.Data.List.TakeWhile
import Timetable.Proofs.Grammar.Confined
import Timetable.Proofs.Reading.Harmless

/-!
Expressions one after the other.

A text that is read, a semicolon and another such text are read as the rules of the first text
followed by those of the second. Three facts about the grammar carry this.

Nothing that a rule reads reaches over a semicolon: comments and the numbers of a weekday, the only
parts with semicolons in them, have ended where the first text ends. So its rules are read in the
longer text as well. Behind them the grammar reads the second text at another place, and what a form
means does not depend on places. And a whole text ends in blanks or in a semicolon, so that where
there is none the next one separates the two.
-/

namespace Timetable

namespace Grammar

open Peg

/-! ### Meanings do not depend on places -/

/-- A text that stays as it is looks the same wherever it stands. -/
theorem harmless_nothing : Harmless .nothing .exact := by
  have havoids : ∀ {α : Type} {peg : Peg α}, peg.avoids [] = true → peg.Steady .nothing id :=
    steady_of_avoids fun c _ => passes_nothing c
  have hrule : HarmlessInRule .nothing .exact :=
    harmlessInRule_of_enclosed (fun c _ => passes_nothing c) (steady_occurrences_of (havoids rfl))
      (steady_comment_of (havoids rfl).seen)
  exact hrule.harmless id (passes_nothing ';') fun h => h

/-! ### Separators -/

theorem balanced_spaced {mark : String} (h : Closed mark.toList) : (spaced mark).Balanced :=
  ((confined_spaces.balanced.seq (balanced_token h)).map.seq confined_spaces.balanced).map

theorem balanced_separator : separator.Balanced :=
  ((balanced_spaced (rfl : Closed ";".toList)).named.map.choice
    ((balanced_spaced (rfl : Closed "||".toList)).named.located.map.choice
      ((balanced_spaced (rfl : Closed ",".toList)).named.map.choice balanced_fail))).named

theorem balanced_otherRules : otherRules.Balanced :=
  Balanced.many consumes_separator.seq_left (balanced_separator.seq confined_rule.balanced)

/-- A mark that was read in a text is read as well if the text goes on. -/
theorem result_spaced_before {mark : String} (hmark : Closed mark.toList) {cursor next : Cursor}
    (hclosed : Closed cursor.rest) (h : ((spaced mark).run cursor).result = some ((), next))
    (more : List Char) :
    ((spaced mark).run (cursor.before more)).result = some ((), next.before more) ∧
      ∃ between, cursor.rest.dropWhile (· == ' ') = mark.toList ++ between := by
  rw [spaced, result_followedBy, result_andThen] at h
  obtain ⟨⟨_, afterMark⟩, hfirst, hrest⟩ := Option.bind_eq_some_iff.1 h
  obtain ⟨⟨⟨⟩, blank⟩, hblank, htoken⟩ := Option.bind_eq_some_iff.1 hfirst
  obtain ⟨⟨⟨⟩, last⟩, hspaces, heq⟩ := Option.map_eq_some_iff.1 hrest
  obtain ⟨-, rfl⟩ := Prod.mk.inj heq
  dsimp only at htoken hspaces ⊢
  have hblankClosed := confined_spaces.balanced.closed hblank hclosed
  have hmarkClosed := (balanced_token hmark).closed htoken hblankClosed
  have htext := rest_of_token htoken
  refine ⟨?_, afterMark.rest, (rest_of_spaces hblank).symm.trans htext⟩
  have hdrop : afterMark = blank.drop mark.toList.length := by
    rw [result_token] at htoken
    split at htoken
    · exact (Prod.mk.inj (Option.some.inj htoken)).2.symm
    · cases htoken
  have hprefix : mark.toList.isPrefixOf (blank.before more).rest = true := by
    rw [Cursor.before, htext, List.append_assoc]
    exact List.isPrefixOf_iff_prefix.2 (List.prefix_append _ _)
  have hlength : mark.toList.length ≤ blank.rest.length := by
    rw [htext, List.length_append]
    exact Nat.le_add_right _ _
  rw [spaced, result_followedBy, result_andThen, confined_spaces.steady cursor more hclosed, hblank,
    Option.map_some, Option.bind_some, result_token, if_pos hprefix,
    Cursor.drop_before _ _ hlength, ← hdrop, Option.bind_some,
    confined_spaces.steady afterMark more hmarkClosed, hspaces]
  rfl

/-- No semicolon is read in front of another character. -/
theorem result_semicolon_before {cursor : Cursor} (hclosed : Closed cursor.rest) {c : Char}
    {between : List Char} (hnext : cursor.rest.dropWhile (· == ' ') = c :: between) (hc : c ≠ ';')
    (more : List Char) : ((spaced ";").run (cursor.before more)).result = none := by
  obtain ⟨_, stop, hspaces, -⟩ := (reads_spaces cursor.rest).exists_result cursor.offset
  rw [hnext] at hspaces
  have hprefix : ¬ (";".toList.isPrefixOf (Cursor.before ⟨c :: between, stop⟩ more).rest) := by
    simpa [Cursor.before, List.isPrefixOf] using Ne.symm hc
  rw [spaced, result_followedBy, result_andThen, confined_spaces.steady cursor more hclosed]
  change Option.bind (Option.bind (Option.map _ (spaces.run ⟨cursor.rest, cursor.offset⟩).result)
    _) _ = _
  rw [hspaces, Option.map_some, Option.bind_some, result_token, if_neg hprefix]
  rfl

/-- A separator that was read in a text is read as well if the text goes on. -/
theorem result_separator_before {cursor next : Cursor} {form : SeparatorForm}
    (hclosed : Closed cursor.rest) (h : (separator.run cursor).result = some (form, next))
    (more : List Char) :
    (separator.run (cursor.before more)).result = some (form, next.before more) := by
  -- Where one of the later marks was read, no semicolon comes next.
  have hsemicolon : ∀ {mark : String} {next : Cursor}, Closed mark.toList →
      (∃ c rest, mark.toList = c :: rest ∧ c ≠ ';') →
      ((spaced mark).run cursor).result = some ((), next) →
      ((spaced ";").run (cursor.before more)).result = none := by
    rintro mark next hmark ⟨c, rest, htext, hc⟩ hresult
    obtain ⟨-, between, hbetween⟩ := result_spaced_before hmark hclosed hresult more
    rw [htext] at hbetween
    exact result_semicolon_before hclosed hbetween hc more
  rw [separator, result_named, firstOf, List.foldr_cons, List.foldr_cons, List.foldr_cons,
    List.foldr_nil, result_choice, result_choice, result_choice, result_map, result_named,
    result_map, result_map, result_named] at h ⊢
  rcases Option.or_eq_some_iff.1 h with hover | ⟨hnone, h⟩
  · obtain ⟨⟨⟨⟩, stop⟩, hmark, heq⟩ := Option.map_eq_some_iff.1 hover
    obtain ⟨rfl, rfl⟩ := Prod.mk.inj heq
    rw [(result_spaced_before (rfl : Closed ";".toList) hclosed hmark more).1]
    rfl
  · rcases Option.or_eq_some_iff.1 h with hfallback | ⟨hnone', h⟩
    · obtain ⟨⟨⟨⟨⟩, bars⟩, stop⟩, hlocated, heq⟩ := Option.map_eq_some_iff.1 hfallback
      obtain ⟨rfl, rfl⟩ := Prod.mk.inj heq
      have hconfined : (located (named (spaced "||"))).Confined :=
        (confined_spaced (by decide)).named.located
      have hmark : ∃ next, ((spaced "||").run cursor).result = some ((), next) := by
        rw [result_located, result_named] at hlocated
        obtain ⟨r, hr, -⟩ := Option.map_eq_some_iff.1 hlocated
        exact ⟨r.2, hr⟩
      obtain ⟨next, hmark⟩ := hmark
      rw [hsemicolon (rfl : Closed "||".toList) ⟨'|', ['|'], rfl, by decide⟩ hmark,
        hconfined.steady cursor more hclosed, hlocated]
      rfl
    · rcases Option.or_eq_some_iff.1 h with hadding | ⟨-, h⟩
      · obtain ⟨⟨⟨⟩, stop⟩, hmark, heq⟩ := Option.map_eq_some_iff.1 hadding
        obtain ⟨rfl, rfl⟩ := Prod.mk.inj heq
        have hconfined : (located (named (spaced "||"))).Confined :=
          (confined_spaced (by decide)).named.located
        rw [hsemicolon (rfl : Closed ",".toList) ⟨',', [], rfl, by decide⟩ hmark,
          hconfined.steady cursor more hclosed, Option.map_eq_none_iff.1 hnone',
          (result_spaced_before (rfl : Closed ",".toList) hclosed hmark more).1]
        rfl
      · cases h

/-- Where the other rules of a text end in blanks, they go on with what follows a semicolon. -/
theorem result_otherRules_before {cursor last : Cursor}
    {others : List (SeparatorForm × RuleForm)} (hclosed : Closed cursor.rest)
    (h : (otherRules.run cursor).result = some (others, last)) (more : List Char) :
    (otherRules.run (cursor.before more)).result =
      (otherRules.run (last.before more)).result.map fun r => (others ++ r.1, r.2) := by
  have hconsumes : (seq separator rule).Consumes := consumes_separator.seq_left
  induction hlength : cursor.rest.length using Nat.strongRecOn generalizing cursor others with
  | ind length ih =>
    rw [otherRules, result_many hconsumes] at h
    cases hstep : ((seq separator rule).run cursor).result with
    | none =>
      rw [hstep] at h
      obtain ⟨rfl, rfl⟩ := Prod.mk.inj (Option.some.inj h)
      simp
    | some r =>
      obtain ⟨part, next⟩ := r
      rw [hstep] at h
      obtain ⟨⟨later, _⟩, hlater, heq⟩ := Option.map_eq_some_iff.1 h
      obtain ⟨rfl, rfl⟩ := Prod.mk.inj heq
      have hlt := hconsumes cursor part next hstep
      have hnext := (balanced_separator.seq confined_rule.balanced).closed hstep hclosed
      have hrest := ih _ (hlength ▸ hlt) hnext hlater rfl
      -- The separator and the rule of this step are read in the longer text as well.
      have hstep' : ((seq separator rule).run (cursor.before more)).result =
          some (part, next.before more) := by
        rw [result_seq] at hstep ⊢
        obtain ⟨⟨form, between⟩, hseparator, hrule⟩ := Option.bind_eq_some_iff.1 hstep
        have hbetween := balanced_separator.closed hseparator hclosed
        obtain ⟨⟨ruleForm, _⟩, hresult, heq⟩ := Option.map_eq_some_iff.1 hrule
        obtain ⟨rfl, rfl⟩ := Prod.mk.inj heq
        dsimp only at hresult
        rw [result_separator_before hclosed hseparator more, Option.bind_some,
          confined_rule.steady between more hbetween, hresult]
        rfl
      rw [otherRules, result_many hconsumes, hstep']
      dsimp only
      change Option.map _ (otherRules.run (next.before more)).result = _
      rw [hrest, Option.map_map]
      rfl

/-! ### Two texts with a semicolon between them -/

/-- A text is closed up to the end if a whole expression is read from it. -/
theorem closed_of_wholeText {cursor last : Cursor} {form : ExpressionForm}
    (h : (wholeText.run cursor).result = some (form, last)) : Closed cursor.rest := by
  obtain ⟨start, afterFirst, afterOthers, mark, hstart, hfirst, hothers, hstop⟩ :=
    wholeText_eq_some.1 h
  have hending : ending.Balanced := by
    have hblank : (optional (spaces.andThen (token [';']))).Balanced :=
      (confined_spaces.balanced.seq
        (balanced_token (rfl : Closed [';']))).map.map.choice (balanced_pure none)
    have hend : (named endOfText).Balanced := by
      intro cursor value next hresult
      rw [result_named, result_endOfText] at hresult
      split at hresult
      · obtain ⟨-, rfl⟩ := Prod.mk.inj (Option.some.inj hresult)
        rfl
      · cases hresult
    exact ((hblank.seq confined_spaces.balanced).map.seq hend).map
  have hlast : last.rest = [] := by
    rw [ending, result_followedBy] at hstop
    obtain ⟨⟨_, stop⟩, -, hstop⟩ := Option.bind_eq_some_iff.1 hstop
    obtain ⟨⟨_, _⟩, hend, heq⟩ := Option.map_eq_some_iff.1 hstop
    obtain ⟨-, rfl⟩ := Prod.mk.inj heq
    rw [result_named, result_endOfText] at hend
    split at hend
    · rename_i hempty
      obtain ⟨-, rfl⟩ := Prod.mk.inj (Option.some.inj hend)
      exact List.isEmpty_iff.1 hempty
    · cases hend
  calc Enclosure.nothing.atEnd cursor.rest
      = Enclosure.nothing.atEnd start.rest := confined_spaces.balanced _ _ _ hstart
    _ = Enclosure.nothing.atEnd afterFirst.rest := confined_rule.balanced _ _ _ hfirst
    _ = Enclosure.nothing.atEnd afterOthers.rest := balanced_otherRules _ _ _ hothers
    _ = Enclosure.nothing.atEnd last.rest := hending _ _ _ hstop
    _ = .nothing := by rw [hlast]; rfl

/-- Whether the last character of a text that is not a space is a semicolon. -/
def EndsInSemicolon (text : List Char) : Prop :=
  (text.reverse.dropWhile (· == ' ')).head? = some ';'

instance (text : List Char) : Decidable (EndsInSemicolon text) :=
  inferInstanceAs (Decidable (_ = _))

/-- Unless it ends in a semicolon, a text is over when its last rule and blanks have been read. -/
theorem blank_of_not_endsInSemicolon {text : List Char} {cursor last : Cursor} {mark : Option Unit}
    (hend : ¬ EndsInSemicolon text) (hsuffix : cursor.rest <:+ text)
    (h : (ending.run cursor).result = some (mark, last)) :
    cursor.rest.dropWhile (· == ' ') = [] := by
  refine (blank_of_ending h).resolve_right ?_
  rintro ⟨back, hmark, hback⟩
  obtain ⟨front, rfl⟩ := hsuffix
  obtain ⟨blanks, hblanks⟩ := List.dropWhile_suffix (p := (· == ' ')) (l := cursor.rest)
  have hspaces : back.reverse.dropWhile (· == ' ') = [] := by
    rw [List.dropWhile_eq_nil_iff] at hback ⊢
    exact fun c hc => hback c (List.mem_reverse.1 hc)
  apply hend
  rw [EndsInSemicolon, ← hblanks, hmark]
  simp only [List.reverse_append, List.reverse_cons, List.append_assoc]
  rw [List.dropWhile_append, hspaces]
  rfl

/-- The text of two expressions with a semicolon between them is read as the first one, followed by
a rule that overrides and means what the first rule of the second one means, and so on. -/
theorem exists_result_wholeText_before {front back : List Char} {form form' : ExpressionForm}
    {last last' : Cursor} (hend : ¬ EndsInSemicolon front)
    (h : (wholeText.run (.ofText front)).result = some (form, last))
    (h' : (wholeText.run (.ofText back)).result = some (form', last')) :
    ∃ next others stop,
      (wholeText.run (.ofText (front ++ ';' :: ' ' :: back))).result =
        some (⟨form.first, form.rest ++ (.overriding, next) :: others⟩, stop) ∧
      (∀ additional, meaning? (·.interpret additional) next =
        meaning? (·.interpret additional) form'.first) ∧
      others.map (meaning? interpretPart) = form'.rest.map (meaning? interpretPart) := by
  have hclosed := closed_of_wholeText h
  obtain ⟨start, afterFirst, afterOthers, mark, hstart, hfirst, hothers, hstop⟩ :=
    wholeText_eq_some.1 h
  obtain ⟨start', afterFirst', afterOthers', mark', hstart', hfirst', hothers', hstop'⟩ :=
    wholeText_eq_some.1 h'
  have hstartClosed := confined_spaces.balanced.closed hstart hclosed
  have hfirstClosed := confined_rule.balanced.closed hfirst hstartClosed
  have hblank : afterOthers.rest.dropWhile (· == ' ') = [] :=
    blank_of_not_endsInSemicolon hend ((suffix_of_result hothers).trans
      ((suffix_of_result hfirst).trans (suffix_of_result hstart))) hstop
  -- Behind the first text, the separator is read and then the second text at another offset.
  have hmark : (afterOthers.rest ++ ';' :: ' ' :: back).dropWhile (· == ' ') =
      ';' :: ' ' :: back := by
    rw [List.dropWhile_append, hblank]
    rfl
  obtain ⟨_, stop, hseparator, rfl⟩ :=
    (reads_semicolon hmark).exists_result afterOthers.offset
  have hback : (' ' :: back).dropWhile (· == ' ') = start'.rest :=
    (rest_of_spaces hstart').symm
  rw [hback] at hseparator
  obtain ⟨next, _, stop₁, hnext, rfl, hseen⟩ :=
    harmless_nothing.tolerant_rule.exists_result id hfirst' rfl stop
  obtain ⟨others, last₂, ⟨mark₃, stop₃⟩, hothers₂, hstop₃, hseenOthers⟩ :=
    harmless_nothing.exists_result_otherRules hothers' hstop' False.elim rfl stop₁
  refine ⟨next, others, _, wholeText_eq_some.2 ⟨start.before (' ' :: back),
    afterFirst.before (' ' :: back), last₂, mark₃, ?_, ?_, ?_, hstop₃⟩, fun additional => ?_, ?_⟩
  · exact (confined_spaces.steady (.ofText front) (' ' :: back) hclosed).trans (by rw [hstart]; rfl)
  · rw [confined_rule.steady start (' ' :: back) hstartClosed, hfirst]
    rfl
  · have hlater : (otherRules.run (afterOthers.before (' ' :: back))).result =
        some ((.overriding, next) :: others, last₂) := by
      have hseparator' : (separator.run (afterOthers.before (' ' :: back))).result =
          some (.overriding, ⟨start'.rest, stop⟩) := hseparator
      rw [otherRules, result_many consumes_separator.seq_left, result_seq, hseparator',
        Option.bind_some, hnext]
      exact congrArg (Option.map fun r => ((.overriding, next) :: r.1, r.2)) hothers₂
    rw [result_otherRules_before hfirstClosed hothers, hlater]
    rfl
  · rw [← RuleForm.seenWhen_exact, ← RuleForm.seenWhen_exact, hseen]
  · rw [← seenPart_exact, hseenOthers]

/-- Lists mean what their elements mean. -/
theorem mapM_append_eq_ok {α β : Type} {interpret : α → Except ReadError β} {as bs : List α}
    {values values' : List β} (h : as.mapM interpret = .ok values)
    (h' : bs.mapM interpret = .ok values') :
    (as ++ bs).mapM interpret = .ok (values ++ values') := by
  rw [List.mapM_append, h, h']
  rfl

end Grammar

namespace Expression

open Grammar

/-- The rules of the one text are followed by those of the other. -/
theorem readRules_append {front back : List Char} {rules rules' : List Rule}
    (h : readRules front = .ok rules) (h' : readRules back = .ok rules')
    (hend : ¬ EndsInSemicolon front) :
    readRules (front ++ ';' :: ' ' :: back) = .ok (rules ++ rules') := by
  obtain ⟨form, last, hform, hrules⟩ := readRules_eq_ok.1 h
  obtain ⟨form', last', hform', hrules'⟩ := readRules_eq_ok.1 h'
  obtain ⟨next, others, stop, hboth, hnext, hothers⟩ :=
    exists_result_wholeText_before hend hform hform'
  obtain ⟨first, rest, hfirst, hrest, rfl⟩ := ExpressionForm.interpret_eq_ok.1 hrules
  obtain ⟨first', rest', hfirst', hrest', rfl⟩ := ExpressionForm.interpret_eq_ok.1 hrules'
  -- The first rule of the other text still adds nothing to the rules before it.
  have hpart : interpretPart (.overriding, next) = .ok first' :=
    meaning?_eq_some.1 ((hnext false).trans (meaning?_eq_some.2 hfirst'))
  have hlater : others.mapM interpretPart = .ok rest' :=
    meaning?_eq_some.1 ((toOption_mapM_congr hothers).trans (meaning?_eq_some.2 hrest'))
  have hparts : ((.overriding, next) :: others).mapM interpretPart = .ok (first' :: rest') := by
    rw [List.mapM_cons, hpart, hlater]
    rfl
  exact readRules_eq_ok.2 ⟨_, stop, hboth,
    ExpressionForm.interpret_eq_ok.2 ⟨first, _, hfirst, mapM_append_eq_ok hrest hparts, rfl⟩⟩

theorem rules_ne_nil_of_readRules {text : List Char} {rules : List Rule}
    (h : readRules text = .ok rules) : rules ≠ [] := by
  obtain ⟨form, last, -, hrules⟩ := readRules_eq_ok.1 h
  obtain ⟨first, rest, -, -, rfl⟩ := ExpressionForm.interpret_eq_ok.1 hrules
  exact List.cons_ne_nil _ _

/-- Weekdays with a comment that has a semicolon in it. -/
def ringFirst : Expression where
  given := "Mo-Fr \"ring; wait\""
  source := "Mo-Fr \"ring; wait\""
  rules := [{
    selector := { weekdays := [.days .monday .friday] }
    kind := .unknown
    comment := some "ring; wait" }]

/-- Sundays that are closed. -/
def closedOnSundays : Expression where
  given := "Su off"
  source := "Su off"
  rules := [{
    selector := { weekdays := [.days .sunday .sunday] }
    kind := .closed }]

/-- Two texts that are read can be put together with a semicolon, unless the first one already ends
in one. -/
theorem read_append {first second : String} {expression expression' : Expression}
    (hfirst : read first = .ok expression) (hsecond : read second = .ok expression')
    (hend : ¬ EndsInSemicolon first.toList) :
    ∃ whole, read (first ++ "; " ++ second) = .ok whole ∧
      whole.rules = expression.rules ++ expression'.rules := by
  have hrules := (read_eq_ok.1 hfirst).1
  have hrules' := (read_eq_ok.1 hsecond).1
  have htext : (first ++ "; " ++ second).toList = first.toList ++ ';' :: ' ' :: second.toList := by
    simp
  refine ⟨⟨_, _, expression.rules ++ expression'.rules⟩, read_eq_ok.2 ⟨?_, ?_, rfl, rfl⟩, rfl⟩
  · rw [htext]
    exact readRules_append hrules hrules' hend
  · -- Two rules are more than one lone comment.
    obtain ⟨rule, rest, hlist⟩ := List.exists_cons_of_ne_nil (rules_ne_nil_of_readRules hrules)
    obtain ⟨rule', rest', hlist'⟩ := List.exists_cons_of_ne_nil (rules_ne_nil_of_readRules hrules')
    rw [hlist, hlist']
    cases rest <;> rfl

/-- The semicolon of a comment separates nothing. -/
theorem read_append_ringFirst :
    read "Mo-Fr \"ring; wait\"" = .ok ringFirst ∧ read "Su off" = .ok closedOnSundays ∧
      ∃ whole, read ("Mo-Fr \"ring; wait\"" ++ "; " ++ "Su off") = .ok whole ∧
        whole.rules = ringFirst.rules ++ closedOnSundays.rules := by
  have hfirst : read "Mo-Fr \"ring; wait\"" = .ok ringFirst := by rfl
  have hsecond : read "Su off" = .ok closedOnSundays := by rfl
  exact ⟨hfirst, hsecond, read_append hfirst hsecond (by decide)⟩

end Expression

end Timetable
