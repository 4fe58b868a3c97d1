import Timetable.Proofs.Reading.Clauses

/-!
Reading the canonical text of an expression again.

The rules come back exactly if they are faithful (`reread_eq_same_iff`): each selector is, and
no rule that ends with its spans stands before an additional one that begins with spans. What was
read is not always so. A year is written without the zeros that it was read with, a range of a
single year or week loses its end but keeps its step, a year may come to stand before a date without
one, and a word for the kind that told two rules apart is not written again.
-/

namespace Timetable

/-- A rule comes back where others stand behind it: its selector does, and its spans are not taken
together with those of the next rule. -/
def Rule.FaithfulBefore (rule : Rule) (behind : List Rule) : Prop :=
  rule.selector.Faithful ∧ ∀ next ∈ behind.head?, ¬ (rule.EndsWithSpans ∧ next.AddsSpans)

instance (rule : Rule) (behind : List Rule) : Decidable (rule.FaithfulBefore behind) :=
  inferInstanceAs (Decidable (_ ∧ ∀ next ∈ behind.head?, ¬ (rule.EndsWithSpans ∧ next.AddsSpans)))

/-- Each rule comes back. -/
def RulesFaithful : List Rule → Prop
  | [] => True
  | rule :: rest => rule.FaithfulBefore rest ∧ RulesFaithful rest

instance decidableRulesFaithful : (rules : List Rule) → Decidable (RulesFaithful rules)
  | [] => .isTrue trivial
  | rule :: rest =>
    have := decidableRulesFaithful rest
    inferInstanceAs (Decidable (rule.FaithfulBefore rest ∧ RulesFaithful rest))

theorem RulesFaithful.selector {rules : List Rule} (h : RulesFaithful rules) :
    ∀ rule ∈ rules, rule.selector.Faithful := by
  induction rules with
  | nil => nofun
  | cons first rest ih => exact List.forall_mem_cons.2 ⟨h.1.1, ih h.2⟩

/-- What is written before a rule that is not the first one. -/
def Rule.lead (rule : Rule) : String := if rule.additional then ", " else "; "

/-- Rules behind the first one, as they are written. -/
def rulesBehind (rules : List Rule) : List Char :=
  rules.flatMap fun rule => rule.lead.toList ++ rule.text.toList

/-- The lead of a rule, given what is written for a comma. -/
def Rule.leadWith (comma : String) (rule : Rule) : String :=
  if rule.additional then comma else "; "

/-- Rules behind the first one, given what is written for a comma. -/
def rulesBehindWith (comma : String) (rules : List Rule) : List Char :=
  rules.flatMap fun rule => (rule.leadWith comma).toList ++ rule.text.toList

theorem rulesBehindWith_cons (comma : String) (rule : Rule) (rules : List Rule) :
    rulesBehindWith comma (rule :: rules) =
      (rule.leadWith comma).toList ++ (rule.text.toList ++ rulesBehindWith comma rules) := by
  rw [rulesBehindWith, List.flatMap_cons, List.append_assoc]
  rfl

theorem rulesBehind_cons (rule : Rule) (rules : List Rule) :
    rulesBehind (rule :: rules) = rule.lead.toList ++ (rule.text.toList ++ rulesBehind rules) :=
  rulesBehindWith_cons ", " rule rules

/-- Rules one after the other, given what is written for a comma. -/
def Expression.rulesTextWith (comma : String) : List Rule → String
  | [] => ""
  | first :: rest =>
    first.text ++ String.join (rest.map fun rule => rule.leadWith comma ++ rule.text)

theorem toList_rulesTextWith (comma : String) (first : Rule) (rest : List Rule) :
    (Expression.rulesTextWith comma (first :: rest)).toList =
      first.text.toList ++ rulesBehindWith comma rest := by
  rw [Expression.rulesTextWith, String.toList_append]
  congr 1
  induction rest with
  | nil => simp [rulesBehindWith]
  | cons rule rest ih =>
    rw [rulesBehindWith_cons, ← ih]
    simp

theorem toList_rulesText (first : Rule) (rest : List Rule) :
    (Expression.rulesText (first :: rest)).toList = first.text.toList ++ rulesBehind rest :=
  toList_rulesTextWith ", " first rest

namespace Grammar

open Peg

variable {rest source : List Char}

/-! ### Between rules -/

/-- A comma, with a space behind it or without one. -/
def IsComma (comma : String) : Prop := comma = "," ∨ comma = ", "

variable {comma : String}

theorem endsRule_rulesBehindWith (hcomma : IsComma comma) (rules : List Rule) :
    EndsRule (rulesBehindWith comma rules) := by
  cases rules with
  | nil => exact .inl rfl
  | cons rule rules =>
    rw [rulesBehindWith_cons, Rule.leadWith]
    split
    · rcases hcomma with rfl | rfl <;> exact .inr ⟨',', _, rfl, .inr rfl⟩
    · exact .inr ⟨';', _, rfl, .inl rfl⟩

theorem endsRule_rulesBehind (rules : List Rule) : EndsRule (rulesBehind rules) :=
  endsRule_rulesBehindWith (.inr rfl) rules

theorem begins_years {ranges : List YearRange} (hne : ranges ≠ []) (hrest : Stops rest) :
    Begins .dates ((String.intercalate "," (ranges.map YearRange.text)).toList ++ rest) := by
  obtain ⟨first, others, rfl⟩ := List.exists_cons_of_ne_nil hne
  have hstops := @follows_trail _ YearRange.text Stops rest stops_comma hrest others
  rw [List.map_cons, toList_intercalate_cons, YearRange.text, String.toList_append,
    List.append_assoc, List.append_assoc]
  have hno := @noDigit_rangeTail _ (if first.first = first.last then none
    else some (Decimal.natural first.last)) first.step hstops
  obtain ⟨c, tail, heq, hc⟩ := rangeTail_head
    (if first.first = first.last then none else some (Decimal.natural first.last)) first.step hstops
  refine .numeral Decimal.isDigit_natural (Decimal.natural_ne_nil _) hno ?_
  rw [heq]
  rcases hc with rfl | rfl | rfl | rfl <;> simp

theorem begins_wide {selector : Selector} (hne : wideWords selector ≠ [])
    (hrest : After .weeks rest) : ∃ part, part ≠ .spans ∧
      Begins part ((String.intercalate " " (wideWords selector)).toList ++ rest) := by
  have hafter := after_dates_weeks selector.weeks hrest
  by_cases hlead : leadWords selector.years selector.dates = []
  · have hweeks : selector.weeks ≠ [] := by
      intro h
      exact hne (by rw [wideWords, hlead, h]; rfl)
    rw [toList_wideWords_weeks hlead hweeks, List.append_assoc]
    exact ⟨.weeks, by decide, .week _⟩
  · rw [wideWords, toList_intercalate_append _ _ hlead, List.append_assoc]
    by_cases hyears : selector.years = []
    · have hdates := (leadWords_ne_nil.1 hlead).resolve_left fun h => h hyears
      rw [hyears, toList_leadWords_nil hdates]
      exact ⟨.dates, by decide, begins_dates hdates _⟩
    · rw [toList_leadWords hyears, List.append_assoc]
      obtain ⟨source, hsource⟩ := exists_blank selector.dates hafter
      rw [hsource]
      exact ⟨.dates, by decide, begins_years hyears ⟨' ', source, rfl, .inr rfl⟩⟩

/-- A rule begins with a span only if it has neither conditions nor days. -/
theorem begins_rule {rule : Rule} (hbounds : rule.InBounds) (rest : List Char) :
    ∃ part, Begins part (rule.text.toList ++ rest) ∧
      (part = .spans → rule.selector.isEmpty = true ∧ rule.spans ≠ [] ∧ ¬ rule.IsWhole) := by
  rw [Rule.text_eq]
  by_cases hwhole : rule.IsWhole
  · refine ⟨.dates, ?_, fun h => absurd h (by decide)⟩
    rw [timesWords, if_pos hwhole, List.singleton_append, toList_intercalate_cons,
      List.append_assoc]
    exact @Begins.numeral ['2', '4'] ('/' :: '7' :: (trail " " (modifierWords rule) ++ rest))
      (List.all_eq_true.1 rfl) (List.cons_ne_nil _ _) (noDigit_cons rfl) (by simp)
  by_cases htimes : timesWords rule = []
  · have hnil := (timesWords_eq_nil htimes).2
    have hne : modifierWords rule ≠ [] := fun h =>
      hbounds.spans_ne_nil (modifierWords_eq_nil.1 h).1 hnil
    obtain ⟨part, hlt, hbegins⟩ := begins_modifier hne rest
    rw [htimes, List.nil_append]
    exact ⟨part, hbegins, fun h => absurd hlt (h ▸ Nat.lt_irrefl _)⟩
  rw [toList_intercalate_append _ _ htimes, List.append_assoc]
  rw [timesWords_eq hwhole] at htimes ⊢
  by_cases hwide : wideWords rule.selector = []
  · rw [hwide, List.nil_append] at htimes ⊢
    by_cases hdays : daysWords rule.selector = []
    · rw [smallWords, hdays, List.nil_append]
      have hne : rule.spans ≠ [] := by
        intro hnil
        exact htimes (by rw [smallWords, hdays, spansWords, hnil]; rfl)
      rw [toList_spansWords hne]
      refine ⟨.spans, begins_spans hne _, fun _ => ⟨?_, hne, hwhole⟩⟩
      rw [Selector.isEmpty_iff, ← Selector.groups_eq_nil, Selector.groups_eq_append, hwide, hdays]
      rfl
    · rw [smallWords, toList_intercalate_append _ _ hdays, List.append_assoc]
      obtain ⟨part, rfl | rfl, hbegins⟩ := begins_days hbounds.selector.days hdays
        (trail " " (spansWords rule) ++ (trail " " (modifierWords rule) ++ rest))
      · exact ⟨_, hbegins, fun h => absurd h (by decide)⟩
      · exact ⟨_, hbegins, fun h => absurd h (by decide)⟩
  · rw [toList_intercalate_append _ _ hwide, List.append_assoc]
    obtain ⟨part, hne, hbegins⟩ := begins_wide hwide (after_wide hbounds rest)
    exact ⟨part, hbegins, fun h => absurd h hne⟩

/-- The comma before a rule is read, with the space behind it if there is one. -/
theorem reads_spacedComma (hcomma : IsComma comma) {part : Part} (h : Begins part source) :
    (spaced ",").Reads (comma.toList ++ source) source fun _ => True := by
  rcases hcomma with rfl | rfl
  · exact @reads_spaced _ "," _ (refuses_space (by decide)) (reads_spaces_none h.refuses_space)
  · exact @reads_spaced _ "," _ (refuses_space (by decide)) (reads_spaces_one h.refuses_space)

/-- No span is added to those of a rule, unless the next rule adds it. -/
theorem endsSpans_rulesBehind (hcomma : IsComma comma) {rules : List Rule}
    (hbounds : ∀ rule ∈ rules, rule.InBounds) (h : ∀ next ∈ rules.head?, ¬ next.AddsSpans) :
    EndsSpans (rulesBehindWith comma rules) := by
  cases rules with
  | nil => exact ⟨fun _ => rfl, fun _ => rfl⟩
  | cons next rules =>
    rw [rulesBehindWith_cons, Rule.leadWith]
    by_cases hadditional : next.additional = true
    · obtain ⟨part, hbegins, hspans⟩ :=
        begins_rule (hbounds next List.mem_cons_self) (rulesBehindWith comma rules)
      have hne : part ≠ .spans := fun heq => h next rfl ⟨hadditional, hspans heq⟩
      rw [if_pos hadditional]
      refine ⟨?_, Refuses.andThen_right (reads_spacedComma hcomma hbegins)
        (hbegins.refuses_span hne)⟩
      rcases hcomma with rfl | rfl <;> exact refuses_plus_comma _
    · rw [if_neg hadditional]
      exact ⟨Refuses.named (refuses_token_cons (by decide)), Refuses.andThen
        (refuses_spaced (refuses_space (by decide)) (refuses_token_cons (by decide)))⟩

theorem refuses_semicolon_comma (hcomma : IsComma comma) (source : List Char) :
    (spaced ";").Refuses (comma.toList ++ source) ∧
      (spaced "||").Refuses (comma.toList ++ source) := by
  rcases hcomma with rfl | rfl <;>
    exact ⟨refuses_spaced (refuses_space (by decide)) (refuses_token_cons (by decide)),
      refuses_spaced (refuses_space (by decide)) (refuses_token_cons (by decide))⟩

theorem reads_separator (hcomma : IsComma comma) {rule : Rule} {part : Part}
    (h : Begins part source) :
    separator.Reads ((rule.leadWith comma).toList ++ source) source
      fun form => form.interpret = .ok rule.additional := by
  unfold Rule.leadWith
  cases rule.additional with
  | true =>
    obtain ⟨hsemicolon, hbars⟩ := refuses_semicolon_comma hcomma source
    rw [if_pos rfl]
    exact Ends.named (Ends.choice_right (Refuses.map (Refuses.named hsemicolon))
      (Ends.choice_right (Refuses.map (Refuses.located (Refuses.named hbars)))
        (Ends.choice_left (Ends.map (Ends.named (reads_spacedComma hcomma h)) fun _ _ => rfl))))
  | false =>
    rw [if_neg Bool.noConfusion]
    exact Ends.named (Ends.choice_left (Ends.map (Ends.named (@reads_spaced _ ";" _
      (refuses_space (by decide)) (reads_spaces_one h.refuses_space))) fun _ _ => rfl))

/-! ### Lists of rules -/

variable {rules : List Rule}

theorem reads_ruleBefore (hcomma : IsComma comma) {rule : Rule}
    (hfaithful : rule.FaithfulBefore rules)
    (hrule : rule.InBounds) (hbounds : ∀ rule ∈ rules, rule.InBounds) :
    Grammar.rule.Reads (rule.text.toList ++ rulesBehindWith comma rules)
      (rulesBehindWith comma rules) fun form => form.interpret rule.additional = .ok rule := by
  obtain ⟨hselector, hnext⟩ := hfaithful
  apply reads_rule hselector hrule (endsRule_rulesBehindWith hcomma rules)
  intro hends
  exact endsSpans_rulesBehind hcomma hbounds fun next hmem hadds => hnext next hmem ⟨hends, hadds⟩

theorem reads_rulesBehind (hcomma : IsComma comma) (hfaithful : RulesFaithful rules)
    (hbounds : ∀ rule ∈ rules, rule.InBounds) :
    (many (seq separator rule)).Reads (rulesBehindWith comma rules) []
      fun parts => parts.mapM interpretPart = .ok rules := by
  induction rules with
  | nil => exact reads_many_stop consumes_separator.seq_left (fun _ => rfl) rfl
  | cons next rules ih =>
    obtain ⟨hnext, hrest⟩ := hfaithful
    obtain ⟨hrule, hrules⟩ := List.forall_mem_cons.1 hbounds
    obtain ⟨part, hbegins, -⟩ := begins_rule hrule (rulesBehindWith comma rules)
    have hread := reads_ruleBefore hcomma hnext hrule hrules
    rw [rulesBehindWith_cons]
    refine Ends.mono (Ends.many_step consumes_separator.seq_left
      (Ends.seq (reads_separator hcomma hbegins) hread) (ih hrest hrules)) ?_
    rintro _ ⟨form, forms, rfl, ⟨hseparator, hform⟩, hforms⟩
    exact mapM_cons_eq_ok.2 ⟨next, rules, bind_eq_ok.2 ⟨_, hseparator, hform⟩, hforms, rfl⟩

/-- A rule that is not faithful before the rules behind it is not read as itself. -/
theorem yields_rule_other {first : Rule} (hfaithful : ¬ first.FaithfulBefore rules)
    (hfirst : first.InBounds) (hbounds : ∀ rule ∈ rules, rule.InBounds) :
    rule.Yields (first.text.toList ++ rulesBehind rules)
      fun form => ∀ additional, form.interpret additional ≠ .ok first := by
  by_cases hselector : first.selector.Faithful
  · cases rules with
    | nil => exact absurd ⟨hselector, nofun⟩ hfaithful
    | cons next rules =>
      have hboth : first.EndsWithSpans ∧ next.AddsSpans := Classical.byContradiction fun h =>
        hfaithful ⟨hselector, by rintro _ ⟨⟩; exact h⟩
      rw [rulesBehind_cons, Rule.lead, if_pos hboth.2.1]
      exact (fits_rule_more hselector hfirst (hbounds next List.mem_cons_self) hboth.1 hboth.2
        (endsRule_rulesBehind rules)).yields
  · exact yields_rule_selector hselector hfirst _

theorem yields_rulesBehind (hfaithful : ¬ RulesFaithful rules)
    (hbounds : ∀ rule ∈ rules, rule.InBounds) :
    (many (seq separator rule)).Yields (rulesBehind rules)
      fun parts => parts.mapM interpretPart ≠ .ok rules := by
  induction rules with
  | nil => exact absurd trivial hfaithful
  | cons next rules ih =>
    obtain ⟨hrule, hrules⟩ := List.forall_mem_cons.1 hbounds
    obtain ⟨part, hbegins, -⟩ := begins_rule hrule (rulesBehind rules)
    rw [rulesBehind_cons]
    by_cases hgood : next.FaithfulBefore rules
    · have hread := reads_ruleBefore (.inr rfl) hgood hrule hrules
      refine Yields.mono (Yields.many_step consumes_separator.seq_left
        (Ends.seq (reads_separator (.inr rfl) hbegins) hread)
        (ih (fun h => hfaithful ⟨hgood, h⟩) hrules)) ?_
      rintro _ ⟨form, forms, rfl, -, hforms⟩ heq
      obtain ⟨_, _, -, htail, heq⟩ := mapM_cons_eq_ok.1 heq
      obtain ⟨-, rfl⟩ := List.cons.inj heq
      exact hforms htail
    · refine Yields.mono (Yields.many_first consumes_separator.seq_left (Yields.seq_right
        (reads_separator (.inr rfl) hbegins) (yields_rule_other hgood hrule hrules))) ?_
      rintro _ (rfl | ⟨form, forms, rfl, -, hform⟩) heq
      · cases mapM_nil_eq_ok.1 heq
      · obtain ⟨_, _, hfirst, -, heq⟩ := mapM_cons_eq_ok.1 heq
        obtain ⟨rfl, -⟩ := List.cons.inj heq
        obtain ⟨additional, -, hrule⟩ := bind_eq_ok.1 hfirst
        exact hform additional hrule

/-! ### The whole text -/

variable {first : Rule}

theorem reads_expression (hcomma : IsComma comma) (hfaithful : RulesFaithful (first :: rules))
    (hbounds : ∀ rule ∈ first :: rules, rule.InBounds) (hadditional : first.additional = false) :
    expression.Reads (first.text.toList ++ rulesBehindWith comma rules) []
      fun form => form.interpret = .ok (first :: rules) := by
  obtain ⟨hbefore, hrest⟩ := hfaithful
  obtain ⟨hfirst, hrules⟩ := List.forall_mem_cons.1 hbounds
  apply Ends.named
  refine Ends.followedBy (Ends.map (Ends.seq
    (reads_ruleBefore hcomma hbefore hfirst hrules) (reads_rulesBehind hcomma hrest hrules)) ?_)
    (@reads_optional_none _ _ _ (fun _ => True) (fun _ => rfl) trivial)
  rintro ⟨form, forms⟩ ⟨hform, hforms⟩
  rw [hadditional] at hform
  exact bind_eq_ok.2 ⟨first, hform, bind_eq_ok.2 ⟨rules, hforms, rfl⟩⟩

theorem yields_expression (hfaithful : ¬ RulesFaithful (first :: rules))
    (hbounds : ∀ rule ∈ first :: rules, rule.InBounds) :
    expression.Yields (first.text.toList ++ rulesBehind rules)
      fun form => form.interpret ≠ .ok (first :: rules) := by
  obtain ⟨hfirst, hrules⟩ := List.forall_mem_cons.1 hbounds
  have hinterpret : ∀ form : ExpressionForm, form.interpret = .ok (first :: rules) →
      form.first.interpret false = .ok first ∧ form.rest.mapM interpretPart = .ok rules := by
    intro form h
    obtain ⟨_, _, hform, hforms, heq⟩ := ExpressionForm.interpret_eq_ok.1 h
    obtain ⟨rfl, rfl⟩ := List.cons.inj heq
    exact ⟨hform, hforms⟩
  apply Yields.named
  refine Yields.followedBy ?_
  by_cases hgood : first.FaithfulBefore rules
  · refine Yields.map (Yields.seq_right (reads_ruleBefore (.inr rfl) hgood hfirst hrules)
      (yields_rulesBehind (fun h => hfaithful ⟨hgood, h⟩) hrules)) ?_
    intro parts hparts h
    exact hparts.2 (hinterpret _ h).2
  · refine Yields.map (Yields.seq_left (yields_rule_other hgood hfirst hrules)) ?_
    intro parts hparts h
    exact hparts false (hinterpret _ h).1

end Grammar

open Grammar Peg

/-- Faithful rules are read as they are written, whether there is a space behind their commas or
not. -/
theorem readRules_rulesBehindWith {comma : String} (hcomma : IsComma comma) {first : Rule}
    {rest : List Rule} (hbounds : RulesInBounds (first :: rest))
    (hfaithful : RulesFaithful (first :: rest)) :
    Expression.readRules (first.text.toList ++ rulesBehindWith comma rest) =
      .ok (first :: rest) := by
  obtain ⟨hrules, _, _, heq, hadditional⟩ := hbounds
  obtain ⟨rfl, rfl⟩ := List.cons.inj heq
  obtain ⟨part, hbegins, -⟩ :=
    begins_rule (hrules first List.mem_cons_self) (rulesBehindWith comma rest)
  have hspaces := @reads_spaces_none _ hbegins.refuses_space
  have hexpression := reads_expression hcomma hfaithful hrules hadditional
  obtain ⟨form, last, hresult, -, hform⟩ := (Ends.followedBy (Ends.followedBy
    (Ends.andThen hspaces hexpression) (reads_spaces_none fun _ => rfl))
    (Ends.named (@reads_endOfText (fun _ => True) trivial))) 0
  exact Expression.readRules_eq_ok.2 ⟨form, last, hresult, hform⟩

theorem readRules_rulesText {rules : List Rule} (hbounds : RulesInBounds rules) :
    Expression.readRules (Expression.rulesText rules).toList = .ok rules ↔ RulesFaithful rules := by
  obtain ⟨first, rest, rfl, -⟩ := hbounds.2
  constructor
  · rw [Expression.readRules_eq_ok, toList_rulesText]
    rintro ⟨form, cursor, hresult, hform⟩
    refine Classical.byContradiction ?_
    intro hfaithful
    obtain ⟨part, hbegins, -⟩ :=
      begins_rule (hbounds.1 first List.mem_cons_self) (rulesBehind rest)
    have hspaces := @reads_spaces_none _ hbegins.refuses_space
    have hexpression := yields_expression hfaithful hbounds.1
    exact Yields.followedBy (Yields.followedBy (Yields.andThen_right hspaces hexpression))
      0 form cursor hresult hform
  · intro hfaithful
    rw [toList_rulesText]
    exact readRules_rulesBehindWith (.inr rfl) hbounds hfaithful

theorem Expression.reread_eq_same {expression : Expression} : expression.reread = .same ↔
    ∃ again, read expression.text = .ok again ∧ again.rules = expression.rules := by
  unfold reread
  cases read expression.text with
  | error error => exact ⟨nofun, fun ⟨_, h, _⟩ => nomatch h⟩
  | ok again =>
    constructor
    · intro hsame
      dsimp only at hsame
      split at hsame
      · rename_i hrules
        exact ⟨again, rfl, hrules⟩
      · cases hsame
    · rintro ⟨_, heq, hrules⟩
      obtain rfl := Except.ok.inj heq
      exact if_pos hrules

/-- Every second week of a range that holds one week. -/
def Expression.steppedWeek : Expression where
  given := "week 10-10/2"
  source := "week 10-10/2"
  rules := [{
    selector := { weeks := [⟨10, 10, 2⟩] }
    spans := [.wholeDay]
    kind := .opened }]

/-- The rules of a text come back from the canonical text exactly if they are faithful. -/
theorem Expression.reread_eq_same_iff {text : String} {expression : Expression}
    (h : read text = .ok expression) :
    expression.reread = .same ↔ RulesFaithful expression.rules := by
  obtain ⟨-, hcomment, -, -⟩ := read_eq_ok.1 h
  rw [reread_eq_same, ← readRules_rulesText (inBounds_of_read h)]
  constructor
  · rintro ⟨again, hagain, hrules⟩
    have hread := (read_eq_ok.1 hagain).1
    rw [hrules] at hread
    exact hread
  · intro hrules
    exact ⟨⟨expression.text, expression.text, expression.rules⟩,
      read_eq_ok.2 ⟨hrules, hcomment, rfl, rfl⟩, rfl⟩

/-- A range of one week is written without its end and with its step, and so is not read again. -/
theorem Expression.reread_stepped_week :
    read "week 10-10/2" = .ok steppedWeek ∧ steppedWeek.reread ≠ .same := by
  have hread : read "week 10-10/2" = .ok steppedWeek := by rfl
  refine ⟨hread, fun hsame => ?_⟩
  have hfaithful := (reread_eq_same_iff hread).1 hsame
  revert hfaithful
  decide

end Timetable
