import Timetable.Proofs.Reading.RoundTrip
import Timetable.Proofs.Tidy.Commas

/-!
Tidying the canonical text of an expression.

Of the canonical text, tidying drops the space behind each comma between rules, and nothing else
(`tidy_rulesText`), where the rules survive it: the blanks of their comments are single spaces, and
no span runs from a clock time to the midnight that begins the day. As the text is read in the same
way without these spaces, rules that come back from their canonical text also come back from it once
it was tidied (`readTidied_text`).
-/

namespace Timetable

/-! ### Rules -/

/-- Tidying leaves the text of the rule as it is: no blanks of its comment are collapsed, and no
span of it is made to end with the end of the day. -/
structure Rule.SurvivesTidying (rule : Rule) : Prop where
  comment : ∀ comment ∈ rule.comment, SingleSpaced comment.toList
  spans : ∀ span ∈ rule.spans, ¬ span.EndsAtMidnight

instance (rule : Rule) : Decidable rule.SurvivesTidying :=
  decidable_of_iff (_ ∧ _) ⟨fun h => ⟨h.1, h.2⟩, fun h => ⟨h.comment, h.spans⟩⟩

namespace Tidy

open Grammar

/-- The words of a rule in front of its comment. -/
def leadText (rule : Rule) : List Char :=
  if plainWords rule = [] then [] else (String.intercalate " " (plainWords rule)).toList ++ [' ']

theorem toList_text_of_none {rule : Rule} (h : rule.comment = none) :
    rule.text.toList = (String.intercalate " " (plainWords rule)).toList := by
  rw [Rule.text_eq, modifierWords, commentWords_of_none h, List.append_nil]
  rfl

theorem toList_text_of_some {rule : Rule} {comment : String} (h : rule.comment = some comment) :
    rule.text.toList = leadText rule ++ '"' :: (comment.toList ++ ['"']) := by
  have hcomment : ("\"" ++ comment ++ "\"").toList = '"' :: (comment.toList ++ ['"']) := by
    simp
  rw [Rule.text_eq, modifierWords, commentWords_of_some h, ← List.append_assoc,
    show timesWords rule ++ rule.kindWords = plainWords rule from rfl, leadText]
  split
  · rename_i hnil
    rw [hnil, List.nil_append, String.intercalate_singleton, hcomment]
    rfl
  · rename_i hne
    rw [toList_intercalate_append _ _ hne, trail_cons, hcomment]
    simp [trail]

theorem plainWords_ne_nil {rule : Rule} (hbounds : rule.InBounds) (h : rule.comment = none) :
    plainWords rule ≠ [] := by
  intro hnil
  obtain ⟨htimes, hkind⟩ := List.append_eq_nil_iff.1 hnil
  have hopened := (modifierWords_eq_nil.1 (show modifierWords rule = [] by
    rw [modifierWords, hkind, commentWords_of_none h]
    rfl)).1
  exact hbounds.spans_ne_nil hopened (timesWords_eq_nil htimes).2

section

variable {rule : Rule} (hbounds : rule.InBounds) (hrule : rule.SurvivesTidying)
  {text front loose tight behind behind' : List Char}

include hbounds hrule

theorem orderly_leadText : Orderly (leadText rule) := by
  unfold leadText
  split
  · exact .nil
  · exact (starts_plainText hbounds hrule.spans ‹_› goesOn_space).orderly

theorem neatens_rule
    (hbehind : ∀ front, OrderlyBefore front → Neatens (front ++ behind) (front ++ behind')) :
    Neatens (rule.text.toList ++ behind) (rule.text.toList ++ behind') := by
  cases hcomment : rule.comment with
  | none =>
    rw [toList_text_of_none hcomment]
    exact hbehind _ fun rest h => (starts_plainText hbounds hrule.spans
      (plainWords_ne_nil hbounds hcomment) h).orderly
  | some comment =>
    have hquote : '"' ∉ comment.toList := fun hmem =>
      absurd (hbounds.comment comment hcomment '"' hmem) (by decide)
    have hquoted := (hbehind [] fun rest h => h.orderly).quoted
      (orderly_leadText hbounds hrule) hquote (hrule.comment comment hcomment)
    rw [toList_text_of_some hcomment]
    simpa using hquoted

theorem exists_opening_plain (hne : plainWords rule ≠ []) :
    ∃ c tail, (String.intercalate " " (plainWords rule)).toList = c :: tail ∧ IsInner c := by
  have hhead := (starts_plainText hbounds hrule.spans hne (goesOn_comma ⟨.nil, nofun⟩)).head
  cases htext : (String.intercalate " " (plainWords rule)).toList with
  | nil =>
    rw [htext] at hhead
    exact absurd (hhead ',' rfl) (by decide)
  | cons c tail =>
    rw [htext] at hhead
    exact ⟨c, tail, rfl, hhead c rfl⟩

theorem exists_opening_rule :
    ∃ c tail, rule.text.toList = c :: tail ∧ (IsInner c ∨ c = '"') := by
  cases hcomment : rule.comment with
  | none =>
    rw [toList_text_of_none hcomment]
    obtain ⟨c, tail, heq, hc⟩ :=
      exists_opening_plain hbounds hrule (plainWords_ne_nil hbounds hcomment)
    exact ⟨c, tail, heq, .inl hc⟩
  | some comment =>
    rw [toList_text_of_some hcomment, leadText]
    split
    · exact ⟨'"', _, rfl, .inr rfl⟩
    · obtain ⟨c, tail, heq, hc⟩ := exists_opening_plain hbounds hrule ‹_›
      rw [heq]
      exact ⟨c, _, rfl, .inl hc⟩

theorem opens_rule (behind : List Char) :
    Opens (rule.text.toList ++ behind) ∧ rule.text.toList ++ behind ≠ [] := by
  obtain ⟨c, tail, heq, hc⟩ := exists_opening_rule hbounds hrule
  rw [heq]
  refine ⟨?_, List.cons_ne_nil _ _⟩
  rintro _ ⟨⟩
  exact hc

end

/-! ### Rules that say that a place is always open -/

/-- A text begins neither with 24 nor with a unit behind it: it begins with another character, or a
digit or a colon comes third. -/
def OpensOtherwise (text : List Char) : Prop :=
  (∃ c tail, text = c :: tail ∧ c ≠ '2') ∨
    ∃ a b c tail, text = a :: b :: c :: tail ∧ (c.isDigit = true ∨ c = ':')

theorem OpensOtherwise.append {text : List Char} (h : OpensOtherwise text) (behind : List Char) :
    OpensOtherwise (text ++ behind) := by
  rcases h with ⟨c, tail, rfl, hc⟩ | ⟨a, b, c, tail, rfl, hc⟩
  · exact .inl ⟨c, tail ++ behind, rfl, hc⟩
  · exact .inr ⟨a, b, c, tail ++ behind, rfl, hc⟩

/-- The first letter of a word that a text fits. -/
theorem exists_letter_of_fits {word : String} {c : Char} {tail : List Char}
    (h : Fits (word.toList.map .letter) (c :: tail)) :
    ∃ letter letters, word.toList = letter :: letters ∧ foldsTo letter c = true := by
  obtain ⟨mark, marks, hmark, -, hmarks⟩ := List.forall₂_cons_right_iff.1 h
  obtain ⟨letter, letters, hletters, rfl, -⟩ := List.map_eq_cons_iff.1 hmarks
  exact ⟨letter, letters, hletters, hmark⟩

theorem OpensOtherwise.saysAlwaysOpen_eq {text : List Char} (h : OpensOtherwise text) :
    saysAlwaysOpen text = false := by
  have hunits : ∀ word ∈ openUnits, word.toList.head?.all (fun letter =>
      "0123456789:".toList.all fun c => !foldsTo letter c) = true := by decide
  refine Bool.eq_false_iff.2 fun hopen => ?_
  obtain ⟨blank, unit, hblank, hunit, rfl⟩ := saysAlwaysOpen_iff.1 hopen
  rcases h with ⟨c, tail, heq, hc⟩ | ⟨a, b, c, tail, heq, hc⟩
  · exact hc (List.cons.inj heq).1.symm
  · have hbehind : blank ++ unit = c :: tail := (List.cons.inj (List.cons.inj heq).2).2
    have hmem : c ∈ "0123456789:".toList := by
      rcases hc with hdigit | rfl
      · rcases eq_of_isDigit hdigit with rfl | rfl | rfl | rfl | rfl | rfl | rfl | rfl | rfl | rfl
          <;> decide
      · decide
    rcases hblank with rfl | rfl
    · rw [List.nil_append] at hbehind
      subst hbehind
      obtain ⟨word, hword, hfits⟩ := hunit.resolve_left (List.cons_ne_nil _ _)
      obtain ⟨letter, letters, hletters, hfolds⟩ := exists_letter_of_fits hfits
      have hno := hunits word hword
      rw [hletters] at hno
      have hno := List.all_eq_true.1 hno c hmem
      rw [hfolds] at hno
      cases hno
    · obtain ⟨rfl, -⟩ := List.cons.inj hbehind
      exact absurd hmem (by decide)

theorem opensOtherwise_of_begins {part : Part} {source : List Char} (h : Begins part source)
    (hpart : part ≠ .dates) : OpensOtherwise source := by
  cases h with
  | numeral => exact absurd rfl hpart
  | clock => exact .inr ⟨_, _, ':', _, rfl, .inr rfl⟩
  | word hword =>
    cases part with
    | dates => exact absurd rfl hpart
    | _ => fin_cases hword <;> exact .inl ⟨_, _, rfl, by decide⟩

theorem opensOtherwise_year {year : Nat} (h : FourDigits year) :
    OpensOtherwise (Decimal.natural year).toList := by
  have hlength := Decimal.length_natural_eq_four.2 h
  have hdigits := @Decimal.isDigit_natural year
  generalize (Decimal.natural year).toList = row at hlength hdigits
  match row, hlength with
  | [a, b, c, d], _ => exact .inr ⟨a, b, c, [d], rfl, .inl (hdigits c (by simp))⟩

theorem opensOtherwise_yearLead {year? : Option Nat} (h : ∀ year ∈ year?, FourDigits year)
    {behind : List Char} (hbehind : OpensOtherwise behind) :
    OpensOtherwise ((yearLead year?).toList ++ behind) := by
  cases year? with
  | none => exact hbehind
  | some year =>
    unfold yearLead
    rw [String.toList_append]
    exact ((opensOtherwise_year (h year rfl)).append _).append _

theorem opensOtherwise_month (month : Month) : OpensOtherwise month.abbreviation.toList := by
  cases month <;> exact .inl ⟨_, _, rfl, by decide⟩

theorem opensOtherwise_day {day : AnnualDay} (h : day.Faithful) :
    OpensOtherwise day.text.toList := by
  cases day with
  | fixed year? month day =>
    simp only [AnnualDay.text, String.toList_append, List.append_assoc]
    exact opensOtherwise_yearLead h ((opensOtherwise_month month).append _)
  | easter year? =>
    simp only [AnnualDay.text, String.toList_append]
    exact opensOtherwise_yearLead h (.inl ⟨_, _, rfl, by decide⟩)

theorem opensOtherwise_dateRange {range : DateRange} (h : range.Faithful) :
    OpensOtherwise range.text.toList := by
  cases range with
  | months year? first last =>
    simp only [DateRange.text, String.toList_append, List.append_assoc]
    exact opensOtherwise_yearLead h ((opensOtherwise_month first).append _)
  | days first last =>
    simp only [DateRange.text, String.toList_append]
    exact (opensOtherwise_day h.1).append _

theorem opensOtherwise_lead {years : List YearRange} {dates : List DateRange}
    (h : LeadFaithful years dates) (hne : leadWords years dates ≠ []) (behind : List Char) :
    OpensOtherwise ((String.intercalate " " (leadWords years dates)).toList ++ behind) := by
  cases years with
  | nil =>
    have hdates := (leadWords_ne_nil.1 hne).resolve_left fun h => h rfl
    obtain ⟨first, others, rfl⟩ := List.exists_cons_of_ne_nil hdates
    rw [toList_leadWords_nil hdates, List.map_cons, toList_intercalate_cons]
    exact ((opensOtherwise_dateRange (h.2.1 first List.mem_cons_self)).append _).append _
  | cons first others =>
    rw [toList_leadWords (List.cons_ne_nil _ _), List.map_cons, toList_intercalate_cons,
      YearRange.text, String.toList_append]
    exact ((((opensOtherwise_year (h.1 first List.mem_cons_self).1).append _).append _).append
      _).append _

/-- A rule does not say that a place is always open, save for the whole day without a condition. -/
theorem opensOtherwise_rule {rule : Rule} (hbounds : rule.InBounds)
    (hfaithful : rule.selector.Faithful) (hwhole : ¬ rule.IsWhole) (behind : List Char) :
    OpensOtherwise (rule.text.toList ++ behind) := by
  have hne : Part.dates.rank < Part.spans.rank := by decide
  rw [Rule.text_eq]
  by_cases htimes : timesWords rule = []
  · have hnil := (timesWords_eq_nil htimes).2
    have hmodifier : modifierWords rule ≠ [] := fun h =>
      hbounds.spans_ne_nil (modifierWords_eq_nil.1 h).1 hnil
    obtain ⟨part, hlt, hbegins⟩ := begins_modifier hmodifier behind
    rw [htimes, List.nil_append]
    exact opensOtherwise_of_begins hbegins (ne_of_rank_lt (Nat.lt_trans hne hlt))
  rw [toList_intercalate_append _ _ htimes, List.append_assoc]
  rw [timesWords_eq hwhole] at htimes ⊢
  by_cases hlead : leadWords rule.selector.years rule.selector.dates = []
  · by_cases hweeks : rule.selector.weeks = []
    · have hwide : wideWords rule.selector = [] := by
        rw [wideWords, hlead, hweeks]
        rfl
      rw [hwide, List.nil_append] at htimes ⊢
      obtain ⟨part, hlt, -, hbegins⟩ := begins_small hbounds htimes
        (trail " " (modifierWords rule) ++ behind)
      exact opensOtherwise_of_begins hbegins
        (ne_of_rank_lt (Nat.lt_trans (show Part.dates.rank < Part.weeks.rank by decide) hlt))
    · have hwide : wideWords rule.selector ≠ [] :=
        List.append_ne_nil_of_right_ne_nil _ (listed_ne_nil.2 hweeks)
      rw [toList_intercalate_append _ _ hwide, toList_wideWords_weeks hlead hweeks]
      exact .inl ⟨'w', _, rfl, by decide⟩
  · have hwide : wideWords rule.selector ≠ [] := List.append_ne_nil_of_left_ne_nil hlead _
    rw [toList_intercalate_append _ _ hwide, wideWords, toList_intercalate_append _ _ hlead]
    simp only [List.append_assoc]
    exact opensOtherwise_lead hfaithful.1 hlead _

/-- If the text of a rule, with others behind it, says that a place is always open, it does so with
the form that tidying writes. -/
theorem eq_alwaysOpen {rule : Rule} (hbounds : rule.InBounds)
    (hfaithful : rule.selector.Faithful) (behind : List Char)
    (h : saysAlwaysOpen (rule.text.toList ++ behind) = true) :
    rule.text.toList ++ behind = "24/7".toList := by
  by_cases hwhole : rule.IsWhole
  · have htext : ∃ tail, rule.text.toList ++ behind = "24/7".toList ++ tail := by
      rw [Rule.text_eq, timesWords, if_pos hwhole, List.singleton_append, toList_intercalate_cons,
        List.append_assoc]
      exact ⟨_, rfl⟩
    obtain ⟨tail, htext⟩ := htext
    rw [htext] at h ⊢
    have hunits : ∀ word ∈ openUnits, word ≠ "/7" →
        word.toList.head?.all (fun letter => !foldsTo letter '/') = true := by decide
    obtain ⟨blank, unit, hblank, hunit, heq⟩ := saysAlwaysOpen_iff.1 h
    have hbehind : '/' :: '7' :: tail = blank ++ unit := (List.cons.inj (List.cons.inj heq).2).2
    obtain rfl : blank = [] := hblank.resolve_right fun hspace => by
      rw [hspace] at hbehind
      exact absurd (List.cons.inj hbehind).1 (by decide)
    rw [List.nil_append] at hbehind
    subst hbehind
    obtain ⟨word, hword, hfits⟩ := hunit.resolve_left (List.cons_ne_nil _ _)
    have hseven : word = "/7" := by
      refine Classical.byContradiction fun hne => ?_
      obtain ⟨letter, letters, hletters, hfolds⟩ := exists_letter_of_fits hfits
      have hno := hunits word hword hne
      rw [hletters, List.head?_cons, Option.all_some, hfolds] at hno
      cases hno
    subst hseven
    have hnil : tail = [] := List.length_eq_zero_iff.1 (by
      have hlength := hfits.length_eq
      simpa using hlength)
    rw [hnil, List.append_nil]
  · rw [(opensOtherwise_rule hbounds hfaithful hwhole behind).saysAlwaysOpen_eq] at h
    cases h

/-! ### Texts -/

theorem append_intercalate_cons (front separator first : List Char) (rest : List (List Char)) :
    front ++ List.intercalate separator (first :: rest) =
      List.intercalate separator ((front ++ first) :: rest) := by
  cases rest with
  | nil => rw [List.intercalate_singleton, List.intercalate_singleton]
  | cons second rest =>
    rw [List.intercalate_cons_cons, List.intercalate_cons_cons]
    simp

/-- Tidying leaves the texts of the rules as they are, and each of them comes back. -/
def Surviving (rules : List Rule) : Prop :=
  ∀ rule ∈ rules, rule.InBounds ∧ rule.SurvivesTidying ∧ rule.selector.Faithful

/-- The text of rules is cut at the semicolons: a run is a rule with the ones that add to it. What
stands behind the first rule of a run is tidied with it. -/
theorem exists_runs {first : Rule} {rest : List Rule} (h : Surviving (first :: rest)) :
    ∃ behind behind' runs runs',
      first.text.toList ++ rulesBehind rest =
        List.intercalate [';', ' '] ((first.text.toList ++ behind) :: runs) ∧
      first.text.toList ++ rulesBehindWith "," rest =
        List.intercalate [';', ' '] ((first.text.toList ++ behind') :: runs') ∧
      Neatens (first.text.toList ++ behind) (first.text.toList ++ behind') ∧
      List.Forall₂ BecomesTidy runs runs' := by
  induction rest generalizing first with
  | nil =>
    obtain ⟨hbounds, hsurvives, -⟩ := h first List.mem_cons_self
    exact ⟨[], [], [], [], (List.intercalate_singleton ..).symm,
      (List.intercalate_singleton ..).symm,
      neatens_rule hbounds hsurvives fun front hfront =>
        neatens_plain (by simpa using hfront), .nil⟩
  | cons next rest ih =>
    obtain ⟨⟨hbounds, hsurvives, -⟩, hrest⟩ := List.forall_mem_cons.1 h
    obtain ⟨hbounds', hsurvives', hfaithful⟩ := hrest next List.mem_cons_self
    obtain ⟨behind, behind', runs, runs', hloose, htight, hneatens, hruns⟩ := ih hrest
    obtain ⟨hopens, hne⟩ := opens_rule hbounds' hsurvives' behind
    rw [rulesBehind_cons, rulesBehindWith_cons, Rule.lead, Rule.leadWith, hloose, htight]
    cases next.additional with
    | true =>
      refine ⟨", ".toList ++ (next.text.toList ++ behind), ",".toList ++
        (next.text.toList ++ behind'), runs, runs', ?_, ?_, ?_, hruns⟩
      · rw [if_pos rfl, append_intercalate_cons, append_intercalate_cons]
      · rw [if_pos rfl, append_intercalate_cons, append_intercalate_cons]
      · exact neatens_rule hbounds hsurvives fun front hfront =>
          hneatens.comma hne hopens (opens_rule hbounds' hsurvives' behind').1 hfront
    | false =>
      have hbecomes : BecomesTidy (next.text.toList ++ behind) (next.text.toList ++ behind') :=
        hneatens.becomesTidy hne hopens (eq_alwaysOpen hbounds' hfaithful behind)
      refine ⟨[], [], _, _, ?_, ?_, ?_, .cons hbecomes hruns⟩
      · rw [if_neg Bool.noConfusion, List.append_nil, List.intercalate_cons_cons, List.append_assoc]
        rfl
      · rw [if_neg Bool.noConfusion, List.append_nil, List.intercalate_cons_cons, List.append_assoc]
        rfl
      · exact neatens_rule hbounds hsurvives fun front hfront =>
          neatens_plain (by simpa using hfront)

/-- Of the text of rules, tidying drops the spaces behind the commas between them. -/
theorem tidyChars_rulesBehind {first : Rule} {rest : List Rule} (h : Surviving (first :: rest)) :
    tidyChars (first.text.toList ++ rulesBehind rest) =
      first.text.toList ++ rulesBehindWith "," rest := by
  obtain ⟨hbounds, hsurvives, hfaithful⟩ := h first List.mem_cons_self
  obtain ⟨behind, behind', runs, runs', hloose, htight, hneatens, hruns⟩ := exists_runs h
  obtain ⟨hopens, hne⟩ := opens_rule hbounds hsurvives behind
  rw [hloose, htight]
  exact tidyChars_intercalate
    (.cons (hneatens.becomesTidy hne hopens (eq_alwaysOpen hbounds hfaithful behind)) hruns)

end Tidy

namespace Expression

/-- Of the canonical text, tidying drops the spaces behind the commas between rules. -/
theorem tidy_rulesText {rules : List Rule} (h : Tidy.Surviving rules) :
    Tidy.tidy (rulesText rules) = rulesTextWith "," rules := by
  cases rules with
  | nil => rfl
  | cons first rest =>
    rw [← String.toList_inj, Tidy.tidy, String.toList_ofList, toList_rulesText,
      toList_rulesTextWith, Tidy.tidyChars_rulesBehind h]

/-- Rules that come back from their canonical text, and that survive tidying, come back from the
canonical text once it was tidied, though it has no spaces behind the commas between them then. -/
theorem readTidied_text {text : String} {expression : Expression} (h : read text = .ok expression)
    (hsame : expression.reread = .same)
    (hsurvives : ∀ rule ∈ expression.rules, rule.SurvivesTidying) :
    ∃ tidied, readTidied expression.text = .ok tidied ∧ tidied.rules = expression.rules ∧
      tidied.source = rulesTextWith "," expression.rules := by
  have hbounds := inBounds_of_read h
  obtain ⟨again, hagain, hrules⟩ := reread_eq_same.1 hsame
  have hreads : readRules expression.text.toList = .ok expression.rules :=
    hrules ▸ (read_eq_ok.1 hagain).1
  have hfaithful : RulesFaithful expression.rules := (readRules_rulesText hbounds).1 hreads
  have htidy : Tidy.tidy expression.text = rulesTextWith "," expression.rules :=
    tidy_rulesText fun rule hmem =>
      ⟨hbounds.1 rule hmem, hsurvives rule hmem, hfaithful.selector rule hmem⟩
  have htight : readRules (Tidy.tidy expression.text).toList = .ok expression.rules := by
    obtain ⟨first, rest, heq, -⟩ := hbounds.2
    rw [htidy, heq, toList_rulesTextWith]
    rw [heq] at hbounds hfaithful
    exact readRules_rulesBehindWith (.inl rfl) hbounds hfaithful
  refine ⟨⟨expression.text, Tidy.tidy expression.text, expression.rules⟩,
    bind_eq_ok.2 ⟨_, htight, ?_⟩, rfl, htidy⟩
  -- A lone comment is a matter of the rules.
  have hlone : (⟨expression.text, Tidy.tidy expression.text, expression.rules⟩ :
      Expression).loneComment? = none := (read_eq_ok.1 h).2.1
  dsimp only
  rw [hlone]
  rfl

/-- A rule, one that adds to it and has a comment, and one that overrides both. -/
def mondays : Expression where
  given := "Mo 8:15-12:45 off , Tu \"by day\" ; 24/7"
  source := "Mo 8:15-12:45 off , Tu \"by day\" ; 24/7"
  rules := [
    { selector := { weekdays := [.days .monday .monday] }
      spans := [.ofClock ⟨495, by decide⟩ ⟨765, by decide⟩]
      kind := .closed },
    { selector := { weekdays := [.days .tuesday .tuesday] }
      kind := .unknown
      comment := some "by day"
      additional := true },
    { spans := [.wholeDay]
      kind := .opened }]

theorem readTidied_text_mondays :
    ∃ tidied, readTidied "Mo 08:15-12:45 off, Tu \"by day\"; 24/7" = .ok tidied ∧
      tidied.rules = mondays.rules ∧
      tidied.source = "Mo 08:15-12:45 off,Tu \"by day\"; 24/7" := by
  have hread : read "Mo 8:15-12:45 off , Tu \"by day\" ; 24/7" = .ok mondays := by rfl
  have hsame : mondays.reread = .same := by rfl
  have htext : mondays.text = "Mo 08:15-12:45 off, Tu \"by day\"; 24/7" := by rfl
  have htight : rulesTextWith "," mondays.rules = "Mo 08:15-12:45 off,Tu \"by day\"; 24/7" := by rfl
  obtain ⟨tidied, htidied, hrules, hsource⟩ := readTidied_text hread hsame (by decide)
  exact ⟨tidied, htext ▸ htidied, hrules, hsource.trans htight⟩

end Expression

end Timetable
