import Timetable.Proofs.Reading.Days
import Timetable.Proofs.Reading.Spans

/-!
Which rules are read as they are written.

A rule is written as words with blanks between them: conditions, days, spans, a word for the kind
and a comment. Each of these is read up to the next one (`reads_rule`). There are two ways to fail.
If the selector is not faithful, another one is read (`yields_rule_selector`); and if nothing stands
behind the spans of a rule, they go on with those that an additional rule begins with
(`fits_rule_more`).
-/

namespace Timetable

/-! ### The words of a rule -/

/-- The whole day without a condition, which has a form of its own. -/
def Rule.IsWhole (rule : Rule) : Prop := rule.selector.isEmpty = true ∧ rule.spans = [.wholeDay]

instance (rule : Rule) : Decidable rule.IsWhole := inferInstanceAs (Decidable (_ ∧ _))

/-- Nothing stands behind the spans of a rule. -/
def Rule.EndsWithSpans (rule : Rule) : Prop :=
  rule.kind = .opened ∧ rule.comment = none ∧ ¬ rule.IsWhole

instance (rule : Rule) : Decidable rule.EndsWithSpans := inferInstanceAs (Decidable (_ ∧ _ ∧ _))

/-- The rule adds to the one before it, and begins with spans. -/
def Rule.AddsSpans (rule : Rule) : Prop :=
  rule.additional = true ∧ rule.selector.isEmpty = true ∧ rule.spans ≠ [] ∧ ¬ rule.IsWhole

instance (rule : Rule) : Decidable rule.AddsSpans :=
  inferInstanceAs (Decidable (_ ∧ _ ∧ _ ∧ _))

/-- The spans of a rule. -/
def spansWords (rule : Rule) : List String := listed "" (rule.spans.map TimeSpan.text)

/-- The word for the kind and the comment. -/
def modifierWords (rule : Rule) : List String := rule.kindWords ++ rule.commentWords

/-- When a rule applies. -/
def timesWords (rule : Rule) : List String :=
  if rule.IsWhole then ["24/7"]
  else Grammar.wideWords rule.selector ++ (Grammar.daysWords rule.selector ++ spansWords rule)

theorem Selector.groups_eq_append (selector : Selector) :
    selector.groups = Grammar.wideWords selector ++ Grammar.daysWords selector := by
  rw [Selector.groups_eq, Grammar.wideWords, Grammar.leadWords, Grammar.daysWords]
  simp only [List.append_assoc]

theorem Selector.isEmpty_iff {selector : Selector} : selector.isEmpty = true ↔ selector = {} := by
  obtain ⟨years, dates, weeks, weekdays, holidays⟩ := selector
  simp [Selector.isEmpty, and_assoc]

theorem Selector.groups_eq_nil {selector : Selector} : selector.groups = [] ↔ selector = {} := by
  obtain ⟨years, dates, weeks, weekdays, holidays⟩ := selector
  simp only [Selector.groups_eq, List.append_eq_nil_iff, listed_eq_nil, Selector.mk.injEq]
  constructor
  · rintro ⟨⟨⟨⟨hyears, hdates⟩, hweeks⟩, hholidays⟩, hweekdays⟩
    exact ⟨hyears, hdates, hweeks, hweekdays, hholidays⟩
  · rintro ⟨hyears, hdates, hweeks, hweekdays, hholidays⟩
    exact ⟨⟨⟨⟨hyears, hdates⟩, hweeks⟩, hholidays⟩, hweekdays⟩

theorem intercalate_flatten {words : List String} (others : List String) (h : words ≠ []) :
    String.intercalate " " (String.intercalate " " words :: others) =
      String.intercalate " " (words ++ others) := by
  rw [← String.toList_inj, toList_intercalate_cons, toList_intercalate_append _ _ h]

theorem spansWords_eq (rule : Rule) : spansWords rule =
    if rule.spans.isEmpty then [] else [String.intercalate "," (rule.spans.map TimeSpan.text)] := by
  unfold spansWords listed
  rw [List.isEmpty_map, String.empty_append]

/-- The text of a rule is that of its words. -/
theorem Rule.text_eq (rule : Rule) :
    rule.text = String.intercalate " " (timesWords rule ++ modifierWords rule) := by
  unfold Rule.text Rule.bodyWords timesWords modifierWords
  rw [← spansWords_eq, List.append_assoc]
  by_cases hwhole : rule.IsWhole
  · rw [if_pos hwhole, if_pos (by simpa [IsWhole] using hwhole)]
  · rw [if_neg hwhole, if_neg (by simpa [IsWhole] using hwhole)]
    by_cases hempty : rule.selector.isEmpty = true
    · have hgroups := Selector.groups_eq_nil.2 (Selector.isEmpty_iff.1 hempty)
      rw [Selector.groups_eq_append, List.append_eq_nil_iff] at hgroups
      rw [if_pos hempty, hgroups.1, hgroups.2]
      rfl
    · have hgroups : rule.selector.groups ≠ [] := fun h =>
        hempty (Selector.isEmpty_iff.2 (Selector.groups_eq_nil.1 h))
      rw [if_neg hempty, Selector.text, List.append_assoc, List.singleton_append,
        intercalate_flatten _ hgroups, Selector.groups_eq_append, List.append_assoc]
      simp only [List.append_assoc]

namespace Grammar

open Peg

variable {rest source : List Char}

/-! ### Days and spans -/

theorem begins_spans {times : List TimeSpan} (hne : times ≠ []) (rest : List Char) :
    Begins .spans ((String.intercalate "," (times.map TimeSpan.text)).toList ++ rest) := by
  obtain ⟨span, others, rfl⟩ := List.exists_cons_of_ne_nil hne
  rw [List.map_cons, toList_intercalate_cons, List.append_assoc]
  exact begins_span span _

/-- Days and spans, as they are written. -/
def smallWords (rule : Rule) : List String := daysWords rule.selector ++ spansWords rule

theorem toList_spansWords {rule : Rule} (hne : rule.spans ≠ []) :
    (String.intercalate " " (spansWords rule)).toList =
      (String.intercalate "," (rule.spans.map TimeSpan.text)).toList := by
  rw [spansWords, listed, if_neg (by simpa using hne)]
  simp

theorem timesWords_eq {rule : Rule} (hwhole : ¬ rule.IsWhole) :
    timesWords rule = wideWords rule.selector ++ smallWords rule :=
  if_neg hwhole

theorem begins_small {rule : Rule} (hbounds : rule.InBounds) (hne : smallWords rule ≠ [])
    (rest : List Char) : ∃ part, Part.weeks.rank < part.rank ∧ part.rank < Part.kind.rank ∧
      Begins part ((String.intercalate " " (smallWords rule)).toList ++ rest) := by
  unfold smallWords at hne ⊢
  by_cases hdays : daysWords rule.selector = []
  · rw [hdays, List.nil_append] at hne ⊢
    have hspans := listed_ne_nil.1 hne
    rw [toList_spansWords hspans]
    exact ⟨.spans, by decide, by decide, begins_spans hspans rest⟩
  · rw [toList_intercalate_append _ _ hdays, List.append_assoc]
    obtain ⟨part, rfl | rfl, hbegins⟩ := begins_days hbounds.selector.days hdays
      (trail " " (spansWords rule) ++ rest)
    · exact ⟨_, by decide, by decide, hbegins⟩
    · exact ⟨_, by decide, by decide, hbegins⟩

/-- What may come behind the spans of a rule, or behind its days if it has no spans. -/
def EndsSmall (rule : Rule) (rest : List Char) : Prop :=
  (rule.spans ≠ [] → EndsSpans rest) ∧ (rule.spans = [] → After .spans rest)

theorem after_days_spans {rule : Rule} (hrest : EndsSmall rule rest) :
    After .weekdays (trail " " (spansWords rule) ++ rest) := by
  by_cases hspans : rule.spans = []
  · rw [spansWords, hspans]
    exact (hrest.2 hspans).mono (by decide)
  · rw [spansWords, trail_listed _ _ hspans]
    exact After.of_begins (begins_spans hspans rest) (by decide)

/-- What `small` means. -/
def SmallForm.Means (form : SmallForm) (rule : Rule) : Prop :=
  form.days.elim (.ok ([], [])) DaysForm.interpret =
      .ok (rule.selector.weekdays, rule.selector.holidays) ∧
    form.spans.mapM SpanForm.interpret = .ok rule.spans

theorem reads_spansBehind {rule : Rule} (hbounds : rule.InBounds) (hrest : EndsSmall rule rest) :
    (optional (someSpace.andThen spans)).Reads (trail " " (spansWords rule) ++ rest) rest
      fun forms => (forms.getD []).mapM SpanForm.interpret = .ok rule.spans := by
  by_cases hspans : rule.spans = []
  · rw [spansWords, hspans]
    exact reads_optional_none ((hrest.2 hspans).refuses_blank fun _ _ hbegins hlt =>
      Refuses.named (refuses_separatedBy (hbegins.refuses_span (ne_of_rank_lt hlt)))) rfl
  · rw [spansWords, trail_listed _ _ hspans]
    refine Ends.mono (Ends.optional (Ends.andThen
      (reads_someSpace (begins_spans hspans rest).refuses_space)
      (reads_spans hspans hbounds.spans (hrest.1 hspans)))) ?_
    rintro _ ⟨forms, rfl, h⟩
    exact h

theorem daysWords_eq_nil {selector : Selector} :
    daysWords selector = [] ↔ selector.holidays = [] ∧ selector.weekdays = [] := by
  rw [daysWords, List.append_eq_nil_iff, listed_eq_nil, listed_eq_nil]

theorem reads_small {rule : Rule} (hbounds : rule.InBounds) (hne : smallWords rule ≠ [])
    (hrest : EndsSmall rule rest) :
    small.Reads ((String.intercalate " " (smallWords rule)).toList ++ rest) rest
      fun form => form.Means rule := by
  unfold smallWords at hne ⊢
  by_cases hdays : daysWords rule.selector = []
  · rw [hdays, List.nil_append] at hne ⊢
    have hspans := listed_ne_nil.1 hne
    obtain ⟨hholidays, hweekdays⟩ := daysWords_eq_nil.1 hdays
    rw [toList_spansWords hspans]
    apply Ends.named
    refine Ends.choice_right (Refuses.map (Refuses.seq_left
      ((begins_spans hspans rest).refuses_days (by decide))))
      (Ends.map (reads_spans hspans hbounds.spans (hrest.1 hspans)) ?_)
    intro forms hforms
    exact ⟨by rw [hholidays, hweekdays]; rfl, hforms⟩
  · rw [toList_intercalate_append _ _ hdays, List.append_assoc]
    exact Ends.named (Ends.choice_left (Ends.map (Ends.seq
      (reads_days hbounds.selector.days hdays (after_days_spans hrest))
      (reads_spansBehind hbounds hrest)) fun _ h => h))

/-! ### Kind and comment -/

/-- A rule is over: the text is, or a separator comes. -/
def EndsRule (rest : List Char) : Prop :=
  rest = [] ∨ ∃ c source, rest = c :: source ∧ (c = ';' ∨ c = ',')

theorem EndsRule.refuses_space (h : EndsRule rest) : space.Refuses rest := by
  rcases h with rfl | ⟨c, source, rfl, rfl | rfl⟩ <;> exact fun _ => rfl

/-- What `modifier` means. -/
def ModifierForm.Means (form : ModifierForm) (rule : Rule) : Prop :=
  form.comment.map String.ofList = rule.comment ∧
    form.kind = if rule.kindWords = [] then none else some rule.kind

theorem reads_comment {text : String} (hquote : ∀ c ∈ text.toList, (c != '"') = true)
    (rest : List Char) :
    comment.Reads (("\"" ++ text ++ "\"").toList ++ rest) rest (· = text.toList) := by
  rw [String.toList_append, String.toList_append, List.append_assoc, List.append_assoc]
  change comment.Reads ('"' :: (text.toList ++ '"' :: rest)) rest _
  apply Ends.named
  refine Ends.andThen (reads_token_cons '"' _) (Ends.followedBy (Ends.named
    (reads_chars hquote (Nat.zero_le _) nofun (.inl ?_) rfl)) (reads_token_cons '"' rest))
  rintro _ ⟨⟩
  rfl

theorem begins_comment (text : String) (rest : List Char) :
    Begins .comment (("\"" ++ text ++ "\"").toList ++ rest) := by
  rw [String.toList_append, String.toList_append, List.append_assoc, List.append_assoc]
  exact .quote _

theorem commentWords_of_some {rule : Rule} {text : String} (h : rule.comment = some text) :
    rule.commentWords = ["\"" ++ text ++ "\""] := by
  rw [Rule.commentWords, h]

theorem commentWords_of_none {rule : Rule} (h : rule.comment = none) : rule.commentWords = [] := by
  rw [Rule.commentWords, h]

/-- A word for the kind stands first. -/
theorem reads_kind {rule : Rule} (hne : rule.kindWords ≠ []) (rest : List Char) :
    ∃ word, rule.kindWords = [word] ∧ kind.Reads (word.toList ++ rest) rest (· = rule.kind) ∧
      Begins .kind (word.toList ++ rest) := by
  unfold Rule.kindWords at hne ⊢
  cases hkind : rule.kind with
  | opened => exact absurd (by rw [hkind]) hne
  | closed => exact ⟨"off", rfl, fun _ => ⟨_, _, rfl, rfl, rfl⟩, .off rest⟩
  | unknown =>
    rw [hkind] at hne
    dsimp only at hne ⊢
    split at hne
    · rename_i hwritten
      rw [if_pos hwritten]
      exact ⟨"unknown", rfl, fun _ => ⟨_, _, rfl, rfl, rfl⟩, .unknown rest⟩
    · exact absurd rfl hne

theorem reads_modifier {rule : Rule} (hbounds : rule.InBounds) (hne : modifierWords rule ≠ [])
    (hrest : EndsRule rest) :
    modifier.Reads ((String.intercalate " " (modifierWords rule)).toList ++ rest) rest
      fun form => form.Means rule := by
  unfold modifierWords at hne ⊢
  by_cases hkind : rule.kindWords = []
  · rw [hkind, List.nil_append] at hne ⊢
    cases hcomment : rule.comment with
    | none => exact absurd (commentWords_of_none hcomment) hne
    | some text =>
      rw [commentWords_of_some hcomment, String.intercalate_singleton]
      apply Ends.named
      refine Ends.choice_right (Refuses.map (Refuses.seq_left
        ((begins_comment text rest).refused (show Part.kind ≠ .comment by decide))))
        (Ends.map (reads_comment (hbounds.comment text hcomment) rest) ?_)
      rintro _ rfl
      exact ⟨by rw [hcomment]; simp, by rw [if_pos hkind]⟩
  · rw [toList_intercalate_append _ _ hkind, List.append_assoc]
    obtain ⟨word, hword, hread, -⟩ := reads_kind hkind (trail " " rule.commentWords ++ rest)
    rw [hword, String.intercalate_singleton]
    have hmeans : ∀ form : ModifierForm, form.kind = some rule.kind →
        form.comment.map String.ofList = rule.comment → form.Means rule := fun form h h' =>
      ⟨h', by rw [h, if_neg hkind]⟩
    cases hcomment : rule.comment with
    | none =>
      rw [commentWords_of_none hcomment] at hread ⊢
      apply Ends.named
      refine Ends.choice_left (Ends.map (Ends.seq hread (reads_optional_none
        (refuses_someSpace hrest.refuses_space).andThen rfl)) ?_)
      rintro ⟨_, _⟩ ⟨rfl, rfl⟩
      exact hmeans _ rfl hcomment.symm
    | some text =>
      rw [commentWords_of_some hcomment] at hread ⊢
      rw [trail_eq _ (List.cons_ne_nil _ _), String.intercalate_singleton, List.append_assoc]
        at hread ⊢
      apply Ends.named
      refine Ends.choice_left (Ends.map (Ends.seq hread (Ends.optional
        (Ends.andThen (reads_someSpace (begins_comment text rest).refuses_space)
          (reads_comment (hbounds.comment text hcomment) rest)))) ?_)
      rintro ⟨_, _⟩ ⟨rfl, _, rfl, rfl⟩
      exact hmeans _ rfl (by rw [hcomment]; simp)

theorem begins_modifier {rule : Rule} (hne : modifierWords rule ≠ []) (rest : List Char) :
    ∃ part, Part.spans.rank < part.rank ∧
      Begins part ((String.intercalate " " (modifierWords rule)).toList ++ rest) := by
  unfold modifierWords at hne ⊢
  by_cases hkind : rule.kindWords = []
  · rw [hkind, List.nil_append] at hne ⊢
    cases hcomment : rule.comment with
    | none => exact absurd (commentWords_of_none hcomment) hne
    | some text =>
      rw [commentWords_of_some hcomment, String.intercalate_singleton]
      exact ⟨.comment, by decide, begins_comment text rest⟩
  · rw [toList_intercalate_append _ _ hkind, List.append_assoc]
    obtain ⟨word, hword, -, hbegins⟩ := reads_kind hkind (trail " " rule.commentWords ++ rest)
    rw [hword, String.intercalate_singleton]
    exact ⟨.kind, by decide, hbegins⟩

/-- A rule says nothing beside its times only if it opens. -/
theorem modifierWords_eq_nil {rule : Rule} :
    modifierWords rule = [] ↔ rule.kind = .opened ∧ rule.comment = none := by
  unfold modifierWords Rule.kindWords Rule.commentWords
  cases rule.kind <;> cases rule.comment <;> simp

theorem endsSpans_blank {part : Part} (h : Begins part source) : EndsSpans (' ' :: source) :=
  ⟨Refuses.named (refuses_token_cons (by decide)),
    Refuses.andThen (refuses_spaced_space h.refuses_space (h.refuses_mark rfl []))⟩

/-- What comes behind the spans of a rule. -/
theorem endsSmall_modifier {rule : Rule} (hbounds : rule.InBounds)
    (hrest : modifierWords rule = [] → EndsSpans rest) :
    EndsSmall rule (trail " " (modifierWords rule) ++ rest) := by
  by_cases hne : modifierWords rule = []
  · have hspans := hbounds.spans_ne_nil (modifierWords_eq_nil.1 hne).1
    rw [hne]
    exact ⟨fun _ => hrest hne, fun hnil => absurd hnil hspans⟩
  · obtain ⟨part, hlt, hbegins⟩ := begins_modifier hne rest
    rw [trail_eq _ hne, List.append_assoc]
    exact ⟨fun _ => endsSpans_blank hbegins, fun _ => After.of_begins hbegins hlt⟩

/-! ### Times -/

/-- Where other times fit, the word for all day, every day does not. -/
theorem refuses_always {α : Type} {peg : Peg α} {accepts : α → Prop}
    (hpeg : ∀ rest, peg.Refuses ("24/7".toList ++ rest)) (h : peg.Fits source accepts) :
    (named (word "24/7" TimesForm.always)).Refuses source := by
  apply Refuses.named
  refine refuses_word ?_
  rintro ⟨rest, rfl⟩
  obtain ⟨value, next, hresult, -⟩ := h 0
  rw [hpeg rest 0] at hresult
  cases hresult

theorem reads_conditionSeparator {part : Part} (h : Begins part source) :
    conditionSeparator.Reads (' ' :: source) source fun _ => True :=
  Ends.choice_right (refuses_spaced_space h.refuses_space (h.refuses_mark rfl []))
    (reads_someSpace h.refuses_space)

/-- Days and spans behind the conditions, if there are any. -/
theorem reads_smallBehind {rule : Rule} (hbounds : rule.InBounds) (hrest : EndsSmall rule rest) :
    (optional (conditionSeparator.andThen small)).Reads
      (trail " " (smallWords rule) ++ rest) rest fun form =>
        (form.bind SmallForm.days).elim (.ok ([], [])) DaysForm.interpret =
            .ok (rule.selector.weekdays, rule.selector.holidays) ∧
          (form.elim [] SmallForm.spans).mapM SpanForm.interpret = .ok rule.spans := by
  by_cases hne : smallWords rule = []
  · obtain ⟨hdays, hspans⟩ := List.append_eq_nil_iff.1 hne
    obtain ⟨hholidays, hweekdays⟩ := daysWords_eq_nil.1 hdays
    have hnil := listed_eq_nil.1 hspans
    obtain ⟨other, source, rfl, hbegins, hlt⟩ := hrest.2 hnil
    rw [hne]
    exact reads_optional_none
      (Refuses.andThen_right (reads_conditionSeparator hbegins) (hbegins.refuses_small hlt))
      ⟨by rw [hholidays, hweekdays]; rfl, by rw [hnil]; rfl⟩
  · obtain ⟨part, -, -, hbegins⟩ := begins_small hbounds hne rest
    rw [trail_eq _ hne, List.append_assoc]
    refine Ends.mono (Ends.optional (Ends.andThen (reads_conditionSeparator hbegins)
      (reads_small hbounds hne hrest))) ?_
    rintro _ ⟨form, rfl, h⟩
    exact h

theorem after_small {rule : Rule} (hbounds : rule.InBounds) (hrest : EndsSmall rule rest) :
    After .weeks (trail " " (smallWords rule) ++ rest) := by
  by_cases hne : smallWords rule = []
  · have hnil := listed_eq_nil.1 (List.append_eq_nil_iff.1 hne).2
    rw [hne]
    exact (hrest.2 hnil).mono (by decide)
  · obtain ⟨part, hlt, -, hbegins⟩ := begins_small hbounds hne rest
    rw [trail_eq _ hne, List.append_assoc]
    exact After.of_begins hbegins hlt

theorem wideWords_eq_nil {selector : Selector} (h : wideWords selector = []) :
    { selector with weekdays := [], holidays := [] } = ({} : Selector) := by
  obtain ⟨hlead, hweeks⟩ := List.append_eq_nil_iff.1 h
  obtain ⟨hyears, hdates⟩ := nil_of_leadWords hlead
  rw [hyears, hdates, listed_eq_nil.1 hweeks]

theorem reads_times {rule : Rule} (hfaithful : rule.selector.Faithful) (hbounds : rule.InBounds)
    (hne : timesWords rule ≠ []) (hrest : ¬ rule.IsWhole → EndsSmall rule rest) :
    times.Reads ((String.intercalate " " (timesWords rule)).toList ++ rest) rest
      fun form => form.interpret = .ok (rule.selector, rule.spans) := by
  by_cases hwhole : rule.IsWhole
  · rw [timesWords, if_pos hwhole, String.intercalate_singleton]
    apply Ends.named
    refine Ends.choice_left (Ends.named (Ends.mono (reads_word "24/7" _ rest) ?_))
    rintro _ rfl
    rw [Selector.isEmpty_iff.1 hwhole.1, hwhole.2]
    rfl
  · have hrest := hrest hwhole
    rw [timesWords_eq hwhole] at hne ⊢
    by_cases hwide : wideWords rule.selector = []
    · rw [hwide, List.nil_append] at hne ⊢
      have hsmall := reads_small hbounds hne hrest
      have halways := refuses_always (fun _ _ => rfl) hsmall.fits
      obtain ⟨part, hlt, -, hbegins⟩ := begins_small hbounds hne rest
      apply Ends.named
      refine Ends.choice_right halways (Ends.choice_right
        (hbegins.refuses_wide hlt).seq_left.map (Ends.choice_left (Ends.map hsmall ?_)))
      intro form h
      exact TimesForm.interpret_times_eq_ok.2
        ⟨congrArg Except.ok (wideWords_eq_nil hwide).symm, h.1, h.2⟩
    · have hafter := after_small hbounds hrest
      have hread := reads_wide hwide hfaithful hbounds.selector hafter
      rw [toList_intercalate_append _ _ hwide, List.append_assoc]
      apply Ends.named
      refine Ends.choice_right (refuses_always (fun _ _ => rfl) hread.fits)
        (Ends.choice_left (Ends.map (Ends.seq hread (reads_smallBehind hbounds hrest)) ?_))
      intro parts h
      exact TimesForm.interpret_times_eq_ok.2 h

/-! ### Rules -/

/-- What an optional modifier means. -/
def MeansModifier (rule : Rule) (modifier : Option ModifierForm) : Prop :=
  (modifierWords rule = [] ∧ modifier = none) ∨ ∃ form, modifier = some form ∧ form.Means rule

/-- No word for the kind is written of an open rule, nor where a comment stands for it. -/
theorem kindWords_eq_nil {rule : Rule} : rule.kindWords = [] ↔ rule.kind = .opened ∨
    rule.kind = .unknown ∧ rule.comment.isSome = true ∧ rule.spans = [] := by
  unfold Rule.kindWords
  cases rule.kind <;> cases rule.comment <;> cases rule.spans <;> simp

section Assemble

variable {rule : Rule} {times : Option TimesForm} {modifier : Option ModifierForm}

theorem comment?_eq (hmodifier : MeansModifier rule modifier) :
    (RuleForm.mk times modifier).comment? = rule.comment := by
  rcases hmodifier with ⟨hnil, rfl⟩ | ⟨form, rfl, hform⟩
  · exact (modifierWords_eq_nil.1 hnil).2.symm
  · exact hform.1

/-- The kind comes back, also where no word for it is written. -/
theorem kindOver_eq (hbounds : rule.InBounds) (hmodifier : MeansModifier rule modifier) :
    (RuleForm.mk times modifier).kindOver rule.spans = rule.kind := by
  unfold RuleForm.kindOver
  rw [comment?_eq hmodifier]
  rcases hmodifier with ⟨hnil, rfl⟩ | ⟨form, rfl, -, hform⟩
  · obtain ⟨hopened, hnone⟩ := modifierWords_eq_nil.1 hnil
    rw [hopened, hnone]
    rfl
  · dsimp only [Option.bind_some]
    rw [hform]
    by_cases hwords : rule.kindWords = []
    · rw [if_pos hwords]
      rcases kindWords_eq_nil.1 hwords with hopened | ⟨hunknown, hsome, hnil⟩
      · have hspans := hbounds.spans_ne_nil hopened
        rw [hopened]
        exact if_neg (by simp [hspans])
      · rw [hunknown, hsome, hnil]
        rfl
    · rw [if_neg hwords]

theorem assemble_eq (hbounds : rule.InBounds) (hmodifier : MeansModifier rule modifier) :
    (RuleForm.mk times modifier).assemble rule.additional (rule.selector, rule.spans) = rule := by
  have hspans : (if rule.kind = .opened && rule.spans.isEmpty then [.wholeDay] else rule.spans) =
      rule.spans := by
    by_cases hopened : rule.kind = .opened
    · rw [if_neg (by simpa [hopened] using hbounds.spans_ne_nil hopened)]
    · rw [if_neg (by simp [hopened])]
  unfold RuleForm.assemble
  dsimp only
  rw [comment?_eq hmodifier, kindOver_eq hbounds hmodifier, hspans]

end Assemble

theorem reads_modifierBehind {rule : Rule} (hbounds : rule.InBounds) (hrest : EndsRule rest) :
    (optional (someSpace.andThen modifier)).Reads (trail " " (modifierWords rule) ++ rest) rest
      (MeansModifier rule) := by
  by_cases hne : modifierWords rule = []
  · rw [hne]
    exact reads_optional_none (refuses_someSpace hrest.refuses_space).andThen (.inl ⟨hne, rfl⟩)
  · obtain ⟨part, -, hbegins⟩ := begins_modifier hne rest
    rw [trail_eq _ hne, List.append_assoc]
    exact Ends.mono (Ends.optional (Ends.andThen (reads_someSpace hbegins.refuses_space)
      (reads_modifier hbounds hne hrest))) fun _ h => .inr h

/-- A rule without times is a modifier alone. -/
theorem timesWords_eq_nil {rule : Rule} (h : timesWords rule = []) :
    rule.selector = {} ∧ rule.spans = [] := by
  have hwhole : ¬ rule.IsWhole := by
    intro hwhole
    rw [timesWords, if_pos hwhole] at h
    cases h
  rw [timesWords, if_neg hwhole, ← List.append_assoc, ← Selector.groups_eq_append,
    List.append_eq_nil_iff] at h
  exact ⟨Selector.groups_eq_nil.1 h.1, listed_eq_nil.1 h.2⟩

theorem refuses_times_modifier {part : Part} {accepts : ModifierForm → Prop}
    (h : Begins part source) (hlt : Part.spans.rank < part.rank)
    (hfits : modifier.Fits source accepts) : times.Refuses source := by
  have hwide := h.refuses_wide (Nat.lt_trans (by decide) hlt)
  have hsmall := h.refuses_small hlt
  exact Refuses.named (Refuses.choice (refuses_always (fun _ _ => rfl) hfits)
    (Refuses.choice hwide.seq_left.map (Refuses.choice hsmall.map refuses_fail)))

/-- A rule is read as it is written, if its selector is and nothing is added to its spans. -/
theorem reads_rule {rule : Rule} (hfaithful : rule.selector.Faithful) (hbounds : rule.InBounds)
    (hrest : EndsRule rest) (hopen : rule.EndsWithSpans → EndsSpans rest) :
    Grammar.rule.Reads (rule.text.toList ++ rest) rest
      fun form => form.interpret rule.additional = .ok rule := by
  rw [Rule.text_eq]
  by_cases htimes : timesWords rule = []
  · obtain ⟨hselector, hspans⟩ := timesWords_eq_nil htimes
    have hne : modifierWords rule ≠ [] := fun hnil =>
      hbounds.spans_ne_nil (modifierWords_eq_nil.1 hnil).1 hspans
    obtain ⟨part, hlt, hbegins⟩ := begins_modifier hne rest
    have hread := reads_modifier hbounds hne hrest
    rw [htimes, List.nil_append]
    apply Ends.named
    refine Ends.choice_right (refuses_times_modifier hbegins hlt
      hread.fits).seq_left.map (Ends.map hread fun form hform => ?_)
    refine RuleForm.interpret_eq_ok.2 ⟨(rule.selector, rule.spans), ?_,
      (assemble_eq hbounds (.inr ⟨form, rfl, hform⟩)).symm⟩
    rw [hselector, hspans]
    rfl
  · have hread := reads_times hfaithful hbounds htimes fun hwhole =>
      @endsSmall_modifier rest _ hbounds fun hnil => hopen
        ⟨(modifierWords_eq_nil.1 hnil).1, (modifierWords_eq_nil.1 hnil).2, hwhole⟩
    rw [toList_intercalate_append _ _ htimes, List.append_assoc]
    apply Ends.named
    refine Ends.choice_left (Ends.map (Ends.seq hread
      (reads_modifierBehind hbounds hrest)) ?_)
    rintro ⟨form, modifier⟩ ⟨hform, hmodifier⟩
    exact RuleForm.interpret_eq_ok.2 ⟨_, hform, (assemble_eq hbounds hmodifier).symm⟩

/-! ### Rules that do not come back -/

/-- Something comes behind the conditions of a rule, whatever comes behind the rule. -/
theorem after_wide {rule : Rule} (hbounds : rule.InBounds) (rest : List Char) :
    After .weeks (trail " " (smallWords rule) ++ (trail " " (modifierWords rule) ++ rest)) := by
  by_cases hne : smallWords rule = []
  · have hnil := listed_eq_nil.1 (List.append_eq_nil_iff.1 hne).2
    have hmodifier : modifierWords rule ≠ [] := fun h =>
      hbounds.spans_ne_nil (modifierWords_eq_nil.1 h).1 hnil
    obtain ⟨part, hlt, hbegins⟩ := begins_modifier hmodifier rest
    rw [hne, trail_eq _ hmodifier, List.append_assoc]
    exact After.of_begins hbegins (Nat.lt_trans (by decide) hlt)
  · obtain ⟨part, hlt, -, hbegins⟩ := begins_small hbounds hne
      (trail " " (modifierWords rule) ++ rest)
    rw [trail_eq _ hne, List.append_assoc]
    exact After.of_begins hbegins hlt

/-- Without conditions there is nothing to get wrong. -/
theorem faithful_of_wide_eq {selector : Selector}
    (h : ({} : Selector) = { selector with weekdays := [], holidays := [] }) :
    selector.Faithful := by
  have hyears : [] = selector.years := congrArg Selector.years h
  have hdates : [] = selector.dates := congrArg Selector.dates h
  have hweeks : [] = selector.weeks := congrArg Selector.weeks h
  unfold Selector.Faithful LeadFaithful
  rw [← hyears, ← hdates, ← hweeks]
  exact ⟨⟨List.forall_mem_nil _, List.forall_mem_nil _, trivial⟩, List.forall_mem_nil _⟩

/-- If a selector is not faithful, the times that are read are those of another one. -/
theorem yields_times_selector {rule : Rule} (hfaithful : ¬ rule.selector.Faithful)
    (hbounds : rule.InBounds) (rest : List Char) :
    times.Yields (rule.text.toList ++ rest)
      fun form => ∀ spans, form.interpret ≠ .ok (rule.selector, spans) := by
  have hselector : rule.selector ≠ {} := fun h => hfaithful (faithful_of_wide_eq (by rw [h]))
  have hwhole : ¬ rule.IsWhole := fun h => hselector (Selector.isEmpty_iff.1 h.1)
  have hwide : wideWords rule.selector ≠ [] := fun h =>
    hfaithful (faithful_of_wide_eq (wideWords_eq_nil h).symm)
  rw [Rule.text_eq, timesWords_eq hwhole, List.append_assoc, toList_intercalate_append _ _ hwide,
    trail_append, List.append_assoc, List.append_assoc]
  apply Yields.named
  refine Yields.choice ?_ (Yields.choice ?_ (Yields.choice ?_ refuses_fail.yields))
  · apply Yields.named
    refine Yields.map yields_true fun _ _ spans h => ?_
    exact hselector (Prod.mk.inj (Except.ok.inj h)).1.symm
  · refine Yields.map (Yields.seq_left (yields_wide hfaithful hbounds.selector
      (after_wide hbounds rest))) ?_
    intro parts hwide spans h
    exact hwide (TimesForm.interpret_times_eq_ok.1 h).1
  · refine Yields.map yields_true ?_
    intro form _ spans h
    exact hfaithful (faithful_of_wide_eq (Except.ok.inj (TimesForm.interpret_times_eq_ok.1 h).1))

/-- If the selector of a rule is not faithful, the text of the rule is not read as the rule. -/
theorem yields_rule_selector {rule : Rule} (hfaithful : ¬ rule.selector.Faithful)
    (hbounds : rule.InBounds) (rest : List Char) :
    Grammar.rule.Yields (rule.text.toList ++ rest)
      fun form => ∀ additional, form.interpret additional ≠ .ok rule := by
  have hselector : rule.selector ≠ {} := fun h => hfaithful (faithful_of_wide_eq (by rw [h]))
  have htimes := yields_times_selector hfaithful hbounds rest
  apply Yields.named
  refine Yields.choice (Yields.map htimes.seq_left ?_) (Yields.map yields_true ?_)
  · intro parts h additional hrule
    obtain ⟨⟨selector, spans⟩, hparts, heq⟩ := RuleForm.interpret_eq_ok.1 hrule
    have hsame : rule.selector = selector := congrArg Rule.selector heq
    exact h spans (hsame ▸ hparts)
  · intro modifier _ additional hrule
    obtain ⟨⟨selector, spans⟩, hparts, heq⟩ := RuleForm.interpret_eq_ok.1 hrule
    have hsame : rule.selector = selector := congrArg Rule.selector heq
    exact hselector (hsame.trans (Prod.mk.inj (Except.ok.inj hparts)).1.symm)

theorem fits_small_more {rule : Rule} {next : TimeSpan} (hbounds : rule.InBounds)
    (hspans : rule.spans ≠ []) (hnext : next.InBounds) (hrest : plus.Refuses rest) :
    small.Fits ((String.intercalate " " (smallWords rule)).toList ++
      ',' :: ' ' :: (next.text.toList ++ rest))
      fun form => rule.spans.length < form.spans.length := by
  have hmore := fits_spans_more hspans hbounds.spans hnext hrest
  have hbegins := begins_spans hspans (',' :: ' ' :: (next.text.toList ++ rest))
  unfold smallWords
  by_cases hdays : daysWords rule.selector = []
  · rw [hdays, List.nil_append, toList_spansWords hspans]
    exact Ends.named (Ends.choice_right (Refuses.map (Refuses.seq_left
      (hbegins.refuses_days (by decide)))) (Ends.map hmore fun _ h => h))
  · rw [toList_intercalate_append _ _ hdays, List.append_assoc, spansWords,
      trail_listed _ _ hspans]
    apply Ends.named
    refine Ends.choice_left (Ends.map (Ends.seq
      (reads_days hbounds.selector.days hdays (After.of_begins hbegins (by decide)))
      (Ends.optional (Ends.andThen (reads_someSpace hbegins.refuses_space) hmore))) ?_)
    rintro ⟨_, _⟩ ⟨-, forms, rfl, hlt⟩
    exact hlt

theorem fits_times_more {rule : Rule} {next : TimeSpan} (hfaithful : rule.selector.Faithful)
    (hbounds : rule.InBounds) (hwhole : ¬ rule.IsWhole) (hspans : rule.spans ≠ [])
    (hnext : next.InBounds) (hrest : plus.Refuses rest) :
    times.Fits ((String.intercalate " " (timesWords rule)).toList ++
      ',' :: ' ' :: (next.text.toList ++ rest)) fun form =>
        ∀ selector spans, form.interpret = .ok (selector, spans) →
          rule.spans.length < spans.length := by
  have hsmall := fits_small_more hbounds hspans hnext hrest
  have hne : smallWords rule ≠ [] := fun h =>
    listed_ne_nil.2 hspans (List.append_eq_nil_iff.1 h).2
  obtain ⟨part, hlt, -, hbegins⟩ := begins_small hbounds hne
    (',' :: ' ' :: (next.text.toList ++ rest))
  rw [timesWords_eq hwhole]
  by_cases hwide : wideWords rule.selector = []
  · rw [hwide, List.nil_append]
    apply Ends.named
    refine Ends.choice_right (refuses_always (fun _ _ => rfl) hsmall)
      (Ends.choice_right (hbegins.refuses_wide hlt).seq_left.map (Ends.choice_left
        (Ends.map hsmall ?_)))
    intro form hlonger selector spans h
    obtain ⟨-, -, hmeans⟩ := TimesForm.interpret_times_eq_ok.1 h
    exact length_of_mapM_eq_ok hmeans ▸ hlonger
  · have hafter : After .weeks (trail " " (smallWords rule) ++
        ',' :: ' ' :: (next.text.toList ++ rest)) := by
      rw [trail_eq _ hne, List.append_assoc]
      exact After.of_begins hbegins hlt
    have hread := reads_wide hwide hfaithful hbounds.selector hafter
    rw [toList_intercalate_append _ _ hwide, List.append_assoc]
    rw [trail_eq _ hne, List.append_assoc] at hread ⊢
    apply Ends.named
    refine Ends.choice_right (refuses_always (fun _ _ => rfl) hread.fits)
      (Ends.choice_left (Ends.map (Ends.seq hread (Ends.optional
        (Ends.andThen (reads_conditionSeparator hbegins) hsmall))) ?_))
    rintro ⟨_, _⟩ ⟨-, form, rfl, hlonger⟩ selector spans h
    obtain ⟨-, -, hmeans⟩ := TimesForm.interpret_times_eq_ok.1 h
    exact length_of_mapM_eq_ok hmeans ▸ hlonger

/-- A rule that begins with spans, as a first span and what comes behind it. -/
theorem exists_first_span {rule : Rule} (hselector : rule.selector.isEmpty = true)
    (hspans : rule.spans ≠ []) (hwhole : ¬ rule.IsWhole) (hrest : EndsRule rest) :
    ∃ span ∈ rule.spans, ∃ tail, rule.text.toList ++ rest = span.text.toList ++ tail ∧
      plus.Refuses tail := by
  have hwords : timesWords rule = spansWords rule := by
    rw [timesWords, if_neg hwhole, Selector.isEmpty_iff.1 hselector]
    rfl
  have hbehind : plus.Refuses (trail " " (modifierWords rule) ++ rest) := by
    by_cases hne : modifierWords rule = []
    · rw [hne]
      rcases hrest with rfl | ⟨c, source, rfl, rfl | rfl⟩ <;> exact fun _ => rfl
    · rw [trail_eq _ hne, List.append_assoc]
      exact Refuses.named (refuses_token_cons (by decide))
  have hne : spansWords rule ≠ [] := listed_ne_nil.2 hspans
  rw [Rule.text_eq, hwords, toList_intercalate_append _ _ hne,
    toList_spansWords hspans, List.append_assoc]
  obtain ⟨span, others, heq⟩ := List.exists_cons_of_ne_nil hspans
  rw [heq, List.map_cons, toList_intercalate_cons, List.append_assoc]
  exact ⟨span, List.mem_cons_self, _, rfl, @follows_trail _ TimeSpan.text (plus.Refuses ·) _
    refuses_plus_comma hbehind others⟩

/-- If nothing stands behind the spans of a rule, they go on with those of an additional rule: the
text of the rule is not read as the rule then. -/
theorem fits_rule_more {rule next : Rule} (hfaithful : rule.selector.Faithful)
    (hbounds : rule.InBounds) (hnext : next.InBounds) (hends : rule.EndsWithSpans)
    (hadds : next.AddsSpans) (hrest : EndsRule rest) :
    Grammar.rule.Fits (rule.text.toList ++ ',' :: ' ' :: (next.text.toList ++ rest))
      fun form => ∀ additional, form.interpret additional ≠ .ok rule := by
  obtain ⟨hopened, hcomment, hwhole⟩ := hends
  obtain ⟨-, hempty, hnextSpans, hnextWhole⟩ := hadds
  obtain ⟨span, hmem, tail, htext, hplus⟩ :=
    exists_first_span hempty hnextSpans hnextWhole hrest
  have hspans := hbounds.spans_ne_nil hopened
  have htimes := fits_times_more hfaithful hbounds hwhole hspans (hnext.spans span hmem) hplus
  rw [Rule.text_eq, modifierWords_eq_nil.2 ⟨hopened, hcomment⟩, List.append_nil, htext]
  apply Ends.named
  refine Ends.choice_left (Ends.map (Ends.seq_left htimes fun _ => fits_optional _) ?_)
  intro parts hlonger additional h
  obtain ⟨⟨selector, spans⟩, hparts, heq⟩ := RuleForm.interpret_eq_ok.1 h
  have hlt := hlonger selector spans hparts
  have hsame : rule.spans = if _ then _ else spans := congrArg Rule.spans heq
  rw [if_neg (by cases spans <;> simp at hlt ⊢)] at hsame
  exact absurd hlt (hsame ▸ Nat.lt_irrefl _)

end Grammar

end Timetable
