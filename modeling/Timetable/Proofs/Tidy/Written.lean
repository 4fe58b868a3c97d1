import Timetable.Proofs.Reading.Clauses
import Timetable.Proofs.Tidy.Orderly

/-!
What is written for a rule is orderly.

Each part of a rule is orderly with whatever comes behind it, if that ends words (`Continues`) and,
behind a span, is no other span (`GoesOn`). The one exception is a span from a clock time to the
midnight that begins the day. So the words of a rule, save for its comment, are orderly
(`starts_plainText`).
-/

namespace Timetable

/-- The span begins at a clock time and ends at the midnight that begins the day. -/
def TimeSpan.EndsAtMidnight (span : TimeSpan) : Prop :=
  span.beginning.isSolar = false ∧ span.ending = .clock .startOfDay

instance (span : TimeSpan) : Decidable span.EndsAtMidnight := inferInstanceAs (Decidable (_ ∧ _))

namespace Tidy

open Grammar

variable {rest : List Char} {c : Char}

/-! ### What comes next -/

/-- An orderly text that begins with no separator. -/
structure Starts (text : List Char) : Prop where
  orderly : Orderly text
  head : NoSeparator text

/-- An orderly text that ends the word or number before it. -/
structure Continues (rest : List Char) : Prop where
  orderly : Orderly rest
  endsWord : EndsWord rest

/-- An orderly text that ends the span before it. -/
structure GoesOn (rest : List Char) : Prop extends Continues rest where
  endsSpan : EndsSpan rest
  noMidnight : NoMidnight rest

theorem endsSpan_cons (hc : c ≠ ' ') (rest : List Char) : EndsSpan (c :: rest) :=
  fun _ heq => absurd (List.cons.inj heq).1 hc

theorem noMidnight_cons (hc : c ≠ '-') (rest : List Char) : NoMidnight (c :: rest) :=
  fun ⟨_, heq⟩ => hc (List.cons.inj heq).1.symm

theorem noSeparator_append {front : List Char} (hne : front ≠ []) (h : ∀ c ∈ front, IsInner c)
    (rest : List Char) : NoSeparator (front ++ rest) := by
  intro c hc
  rw [List.head?_append_of_ne_nil _ hne] at hc
  exact h c (List.mem_of_mem_head? hc)

theorem starts_digits {digits : List Char} (hne : digits ≠ [])
    (hdigits : ∀ c ∈ digits, c.isDigit = true) (h : Continues rest) : Starts (digits ++ rest) :=
  ⟨.number hne hdigits h.endsWord h.orderly,
    noSeparator_append hne (fun c hc => isInner_of_isDigit (hdigits c hc)) rest⟩

theorem starts_word {keyword : String} (hmem : keyword ∈ keywords)
    (hspan : keyword ∈ eventWords → EndsSpan rest) (h : Continues rest) :
    Starts (keyword.toList ++ rest) :=
  ⟨.word hmem h.endsWord hspan h.orderly, noSeparator_append (isLetter_keyword keyword hmem).1
    (fun c hc => isInner_of_isLetter (isLetter_of_mem_keyword hmem c hc)) rest⟩

theorem starts_plainWord {keyword : String} (hmem : keyword ∈ keywords)
    (hevent : keyword ∉ eventWords) (h : Continues rest) : Starts (keyword.toList ++ rest) :=
  starts_word hmem (fun hmem => absurd hmem hevent) h

/-- A sign between two parts. -/
theorem continues_sign (hmem : c ∈ signs) (hc : c ≠ ')') (h : Starts rest) :
    Continues (c :: rest) where
  orderly := .sign hmem (.inr h.head) (fun heq => absurd heq hc) h.orderly
  endsWord := by
    rintro _ ⟨⟩
    exact hmem

theorem continues_space (h : Starts rest) : Continues (" ".toList ++ rest) :=
  @continues_sign rest ' ' (by decide) (by decide) h

theorem goesOn_comma (h : Starts rest) : GoesOn (',' :: rest) where
  toContinues := continues_sign (by decide) (by decide) h
  endsSpan := endsSpan_cons (by decide) _
  noMidnight := noMidnight_cons (by decide) _

theorem goesOn_nil : GoesOn [] := ⟨⟨.nil, nofun⟩, nofun, fun ⟨_, heq⟩ => nomatch heq⟩

theorem goesOn_space : GoesOn [' '] where
  orderly := .sign (by decide) (.inr nofun) (fun heq => absurd heq (by decide)) .nil
  endsWord := by
    rintro _ ⟨⟩
    decide
  endsSpan := by
    rintro _ heq
    obtain ⟨-, rfl⟩ := List.cons.inj heq
    exact nofun
  noMidnight := noMidnight_cons (by decide) _

/-- Elements with a mark between them, given what each of them may be followed by. -/
theorem starts_intercalate {β : Type} {mark : String} {text : β → String}
    {follows : List Char → Prop} {items : List β} (hne : items ≠ [])
    (hitem : ∀ b ∈ items, ∀ rest, follows rest → Starts ((text b).toList ++ rest))
    (hmark : ∀ rest, Starts rest → follows (mark.toList ++ rest)) (hrest : follows rest) :
    Starts ((String.intercalate mark (items.map text)).toList ++ rest) := by
  have htrail : ∀ others : List β, (∀ b ∈ others, b ∈ items) →
      follows (trail mark (others.map text) ++ rest) := by
    intro others hothers
    induction others with
    | nil => exact hrest
    | cons b others ih =>
      obtain ⟨hb, hothers⟩ := List.forall_mem_cons.1 hothers
      rw [List.map_cons, trail_cons, List.append_assoc, List.append_assoc]
      exact hmark _ (hitem b hb _ (ih hothers))
  obtain ⟨first, others, rfl⟩ := List.exists_cons_of_ne_nil hne
  rw [List.map_cons, toList_intercalate_cons, List.append_assoc]
  exact hitem first List.mem_cons_self _ (htrail others fun b hb => List.mem_cons_of_mem _ hb)

/-- Words with a space between them. -/
theorem starts_words {words : List String} (hne : words ≠ [])
    (hwords : ∀ word ∈ words, ∀ rest, Continues rest → Starts (word.toList ++ rest))
    (h : Continues rest) : Starts ((String.intercalate " " words).toList ++ rest) := by
  have hmap := @starts_intercalate rest String " " id Continues words hne hwords
    (fun _ => continues_space) h
  rwa [List.map_id] at hmap

/-- A list of conditions, as a word. -/
theorem starts_listed {β : Type} {lead : String} {text : β → String} {items : List β}
    (hlead : ∀ rest, Starts rest → Starts (lead.toList ++ rest))
    (hitem : ∀ b ∈ items, ∀ rest, Continues rest → Starts ((text b).toList ++ rest)) :
    ∀ word ∈ listed lead (items.map text), ∀ rest, Continues rest →
      Starts (word.toList ++ rest) := by
  intro word hmem rest h
  unfold listed at hmem
  split at hmem
  · cases hmem
  · rename_i hne
    obtain rfl := List.mem_singleton.1 hmem
    rw [String.toList_append, List.append_assoc]
    exact hlead _ (starts_intercalate (by simpa using hne) hitem
      (fun _ h => (goesOn_comma h).toContinues) h)

/-! ### Conditions -/

theorem continues_rangeTail {last : Option String}
    (hlast : ∀ text ∈ last, text.toList ≠ [] ∧ ∀ c ∈ text.toList, c.isDigit = true) (step : Nat)
    (h : Continues rest) : Continues ((rangeTail last step).toList ++ rest) := by
  have hstep :
      Continues ((if step = 1 then "" else "/" ++ Decimal.natural step).toList ++ rest) := by
    split
    · exact h
    · rw [String.toList_append, List.append_assoc]
      change Continues ('/' :: ((Decimal.natural step).toList ++ rest))
      exact continues_sign (by decide) (by decide)
        (starts_digits (Decimal.natural_ne_nil step) Decimal.isDigit_natural h)
  unfold rangeTail
  rw [String.toList_append, List.append_assoc]
  cases last with
  | none => exact hstep
  | some text =>
    obtain ⟨hne, hdigits⟩ := hlast text rfl
    rw [String.toList_append, List.append_assoc]
    exact @continues_sign (text.toList ++ _) '-' (by decide) (by decide)
      (starts_digits hne hdigits hstep)

/-- A range of numbers, each written as a row of digits. -/
theorem starts_range (numeral : Nat → String)
    (hnumeral : ∀ n, (numeral n).toList ≠ [] ∧ ∀ c ∈ (numeral n).toList, c.isDigit = true)
    (first last step : Nat) (h : Continues rest) :
    Starts ((numeral first ++
      rangeTail (if first = last then none else some (numeral last)) step).toList ++ rest) := by
  rw [String.toList_append, List.append_assoc]
  refine starts_digits (hnumeral first).1 (hnumeral first).2 (continues_rangeTail ?_ _ h)
  intro text htext
  split at htext
  · cases htext
  · obtain rfl := Option.some.inj htext
    exact hnumeral last

theorem starts_yearRange (range : YearRange) (h : Continues rest) :
    Starts (range.text.toList ++ rest) := by
  rw [YearRange.text]
  exact starts_range Decimal.natural
    (fun _ => ⟨Decimal.natural_ne_nil _, Decimal.isDigit_natural⟩) _ _ _ h

theorem starts_weekRange (range : WeekRange) (h : Continues rest) :
    Starts (range.text.toList ++ rest) := by
  rw [WeekRange.text]
  exact starts_range Decimal.twoDigits
    (fun _ => ⟨Decimal.twoDigits_ne_nil _, Decimal.isDigit_twoDigits⟩) _ _ _ h

theorem starts_month (month : Month) (h : Continues rest) :
    Starts (month.abbreviation.toList ++ rest) := by
  cases month <;> exact starts_plainWord (by decide) (by decide) h

theorem starts_weekday (day : Weekday) (h : Continues rest) :
    Starts (day.abbreviation.toList ++ rest) := by
  cases day <;> exact starts_plainWord (by decide) (by decide) h

theorem starts_holiday (kind : Holiday) (h : Continues rest) :
    Starts (kind.abbreviation.toList ++ rest) := by
  cases kind <;> exact starts_plainWord (by decide) (by decide) h

theorem starts_yearLead (year? : Option Nat) (h : Starts rest) :
    Starts ((yearLead year?).toList ++ rest) := by
  cases year? with
  | none => exact h
  | some year =>
    unfold yearLead
    rw [String.toList_append, List.append_assoc]
    exact starts_digits (Decimal.natural_ne_nil _) Decimal.isDigit_natural (continues_space h)

theorem starts_day (day : AnnualDay) (h : Continues rest) : Starts (day.text.toList ++ rest) := by
  cases day with
  | fixed year? month day =>
    simp only [AnnualDay.text, String.toList_append, List.append_assoc]
    have hday := starts_digits (Decimal.twoDigits_ne_nil day) Decimal.isDigit_twoDigits h
    exact starts_yearLead _ (starts_month month (continues_space hday))
  | easter year? =>
    simp only [AnnualDay.text, String.toList_append, List.append_assoc]
    exact starts_yearLead _ (starts_plainWord (by decide) (by decide) h)

/-- The last element of a range, which is not written if it is the first one. -/
theorem continues_hyphen {same : Prop} [Decidable same] {text : String}
    (htext : Starts (text.toList ++ rest)) (h : Continues rest) :
    Continues ((if same then "" else "-" ++ text).toList ++ rest) := by
  split
  · exact h
  · rw [String.toList_append, List.append_assoc]
    exact continues_sign (by decide) (by decide) htext

theorem starts_dateRange (range : DateRange) (h : Continues rest) :
    Starts (range.text.toList ++ rest) := by
  cases range with
  | months year? first last =>
    simp only [DateRange.text, String.toList_append, List.append_assoc]
    exact starts_yearLead _ (starts_month first (continues_hyphen (starts_month last h) h))
  | days first last =>
    simp only [DateRange.text, String.toList_append, List.append_assoc]
    exact starts_day first (continues_hyphen (starts_day last h) h)

theorem starts_weekdayRange (range : WeekdayRange) (h : Continues rest) :
    Starts (range.text.toList ++ rest) := by
  cases range with
  | days first last =>
    simp only [WeekdayRange.text, String.toList_append, List.append_assoc]
    exact starts_weekday first (continues_hyphen (starts_weekday last h) h)
  | holiday kind => exact starts_holiday kind h

/-- The conditions and the days of a selector. -/
theorem starts_of_mem_groups (selector : Selector) :
    ∀ word ∈ selector.groups, ∀ rest, Continues rest → Starts (word.toList ++ rest) := by
  have hnone : ∀ rest, Starts rest → Starts ("".toList ++ rest) := fun _ h => h
  have hweek : ∀ rest, Starts rest → Starts ("week ".toList ++ rest) := fun _ h =>
    @starts_plainWord _ "week" (by decide) (by decide) (continues_space h)
  rw [Selector.groups_eq]
  simp only [List.mem_append, or_assoc]
  rintro word (hmem | hmem | hmem | hmem | hmem)
  · exact starts_listed hnone (fun range _ _ => starts_yearRange range) word hmem
  · exact starts_listed hnone (fun range _ _ => starts_dateRange range) word hmem
  · exact starts_listed hweek (fun range _ _ => starts_weekRange range) word hmem
  · exact starts_listed hnone (fun kind _ _ => starts_holiday kind) word hmem
  · exact starts_listed hnone (fun range _ _ => starts_weekdayRange range) word hmem

/-! ### Spans -/

theorem twoDigits_of_lt {n : Nat} (h : n < 100) : TwoDigits (Decimal.twoDigits n).toList := by
  obtain ⟨tens, ones, heq, htens, hones⟩ := exists_twoDigits h
  exact ⟨tens, ones, htens, hones, heq⟩

theorem ClockTime.hour_lt (time : ClockTime) : time.hour < 100 := by
  have := time.minutes_le
  unfold ClockTime.hour
  omega

theorem ClockTime.minute_lt (time : ClockTime) : time.minute < 100 := by
  unfold ClockTime.minute
  omega

theorem starts_clock (time : ClockTime) (h : GoesOn rest) : Starts (time.text.toList ++ rest) := by
  have hhour := twoDigits_of_lt (ClockTime.hour_lt time)
  have hminute := twoDigits_of_lt (ClockTime.minute_lt time)
  unfold ClockTime.text
  rw [String.toList_append, String.toList_append, List.append_assoc, List.append_assoc]
  generalize (Decimal.twoDigits time.hour).toList = hour at hhour ⊢
  generalize (Decimal.twoDigits time.minute).toList = minute at hminute ⊢
  have horderly := Orderly.clock hhour hminute h.endsWord h.endsSpan h.noMidnight h.orderly
  exact ⟨horderly, noSeparator_append hhour.ne_nil
    (fun c hc => isInner_of_isDigit (hhour.isDigit c hc)) _⟩

theorem event_keyword_mem (event : SolarEvent) : event.keyword ∈ keywords := by
  cases event <;> decide

/-- A moment; a clock time has no hyphen and midnight behind it. -/
theorem starts_moment {moment : Moment} (hbounds : ∃ hours, moment.InBounds hours)
    (h : Continues rest) (hspan : EndsSpan rest)
    (hmidnight : moment.isSolar = false → NoMidnight rest) :
    Starts (moment.text.toList ++ rest) := by
  cases moment with
  | clock time => exact starts_clock time ⟨h, hspan, hmidnight rfl⟩
  | solar event offset =>
    obtain ⟨_, hoffset⟩ := hbounds
    unfold Moment.text
    dsimp only
    split
    · exact starts_word (event_keyword_mem event) (fun _ => hspan) h
    · have hclosed : GoesOn (')' :: rest) :=
        ⟨⟨.sign (by decide) (.inl (by decide)) (fun _ => hspan) h.orderly, by
          rintro _ ⟨⟩
          decide⟩, endsSpan_cons (by decide) _, noMidnight_cons (by decide) _⟩
      have hle : offset.natAbs ≤ 2880 := Nat.le_trans hoffset (by decide)
      have hclock := starts_clock ⟨offset.natAbs, hle⟩ hclosed
      have hoffset : ∃ sign, (sign ∈ signs ∧ sign ≠ ')' ∧ sign ≠ ' ') ∧
          (if offset < 0 then "-" else "+").toList = [sign] := by
        split
        · exact ⟨'-', by decide, rfl⟩
        · exact ⟨'+', by decide, rfl⟩
      obtain ⟨sign, hsigns, heq⟩ := hoffset
      rw [offsetText_eq hle]
      simp only [String.toList_append, List.append_assoc, heq]
      generalize (ClockTime.text ⟨offset.natAbs, hle⟩).toList = clock at hclock ⊢
      have hevent := starts_word (event_keyword_mem event)
        (fun _ => endsSpan_cons hsigns.2.2 _) (continues_sign hsigns.1 hsigns.2.1 hclock)
      generalize event.keyword.toList = keyword at hevent ⊢
      refine ⟨.sign (by decide) (.inl (by decide)) (fun heq => absurd heq (by decide))
        hevent.orderly, ?_⟩
      rintro _ ⟨⟩
      decide

/-- Behind a hyphen comes midnight only if it is written there. -/
theorem eq_startOfDay {time : ClockTime} (h : "00:00".toList <+: time.text.toList ++ rest) :
    time = .startOfDay := by
  have hlength := Decimal.length_twoDigits (ClockTime.hour_lt time)
  have hlength' := Decimal.length_twoDigits (ClockTime.minute_lt time)
  have hhour := Decimal.value_twoDigits time.hour
  have hminute := Decimal.value_twoDigits time.minute
  obtain ⟨behind, heq⟩ := h
  unfold ClockTime.text at heq
  simp only [String.toList_append, List.append_assoc] at heq
  generalize (Decimal.twoDigits time.hour).toList = hour at heq hlength hhour
  generalize (Decimal.twoDigits time.minute).toList = minute at heq hlength' hminute
  -- Both hour and minute are the two zeros of midnight.
  have heq : ['0', '0'] ++ ':' :: (['0', '0'] ++ behind) = hour ++ ':' :: (minute ++ rest) := heq
  obtain ⟨rfl, hback⟩ := List.append_inj heq hlength.symm
  obtain ⟨rfl, -⟩ := List.append_inj (List.cons.inj hback).2 hlength'.symm
  have hhour : time.hour = 0 := hhour.symm
  have hminute : time.minute = 0 := hminute.symm
  refine ClockTime.ext ?_
  unfold ClockTime.hour at hhour
  unfold ClockTime.minute at hminute
  exact show time.minutes = 0 by omega

theorem noMidnight_hyphen {moment : Moment} (hne : moment ≠ .clock .startOfDay)
    (rest : List Char) : NoMidnight ('-' :: (moment.text.toList ++ rest)) := by
  intro hprefix
  have hprefix : "00:00".toList <+: moment.text.toList ++ rest :=
    (List.cons_prefix_cons.1 hprefix).2
  cases moment with
  | clock time => exact hne (congrArg Moment.clock (eq_startOfDay hprefix))
  | solar event offset =>
    obtain ⟨behind, heq⟩ := hprefix
    unfold Moment.text at heq
    dsimp only at heq
    split at heq
    · cases event <;> exact absurd (List.cons.inj heq).1 (by decide)
    · simp only [String.toList_append, List.append_assoc] at heq
      exact absurd (List.cons.inj heq).1 (by decide)

theorem starts_span {span : TimeSpan} (hbounds : span.InBounds) (hspan : ¬ span.EndsAtMidnight)
    (h : GoesOn rest) : Starts (span.text.toList ++ rest) := by
  have hending : Starts (span.ending.text.toList ++ rest) :=
    starts_moment ⟨48, hbounds.2⟩ h.toContinues h.endsSpan fun _ => h.noMidnight
  unfold TimeSpan.text
  rw [String.toList_append, String.toList_append, List.append_assoc, List.append_assoc]
  refine starts_moment ⟨24, hbounds.1⟩
    (@continues_sign _ '-' (by decide) (by decide) hending) (endsSpan_cons (by decide) _) ?_
  exact fun hclock => noMidnight_hyphen (fun hmidnight => hspan ⟨hclock, hmidnight⟩) rest

/-! ### Rules -/

/-- What is written for a rule, without its comment. -/
def plainWords (rule : Rule) : List String := timesWords rule ++ rule.kindWords

theorem kindWords_cases (rule : Rule) :
    rule.kindWords = [] ∨ ∃ word, (word = "off" ∨ word = "unknown") ∧ rule.kindWords = [word] := by
  unfold Rule.kindWords
  cases rule.kind with
  | opened => exact .inl rfl
  | closed => exact .inr ⟨"off", .inl rfl, rfl⟩
  | unknown =>
    dsimp only
    split
    · exact .inr ⟨"unknown", .inr rfl, rfl⟩
    · exact .inl rfl

theorem starts_kind {word : String} (hword : word = "off" ∨ word = "unknown")
    (h : Continues rest) : Starts (word.toList ++ rest) := by
  rcases hword with rfl | rfl <;> exact starts_plainWord (by decide) (by decide) h

/-- The word for the kind ends the spans before it. -/
theorem goesOn_kind (rule : Rule) (h : GoesOn rest) :
    GoesOn (trail " " rule.kindWords ++ rest) := by
  rcases kindWords_cases rule with heq | ⟨word, hword, heq⟩
  · rw [heq]
    exact h
  · have hstarts := continues_space (starts_kind hword h.toContinues)
    have htrail : trail " " [word] ++ rest = ' ' :: (word.toList ++ rest) := by
      rw [trail_cons]
      simp [trail]
    rw [heq, htrail]
    refine ⟨hstarts, ?_, noMidnight_cons (by decide) _⟩
    rintro _ heq c hc
    obtain ⟨-, rfl⟩ := List.cons.inj heq
    rcases hword with rfl | rfl
    · obtain rfl := Option.some.inj hc
      exact .inl rfl
    · obtain rfl := Option.some.inj hc
      exact .inr rfl

/-- Spans with commas between them, and the word for the kind. -/
theorem starts_spans {rule : Rule} (hbounds : rule.InBounds) (hne : rule.spans ≠ [])
    (hspans : ∀ span ∈ rule.spans, ¬ span.EndsAtMidnight) (h : GoesOn rest) :
    Starts ((String.intercalate "," (rule.spans.map TimeSpan.text)).toList ++ rest) :=
  starts_intercalate hne (fun span hmem _ => starts_span (hbounds.spans span hmem)
    (hspans span hmem)) (fun _ => goesOn_comma) h

/-- The words of a rule, save for its comment, are orderly. -/
theorem starts_plainText {rule : Rule} (hbounds : rule.InBounds)
    (hspans : ∀ span ∈ rule.spans, ¬ span.EndsAtMidnight) (hne : plainWords rule ≠ [])
    (h : GoesOn rest) : Starts ((String.intercalate " " (plainWords rule)).toList ++ rest) := by
  have hkind := goesOn_kind rule h
  unfold plainWords at hne ⊢
  by_cases hwhole : rule.IsWhole
  · have htimes : timesWords rule ≠ [] := by
      rw [timesWords, if_pos hwhole]
      exact List.cons_ne_nil _ _
    rw [toList_intercalate_append _ _ htimes, List.append_assoc, timesWords, if_pos hwhole,
      String.intercalate_singleton]
    have hseven := @starts_digits _ ['7'] (List.cons_ne_nil _ _)
      (List.forall_mem_singleton.2 (by decide)) hkind.toContinues
    exact @starts_digits _ ['2', '4'] (List.cons_ne_nil _ _)
      (List.forall_mem_cons.2 ⟨by decide, List.forall_mem_singleton.2 (by decide)⟩)
      (continues_sign (by decide) (by decide) hseven)
  have hgroups : timesWords rule = rule.selector.groups ++ spansWords rule := by
    rw [timesWords, if_neg hwhole, Selector.groups_eq_append, List.append_assoc]
  have hbehind : rule.spans ≠ [] →
      Starts ((String.intercalate " " (spansWords rule ++ rule.kindWords)).toList ++ rest) := by
    intro hne
    have hwords : spansWords rule ≠ [] := listed_ne_nil.2 hne
    rw [toList_intercalate_append _ _ hwords, toList_spansWords hne, List.append_assoc]
    exact starts_spans hbounds hne hspans hkind
  rw [hgroups, List.append_assoc] at hne ⊢
  by_cases hselector : rule.selector.groups = []
  · rw [hselector, List.nil_append] at hne ⊢
    by_cases hspans' : rule.spans = []
    · have hspansWords : spansWords rule = [] := listed_eq_nil.2 hspans'
      rw [hspansWords, List.nil_append] at hne ⊢
      obtain ⟨word, hword, heq⟩ := (kindWords_cases rule).resolve_left hne
      rw [heq, String.intercalate_singleton]
      exact starts_kind hword h.toContinues
    · exact hbehind hspans'
  · rw [toList_intercalate_append _ _ hselector, List.append_assoc]
    refine starts_words hselector (starts_of_mem_groups rule.selector) ?_
    by_cases hspans' : rule.spans = []
    · have hspansWords : spansWords rule = [] := listed_eq_nil.2 hspans'
      rw [hspansWords, List.nil_append]
      exact hkind.toContinues
    · have hne : spansWords rule ++ rule.kindWords ≠ [] :=
        List.append_ne_nil_of_left_ne_nil (listed_ne_nil.2 hspans') _
      rw [trail_eq _ hne, List.append_assoc]
      exact continues_space (hbehind hspans')

end Tidy

end Timetable
