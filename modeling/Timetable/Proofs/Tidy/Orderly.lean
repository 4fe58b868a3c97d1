import Timetable.Proofs.Tidy.Plain

/-!
Texts in which there is nothing to tidy.

An orderly text is made of numbers, clock times and words in their canonical case, with signs
between them (`Orderly`). None of the corrections finds anything in it (`Orderly.tidyPlain_eq`): no
two separators stand side by side, each colon stands in a clock time, a clock time is not followed
by a hyphen and midnight, and what ends a span is not followed by a space and another span.
-/

namespace Timetable.Tidy

/-! ### Orderly texts -/

/-- The signs of an orderly text, save for the colons of its clock times. -/
def signs : List Char := [' ', ',', '-', '/', '+', '(', ')']

/-- Whether a character is none of those that separate the parts of a text. -/
def IsInner (c : Char) : Prop := IsSolid c ∧ c ≠ '-'

instance (c : Char) : Decidable (IsInner c) := inferInstanceAs (Decidable (_ ∧ _))

/-- A word or a number is over: the text is, or a sign comes. -/
def EndsWord (rest : List Char) : Prop := ∀ c ∈ rest.head?, c ∈ signs

/-- No separator comes. -/
def NoSeparator (rest : List Char) : Prop := ∀ c ∈ rest.head?, IsInner c

/-- If a space comes, then no span comes behind it: the text is over, or a word for the kind of a
rule comes. -/
def EndsSpan (rest : List Char) : Prop :=
  ∀ back, rest = ' ' :: back → ∀ c ∈ back.head?, c = 'o' ∨ c = 'u'

/-- No hyphen comes with midnight behind it. -/
def NoMidnight (rest : List Char) : Prop := ¬ "-00:00".toList <+: rest

/-- A text of two digits. -/
def TwoDigits (text : List Char) : Prop :=
  ∃ tens ones, tens.isDigit = true ∧ ones.isDigit = true ∧ text = [tens, ones]

/-- A text of numbers, clock times, words and signs, in which there is nothing to tidy. -/
inductive Orderly : List Char → Prop
  | nil : Orderly []
  | number {digits rest : List Char} (hne : digits ≠ []) (hdigits : ∀ c ∈ digits, c.isDigit = true)
      (hends : EndsWord rest) : Orderly rest → Orderly (digits ++ rest)
  | clock {hour minute rest : List Char} (hhour : TwoDigits hour) (hminute : TwoDigits minute)
      (hends : EndsWord rest) (hspan : EndsSpan rest) (hmidnight : NoMidnight rest) :
      Orderly rest → Orderly (hour ++ ':' :: (minute ++ rest))
  | word {keyword : String} {rest : List Char} (hmem : keyword ∈ keywords) (hends : EndsWord rest)
      (hspan : keyword ∈ eventWords → EndsSpan rest) :
      Orderly rest → Orderly (keyword.toList ++ rest)
  | sign {c : Char} {rest : List Char} (hmem : c ∈ signs) (hapart : IsInner c ∨ NoSeparator rest)
      (hspan : c = ')' → EndsSpan rest) : Orderly rest → Orderly (c :: rest)

variable {before : Option Char} {text front back new rest : List Char} {c : Char}

/-! ### Characters -/

theorem isDecimalDigit_of_isDigit (h : c.isDigit = true) : isDecimalDigit c = true := by
  refine (inRanges_iff (by decide +kernel)).2 ⟨(0x30, 0x39), List.mem_cons_self, ?_⟩
  exact Char.isDigit_iff_toNat.1 h

theorem isInner_of_isDigit (h : c.isDigit = true) : IsInner c :=
  ⟨isSolid_of_isDecimalDigit (isDecimalDigit_of_isDigit h), ne_of_class h (by decide)⟩

theorem isInner_of_isLetter (h : isLetter c = true) : IsInner c :=
  ⟨isSolid_of_isLetter h, ne_of_class h (by decide)⟩

theorem isWordChar_of_isDigit (h : c.isDigit = true) : isWordChar c = true :=
  isWordChar_of_isDecimalDigit (isDecimalDigit_of_isDigit h)

theorem isLetter_of_isDigit (h : c.isDigit = true) : isLetter c = false := by
  refine Bool.eq_false_iff.2 fun hletter => ?_
  have hno := isDecimalDigit_of_isLetter hletter
  rw [isDecimalDigit_of_isDigit h] at hno
  cases hno

theorem isLetter_of_mem_keyword {keyword : String} (hmem : keyword ∈ keywords) :
    ∀ c ∈ keyword.toList, isLetter c = true :=
  List.all_eq_true.1 (isLetter_keyword keyword hmem).2

theorem isWordChar_sign : ∀ c ∈ signs, isWordChar c = false := by
  have hall : signs.all (!isWordChar ·) = true := by decide +kernel
  simpa using hall

theorem isLetter_sign : ∀ c ∈ signs, isLetter c = false := by
  have hall : signs.all (!isLetter ·) = true := by decide
  simpa using hall

theorem EndsWord.endsRun_isWordChar (h : EndsWord rest) : EndsRun isWordChar rest.head? :=
  fun c hc => isWordChar_sign c (h c hc)

theorem EndsWord.endsRun_isLetter (h : EndsWord rest) : EndsRun isLetter rest.head? :=
  fun c hc => isLetter_sign c (h c hc)

theorem TwoDigits.isDigit (h : TwoDigits text) : ∀ c ∈ text, c.isDigit = true := by
  obtain ⟨tens, ones, htens, hones, rfl⟩ := h
  exact List.forall_mem_cons.2 ⟨htens, List.forall_mem_singleton.2 hones⟩

theorem TwoDigits.ne_nil (h : TwoDigits text) : text ≠ [] := by
  obtain ⟨tens, ones, -, -, rfl⟩ := h
  exact List.cons_ne_nil _ _

namespace Orderly

/-- The characters of an orderly text. -/
theorem mem_cases (h : Orderly text) :
    ∀ c ∈ text, c.isDigit = true ∨ isLetter c = true ∨ c = ':' ∨ c ∈ signs := by
  induction h with
  | nil => exact nofun
  | number _ hdigits _ _ ih =>
    exact List.forall_mem_append.2 ⟨fun c hc => .inl (hdigits c hc), ih⟩
  | clock hhour hminute _ _ _ _ ih =>
    exact List.forall_mem_append.2 ⟨fun c hc => .inl (hhour.isDigit c hc),
      List.forall_mem_cons.2 ⟨.inr (.inr (.inl rfl)), List.forall_mem_append.2
        ⟨fun c hc => .inl (hminute.isDigit c hc), ih⟩⟩⟩
  | word hmem _ _ _ ih =>
    exact List.forall_mem_append.2 ⟨fun c hc => .inr (.inl (isLetter_of_mem_keyword hmem c hc)), ih⟩
  | sign hmem _ _ _ ih => exact List.forall_mem_cons.2 ⟨.inr (.inr (.inr hmem)), ih⟩

theorem semicolon_not_mem (h : Orderly text) : ';' ∉ text := by
  intro hmem
  rcases h.mem_cases _ hmem with hc | hc | hc | hc <;> exact absurd hc (by decide)

theorem quote_not_mem (h : Orderly text) : '"' ∉ text := by
  intro hmem
  rcases h.mem_cases _ hmem with hc | hc | hc | hc <;> exact absurd hc (by decide)

theorem eq_space (h : Orderly text) : ∀ c ∈ text, isBlank c = true → c = ' ' := by
  have hsigns : ∀ c ∈ signs, isBlank c = true → c = ' ' := by
    have hall : signs.all (fun c => !isBlank c || c == ' ') = true := by decide
    intro c hc hblank
    simpa [hblank] using List.all_eq_true.1 hall c hc
  intro c hc hblank
  rcases h.mem_cases c hc with hdigit | hletter | rfl | hsign
  · rw [(isInner_of_isDigit hdigit).1.isBlank] at hblank
    cases hblank
  · rw [(isInner_of_isLetter hletter).1.isBlank] at hblank
    cases hblank
  · exact absurd hblank (by decide)
  · exact hsigns c hsign hblank

end Orderly

/-- Of two neighbours, one separates nothing. -/
def Divided (c d : Char) : Prop := IsInner c ∨ IsInner d

theorem isChain_append_inner (hfront : ∀ c ∈ front, IsInner c) (h : rest.IsChain Divided) :
    (front ++ rest).IsChain Divided := by
  induction front with
  | nil => exact h
  | cons c front ih =>
    obtain ⟨hc, hfront⟩ := List.forall_mem_cons.1 hfront
    exact List.isChain_cons.2 ⟨fun _ _ => .inl hc, ih hfront⟩

/-- No two separators stand side by side. -/
theorem Orderly.isChain (h : Orderly text) : text.IsChain Divided := by
  induction h with
  | nil => exact .nil
  | number _ hdigits _ _ ih =>
    exact isChain_append_inner (fun c hc => isInner_of_isDigit (hdigits c hc)) ih
  | clock hhour hminute _ _ _ _ ih =>
    refine isChain_append_inner (fun c hc => isInner_of_isDigit (hhour.isDigit c hc))
      (List.isChain_cons.2 ⟨fun _ _ => .inl (by decide), isChain_append_inner (fun c hc => ?_) ih⟩)
    exact isInner_of_isDigit (hminute.isDigit c hc)
  | word hmem _ _ _ ih =>
    exact isChain_append_inner
      (fun c hc => isInner_of_isLetter (isLetter_of_mem_keyword hmem c hc)) ih
  | sign _ hapart _ _ ih =>
    exact List.isChain_cons.2 ⟨fun d hd => hapart.imp_right fun h => h d hd, ih⟩

/-! ### Words -/

/-- Where no character of a class comes first, the runs are those of what comes behind. -/
theorem runsOf_append_none {accepts : Char → Bool} (hfront : ∀ c ∈ front, accepts c = false)
    (rest : List Char) : runsOf accepts (front ++ rest) = runsOf accepts rest := by
  induction front with
  | nil => rfl
  | cons c front ih =>
    obtain ⟨hc, hfront⟩ := List.forall_mem_cons.1 hfront
    rw [List.cons_append, runsOf_cons_other hc, ih hfront]

namespace Orderly

/-- The words of an orderly text are numbers or words in their canonical case. -/
theorem of_mem_words (h : Orderly text) : ∀ word ∈ runsOf isWordChar text,
    (∀ c ∈ word, c.isDigit = true) ∨ ∃ keyword ∈ keywords, word = keyword.toList := by
  have hcolon : isWordChar ':' = false := by decide +kernel
  induction h with
  | nil => exact nofun
  | number hne hdigits hends _ ih =>
    rw [runsOf_run_append hne (fun c hc => isWordChar_of_isDigit (hdigits c hc))
      hends.endsRun_isWordChar]
    exact List.forall_mem_cons.2 ⟨.inl hdigits, ih⟩
  | clock hhour hminute hends _ _ _ ih =>
    rw [runsOf_append_other _ _ hcolon,
      runsOf_run hhour.ne_nil fun c hc => isWordChar_of_isDigit (hhour.isDigit c hc),
      runsOf_run_append hminute.ne_nil (fun c hc => isWordChar_of_isDigit (hminute.isDigit c hc))
        hends.endsRun_isWordChar]
    exact List.forall_mem_cons.2
      ⟨.inl hhour.isDigit, List.forall_mem_cons.2 ⟨.inl hminute.isDigit, ih⟩⟩
  | @word keyword rest hmem hends _ _ ih =>
    rw [runsOf_run_append (isLetter_keyword keyword hmem).1
      (fun c hc => isWordChar_of_isLetter (isLetter_of_mem_keyword hmem c hc))
      hends.endsRun_isWordChar]
    exact List.forall_mem_cons.2 ⟨.inr ⟨keyword, hmem, rfl⟩, ih⟩
  | sign hmem _ _ _ ih =>
    rw [runsOf_cons_other (isWordChar_sign _ hmem)]
    exact ih

/-- The letters of an orderly text make up words in their canonical case. -/
theorem of_mem_letters (h : Orderly text) :
    ∀ word ∈ runsOf isLetter text, ∃ keyword ∈ keywords, word = keyword.toList := by
  induction h with
  | nil => exact nofun
  | number _ hdigits _ _ ih =>
    rw [runsOf_append_none fun c hc => isLetter_of_isDigit (hdigits c hc)]
    exact ih
  | clock hhour hminute _ _ _ _ ih =>
    rw [runsOf_append_none fun c hc => isLetter_of_isDigit (hhour.isDigit c hc),
      runsOf_cons_other (by decide),
      runsOf_append_none fun c hc => isLetter_of_isDigit (hminute.isDigit c hc)]
    exact ih
  | @word keyword rest hmem hends _ _ ih =>
    rw [runsOf_run_append (isLetter_keyword keyword hmem).1 (isLetter_of_mem_keyword hmem)
      hends.endsRun_isLetter]
    exact List.forall_mem_cons.2 ⟨⟨keyword, hmem, rfl⟩, ih⟩
  | sign hmem _ _ _ ih =>
    rw [runsOf_cons_other (isLetter_sign _ hmem)]
    exact ih

end Orderly

theorem not_isHourWord_of_letters {word : List Char} (h : ∀ c ∈ word, isLetter c = true) :
    ¬ IsHourWord word := by
  have hno : ∀ hour rest : List Char, IsHour hour → word ≠ hour ++ rest := by
    rintro hour rest hhour rfl
    have hne : hour ≠ [] := by
      rintro rfl
      rcases hhour with h | h <;> cases h
    obtain ⟨c, hour, rfl⟩ := List.exists_cons_of_ne_nil hne
    have hletter := isDecimalDigit_of_isLetter (h c (by simp))
    rw [hhour.isDecimalDigit c List.mem_cons_self] at hletter
    cases hletter
  rintro (⟨_, hour, _, _, hhour, -, -, heq, -⟩ | ⟨_, hour, _, hhour, -, heq, -⟩)
  · exact hno hour _ hhour heq
  · exact hno hour _ hhour heq

/-! ### Clock times -/

/-- A character that a text does not have stands behind it. -/
theorem exists_of_append_eq (hno : c ∉ text) (h : text ++ rest = front ++ c :: back) :
    ∃ behind, front = text ++ behind ∧ rest = behind ++ c :: back := by
  rcases List.append_eq_append_iff.1 h with ⟨behind, hfront, hrest⟩ | ⟨between, rfl, hback⟩
  · exact ⟨behind, hfront, hrest⟩
  · cases between with
    | nil => exact ⟨[], by simp, hback.symm⟩
    | cons d between =>
      obtain ⟨rfl, -⟩ := List.cons.inj hback
      exact absurd (List.mem_append_right front List.mem_cons_self) hno

/-- What stands around the colon of a clock time: two digits on both sides, and then neither a span
behind a space nor a hyphen and midnight. -/
structure InClock (front back : List Char) : Prop where
  hour : ∃ ahead hour, TwoDigits hour ∧ front = ahead ++ hour
  minute : ∃ minute rest, TwoDigits minute ∧ back = minute ++ rest ∧ EndsSpan rest ∧ NoMidnight rest

theorem InClock.append (h : InClock front back) (text : List Char) :
    InClock (text ++ front) back := by
  obtain ⟨⟨ahead, hour, hhour, rfl⟩, hminute⟩ := h
  exact ⟨⟨text ++ ahead, hour, hhour, (List.append_assoc ..).symm⟩, hminute⟩

namespace Orderly

theorem inClock (h : Orderly text) :
    ∀ front back, text = front ++ ':' :: back → InClock front back := by
  have hdigit : ∀ {row : List Char}, (∀ c ∈ row, c.isDigit = true) → ':' ∉ row :=
    fun h hmem => absurd (h ':' hmem) (by decide)
  induction h with
  | nil => exact fun front back h => absurd h.symm (by simp)
  | number _ hdigits _ _ ih =>
    intro front back heq
    obtain ⟨behind, rfl, hrest⟩ := exists_of_append_eq (hdigit hdigits) heq
    exact (ih _ _ hrest).append _
  | @clock hour minute rest hhour hminute _ hspan hmidnight _ ih =>
    intro front back heq
    rcases append_cons_cases (hdigit hhour.isDigit) heq with rfl | ⟨between, rfl, hbetween⟩
    · obtain ⟨-, rfl⟩ := List.cons.inj (List.append_cancel_left heq)
      exact ⟨⟨[], hour, hhour, rfl⟩, minute, rest, hminute, rfl, hspan, hmidnight⟩
    · obtain ⟨behind, rfl, hrest⟩ := exists_of_append_eq (hdigit hminute.isDigit) hbetween
      have hbehind := (ih _ _ hrest).append (hour ++ ':' :: minute)
      rwa [List.append_assoc, List.cons_append] at hbehind
  | @word keyword _ hmem _ _ _ ih =>
    intro front back heq
    have hno : ':' ∉ keyword.toList := fun hc =>
      absurd (isLetter_of_mem_keyword hmem ':' hc) (by decide)
    obtain ⟨behind, rfl, hrest⟩ := exists_of_append_eq hno heq
    exact (ih _ _ hrest).append _
  | @sign c rest hmem _ _ _ ih =>
    intro front back heq
    have hno : ':' ∉ [c] := by
      rw [List.mem_singleton]
      rintro rfl
      exact absurd hmem (by decide)
    have heq : [c] ++ rest = front ++ ':' :: back := heq
    obtain ⟨behind, rfl, hrest⟩ := exists_of_append_eq hno heq
    exact (ih _ _ hrest).append _

/-- Hours have two digits. -/
theorem not_hasShortHour (h : Orderly text) : ¬ HasShortHour text := by
  rintro ⟨front, hour, tens, ones, back, rfl, hbefore, -⟩
  obtain ⟨⟨ahead, _, ⟨a, b, ha, -, rfl⟩, heq⟩, -⟩ :=
    h.inClock (front ++ [hour]) (tens :: ones :: back) (by simp)
  have hfront : front = ahead ++ [a] := by
    rw [List.append_cons ahead a [b]] at heq
    exact List.append_inj_left' heq rfl
  rw [hfront, List.getLast?_concat, isWordChar?, isWordChar_of_isDigit ha] at hbefore
  cases hbefore

end Orderly

theorem fits_clock {clock : List Char} (h : Fits clockShape clock) : ∃ hour minute,
    Fits [.digit, .digit] minute ∧ clock = hour ++ ':' :: minute := by
  obtain ⟨hour, _, -, hback, rfl⟩ := fits_append.1
    (show Fits ([.digit, .digit] ++ ([.sign ':'] ++ [.digit, .digit])) clock from h)
  obtain ⟨_, minute, hcolon, hminute, rfl⟩ := fits_append.1 hback
  obtain ⟨c, hc, rfl⟩ := fits_singleton.1 hcolon
  obtain rfl := beq_iff_eq.1 hc
  exact ⟨hour, minute, hminute, rfl⟩

/-- What stands behind a clock time. -/
theorem Orderly.endsClock {clock : List Char} (h : Orderly text) (hclock : Fits clockShape clock)
    (htext : text = front ++ (clock ++ rest)) : EndsSpan rest ∧ NoMidnight rest := by
  obtain ⟨hour, minute, hminute, rfl⟩ := fits_clock hclock
  obtain ⟨-, minute', rest', ⟨_, _, -, -, hrow⟩, heq, hends⟩ :=
    h.inClock (front ++ hour) (minute ++ rest) (by simp [htext])
  have hlength : minute.length = minute'.length := hminute.length_eq.trans (by rw [hrow]; rfl)
  obtain ⟨-, rfl⟩ := List.append_inj heq hlength
  exact hends

/-! ### Ends of spans -/

/-- No word ends with an event, save for the event. -/
theorem eq_of_event_suffix : ∀ keyword ∈ keywords, ∀ event ∈ eventWords,
    event.toList <:+ keyword.toList → keyword = event := by decide

theorem event_mem_keywords : ∀ event ∈ eventWords, event ∈ keywords := by decide

namespace Orderly

/-- What stands behind an event, if it is a space. -/
theorem endsEvent (h : Orderly text) {event : String} (hevent : event ∈ eventWords) :
    ∀ front back, text = front ++ (event.toList ++ ' ' :: back) → EndsSpan (' ' :: back) := by
  have hletters := isLetter_of_mem_keyword (event_mem_keywords event hevent)
  obtain ⟨e, event', he⟩ :=
    List.exists_cons_of_ne_nil (isLetter_keyword event (event_mem_keywords event hevent)).1
  have hcut : ∀ {row rest front back : List Char}, (∀ c ∈ row, isLetter c = false) →
      row ++ rest = front ++ (event.toList ++ ' ' :: back) →
      ∃ behind, rest = behind ++ (event.toList ++ ' ' :: back) := by
    intro row rest front back hrow heq
    have hno : e ∉ row := by
      intro hmem
      have hyes := hletters e (by rw [he]; exact List.mem_cons_self)
      rw [hrow e hmem] at hyes
      cases hyes
    rw [he, List.cons_append] at heq ⊢
    obtain ⟨behind, -, hrest⟩ := exists_of_append_eq hno heq
    exact ⟨behind, hrest⟩
  induction h with
  | nil => exact fun front back heq => absurd heq.symm (by simp)
  | number _ hdigits _ _ ih =>
    intro front back heq
    obtain ⟨behind, hrest⟩ := hcut (fun c hc => isLetter_of_isDigit (hdigits c hc)) heq
    exact ih _ _ hrest
  | @clock hour minute rest hhour hminute _ _ _ _ ih =>
    intro front back heq
    have hrow : ∀ c ∈ hour ++ ':' :: minute, isLetter c = false :=
      List.forall_mem_append.2 ⟨fun c hc => isLetter_of_isDigit (hhour.isDigit c hc),
        List.forall_mem_cons.2 ⟨by decide, fun c hc => isLetter_of_isDigit (hminute.isDigit c hc)⟩⟩
    have heq : (hour ++ ':' :: minute) ++ rest = front ++ (event.toList ++ ' ' :: back) := by
      simpa using heq
    obtain ⟨behind, hrest⟩ := hcut hrow heq
    exact ih _ _ hrest
  | @word keyword rest hmem hends hspan _ ih =>
    intro front back heq
    rcases List.append_eq_append_iff.1 heq with ⟨behind, -, hrest⟩ | ⟨word, hkeyword, hback⟩
    · exact ih _ _ hrest
    · -- The event is the end of the word, and so it is the word.
      have hword : ∀ c ∈ word, isLetter c = true := fun c hc =>
        isLetter_of_mem_keyword hmem c (hkeyword ▸ List.mem_append_right front hc)
      obtain ⟨rfl, rfl⟩ := run_inj hletters
        (show EndsRun isLetter (' ' :: back).head? from endsRun_some.2 (by decide)) hword
        hends.endsRun_isLetter hback
      obtain rfl := eq_of_event_suffix keyword hmem event hevent ⟨front, hkeyword.symm⟩
      exact hspan hevent
  | @sign c rest hmem _ _ _ ih =>
    intro front back heq
    have heq : [c] ++ rest = front ++ (event.toList ++ ' ' :: back) := heq
    obtain ⟨behind, hrest⟩ := hcut (List.forall_mem_singleton.2 (isLetter_sign c hmem)) heq
    exact ih _ _ hrest

/-- What stands behind a parenthesis that is closed. -/
theorem endsParenthesis (h : Orderly text) :
    ∀ front back, text = front ++ ')' :: back → EndsSpan back := by
  have hdigit : ∀ {row : List Char}, (∀ c ∈ row, c.isDigit = true) → ')' ∉ row :=
    fun h hmem => absurd (h ')' hmem) (by decide)
  induction h with
  | nil => exact fun front back heq => absurd heq.symm (by simp)
  | number _ hdigits _ _ ih =>
    intro front back heq
    obtain ⟨behind, -, hrest⟩ := exists_of_append_eq (hdigit hdigits) heq
    exact ih _ _ hrest
  | @clock hour minute rest hhour hminute _ _ _ _ ih =>
    intro front back heq
    have hno : ')' ∉ hour ++ ':' :: minute :=
      List.not_mem_append (hdigit hhour.isDigit)
        (List.not_mem_cons_of_ne_of_not_mem (by decide) (hdigit hminute.isDigit))
    have heq : (hour ++ ':' :: minute) ++ rest = front ++ ')' :: back := by simpa using heq
    obtain ⟨behind, -, hrest⟩ := exists_of_append_eq hno heq
    exact ih _ _ hrest
  | @word keyword rest hmem _ _ _ ih =>
    intro front back heq
    have hno : ')' ∉ keyword.toList := fun hc =>
      absurd (isLetter_of_mem_keyword hmem ')' hc) (by decide)
    obtain ⟨behind, -, hrest⟩ := exists_of_append_eq hno heq
    exact ih _ _ hrest
  | sign _ _ hspan _ ih =>
    intro front back heq
    cases front with
    | nil =>
      obtain ⟨rfl, rfl⟩ := List.cons.inj heq
      exact hspan rfl
    | cons d front => exact ih front back (List.cons.inj heq).2

end Orderly

/-- A text with a parenthesis that is closed at its end. -/
def EndsClosed (text : List Char) : Prop := ∃ front, text = front ++ [')']

/-- The end of a span: a clock time, an event, or a text that ends with a parenthesis. -/
def IsSpanEnd (text : List Char) : Prop :=
  Fits clockShape text ∨ (∃ event ∈ eventWords, text = event.toList) ∨ EndsClosed text

theorem Orderly.endsSpan {ending : List Char} (h : Orderly text) (hending : IsSpanEnd ending)
    (htext : text = front ++ (ending ++ ' ' :: back)) : EndsSpan (' ' :: back) := by
  rcases hending with hclock | ⟨event, hevent, rfl⟩ | ⟨inside, rfl⟩
  · exact (h.endsClock hclock htext).1
  · exact h.endsEvent hevent _ _ htext
  · exact h.endsParenthesis (front ++ inside) (' ' :: back) (by simp [htext])

theorem isSpanEnd_of_isMoment {ending : List Char} (h : IsMoment ending ∨ IsMovedEvent ending) :
    IsSpanEnd ending := by
  rcases h with (hclock | hevent) | ⟨event, sign, clock, -, -, -, -, rfl⟩
  · exact .inl hclock
  · exact .inr (.inl hevent)
  · exact .inr (.inr ⟨'(' :: (event ++ sign :: clock), by simp⟩)

/-- No span begins like a word for the kind of a rule. -/
theorem not_kind_of_ending {next : List Char} (h : FitsAny endingShapes next) :
    ∀ c ∈ next.head?, ¬ (c = 'o' ∨ c = 'u') := by
  have hshapes : ∀ shape ∈ endingShapes, ∀ mark ∈ shape.head?,
      mark.accepts 'o' = false ∧ mark.accepts 'u' = false := by decide
  obtain ⟨shape, hmem, hfits⟩ := h
  intro c hc hkind
  obtain ⟨tail, rfl⟩ := List.head?_eq_some_iff.1 hc
  obtain ⟨mark, _, hmark, -, rfl⟩ := List.forall₂_cons_right_iff.1 hfits
  obtain ⟨ho, hu⟩ := hshapes _ hmem mark rfl
  rcases hkind with rfl | rfl
  · exact Bool.noConfusion (ho.symm.trans hmark)
  · exact Bool.noConfusion (hu.symm.trans hmark)

/-! ### Nothing to tidy -/

namespace Orderly

theorem isChain_parted (h : Orderly text) : text.IsChain Parted := by
  refine h.isChain.imp fun c d hdivided => ?_
  rcases hdivided with hc | hd
  · exact parted_of_left hc.1.isBlank hc.1.ne_comma d
  · exact parted_of_right hd.1.isBlank hd.1.ne_comma c

theorem noHourWord (h : Orderly text) : NoHourWord text := by
  intro word hmem
  rcases h.of_mem_words word hmem with hdigits | ⟨keyword, hkeyword, rfl⟩
  · exact not_isHourWord_of_digits fun c hc => isDecimalDigit_of_isDigit (hdigits c hc)
  · exact not_isHourWord_of_letters (isLetter_of_mem_keyword hkeyword)

/-- There are no blanks around the hyphens. -/
theorem correct_tightenHyphen_eq (h : Orderly text) : correct tightenHyphen text = text := by
  refine correct_eq_self_of_same replaces_tightenHyphen fun front back new rest htext hsome => ?_
  obtain ⟨left, right, ⟨-, -, blanks, blanks', hblanks, hblanks', rfl⟩, rfl⟩ :=
    tightenHyphen_eq_some_iff.1 hsome
  have hnone : ∀ {c}, isBlank c = true → ¬ IsInner c := fun hc hinner =>
    Bool.noConfusion (hinner.1.isBlank.symm.trans hc)
  have hchain := h.isChain
  rw [htext] at hchain
  obtain ⟨-, hbehind, -⟩ := List.isChain_append.1 (List.isChain_append.1 hchain).2.1
  obtain ⟨-, hhyphen, hahead⟩ := List.isChain_append.1 hbehind
  have hleft : blanks = [] := by
    rcases List.eq_nil_or_concat blanks with hnil | ⟨blanks, c, rfl⟩
    · exact hnil
    · rw [List.concat_eq_append] at hblanks hahead
      rcases hahead c List.getLast?_concat '-' rfl with hc | hc
      · exact absurd hc (hnone (hblanks c (by simp)))
      · exact absurd hc (by decide)
  have hright : blanks' = [] := by
    cases blanks' with
    | nil => rfl
    | cons c blanks' =>
      rcases (List.isChain_cons.1 hhyphen).1 c rfl with hc | hc
      · exact absurd hc (by decide)
      · exact absurd hc (hnone (hblanks' c List.mem_cons_self))
  rw [hleft, hright]
  simp

/-- No clock time is followed by a hyphen and midnight. -/
theorem correct_endAtMidnight_eq (h : Orderly text) : correct endAtMidnight text = text := by
  refine (correct_eq_self_iff replaces_endAtMidnight grows_endAtMidnight).2 ?_
  intro front back htext
  refine Option.eq_none_iff_forall_not_mem.2 fun ⟨new, rest⟩ hsome => ?_
  obtain ⟨-, clock, hclock, rfl, -⟩ := endAtMidnight_eq_some_iff.1 hsome
  exact (h.endsClock hclock htext).2 (List.prefix_append _ rest)

/-- No two spans have a space between them. -/
theorem correct_joinSpans_eq (h : Orderly text) : correct joinSpans text = text := by
  refine correct_eq_self_of_same replaces_joinSpans fun front back new rest htext hsome => ?_
  obtain ⟨first, last, next, -, hlast, hnext, rfl, -⟩ := joinSpans_eq_some_iff.1 hsome
  have htext : text = (front ++ (first ++ ['-'])) ++ (last ++ ' ' :: (next ++ rest)) := by
    simp [htext]
  have hends : EndsSpan (' ' :: (next ++ rest)) :=
    h.endsSpan (isSpanEnd_of_isMoment hlast) htext
  have hnext : FitsAny endingShapes next := fitsAny_of_isMoment hnext
  obtain ⟨c, next', rfl⟩ := List.exists_cons_of_ne_nil (apart_endingShapes.ne_nil hnext)
  exact absurd (hends _ rfl c rfl) (not_kind_of_ending hnext c rfl)

theorem settled (h : Orderly text) : Settled text where
  commas := h.isChain_parted
  words := h.noHourWord
  hyphens := h.correct_tightenHyphen_eq
  midnight := h.correct_endAtMidnight_eq
  keywords := by
    intro word hmem
    obtain ⟨keyword, hkeyword, rfl⟩ := h.of_mem_letters word hmem
    exact canonicalWord_keyword keyword hkeyword
  spans := h.correct_joinSpans_eq

/-- An orderly text stays as it is. -/
theorem tidyPlain_eq (h : Orderly text) : tidyPlain text = text :=
  h.settled.tidyPlain_eq (correct_padHour_eq_self_iff.2 h.not_hasShortHour)

end Orderly

end Timetable.Tidy
