import Mathlib.Data.Bool.AllAny
import Mathlib.Data.Option.Basic
import Timetable.Proofs.Tidy.Runs
import Timetable.Proofs.Tidy.Shape

/-!
What each correction replaces, and what by.

Each lemma `…_eq_some_iff` says where a correction applies: what the text begins with, what stands
before and behind it, and what it is replaced by.
-/

namespace Timetable.Tidy

variable {before : Option Char} {text new rest : List Char}

/-! ### Parts of spans -/

/-- A clock time. -/
def clockShape : List Mark := [.digit, .digit, .sign ':', .digit, .digit]

/-- The events of the sun. -/
def eventShapes : List (List Mark) := eventWords.map fun word => word.toList.map .letter

/-- What a span may begin with. -/
def beginningShapes : List (List Mark) := [clockShape] ++ eventShapes ++ [[.sign ')']]

/-- What a span may end with. -/
def endingShapes : List (List Mark) := [clockShape] ++ eventShapes ++ [[.sign '(']]

theorem apart_beginningShapes : Apart beginningShapes where
  nonempty := by decide
  proper := by decide
  prefixes := by decide
  suffixes := by decide

theorem apart_endingShapes : Apart endingShapes where
  nonempty := by decide
  proper := by decide
  prefixes := by decide
  suffixes := by decide

theorem exactly_sign (sign : Char) :
    Recogniser.Exactly (charOf? (· == sign)) (Fits [.sign sign]) :=
  (Recogniser.exactly_charOf _).congr fun part =>
    (show Fits [.sign sign] part ↔ _ from fits_singleton).symm

theorem exactly_clock : clock?.Exactly (Fits clockShape) := by
  refine (Recogniser.Exactly.both (Recogniser.exactly_digits 2)
    (Recogniser.Exactly.both (exactly_sign ':') (Recogniser.exactly_digits 2))).congr fun part => ?_
  have hshape : clockShape =
      List.replicate 2 .digit ++ ([.sign ':'] ++ List.replicate 2 .digit) := rfl
  rw [hshape, fits_append]
  simp only [fits_append]

theorem exactly_events : List.Forall₂ (fun r shape => Recogniser.Exactly r (Fits shape))
    (eventWords.map foldedWord?) eventShapes := by
  rw [eventShapes, List.forall₂_map_left_iff, List.forall₂_map_right_iff]
  exact List.forall₂_same.2 fun word _ => Recogniser.exactly_foldedWord word

/-- The parts of a span, given the parenthesis that an event that is moved ends or begins with. -/
theorem exactly_spanParts (sign : Char) :
    List.Forall₂ (fun r shape => Recogniser.Exactly r (Fits shape))
      ([clock?] ++ eventWords.map foldedWord? ++ [charOf? (· == sign)])
      ([clockShape] ++ eventShapes ++ [[.sign sign]]) := by
  rw [List.append_assoc, List.append_assoc]
  exact .cons exactly_clock (List.rel_append exactly_events (.cons (exactly_sign sign) .nil))

theorem exactly_beginning : (beginning? foldedWord?).Exactly (FitsAny beginningShapes) :=
  Recogniser.exactly_anyShape apart_beginningShapes (exactly_spanParts ')')

theorem exactly_ending : (ending? foldedWord?).Exactly (FitsAny endingShapes) :=
  Recogniser.exactly_anyShape apart_endingShapes (exactly_spanParts '(')

theorem charOf_eq_some {accepts : Char → Bool} {part : List Char} :
    charOf? accepts text = some (part, rest) ↔
      ∃ c, accepts c = true ∧ part = [c] ∧ text = c :: rest := by
  rw [Recogniser.exactly_charOf]
  constructor
  · rintro ⟨⟨c, hc, rfl⟩, rfl⟩
    exact ⟨c, hc, rfl, rfl⟩
  · rintro ⟨c, hc, rfl, rfl⟩
    exact ⟨⟨c, hc, rfl⟩, rfl⟩

/-! ### Hours -/

/-- An hour of one or two digits. -/
def IsHour (text : List Char) : Prop := Fits [.digit] text ∨ Fits [.digit, .digit] text

theorem isDecimalDigit_of_isHourLetter {c : Char} (h : isHourLetter c = true) :
    isDecimalDigit c = false := by
  simp only [isHourLetter, Bool.or_eq_true, beq_iff_eq] at h
  rcases h with rfl | rfl <;> decide

theorem hourDigits_eq_some {hour between : List Char}
    (h : hourDigits? text = some (hour, between)) : IsHour hour ∧ text = hour ++ between := by
  rcases Option.or_eq_some_iff.1 h with htwo | ⟨-, hone⟩
  · exact ((Recogniser.exactly_digits 2).sound _ _ _ htwo).imp_left .inr
  · exact ((Recogniser.exactly_digits 1).sound _ _ _ hone).imp_left .inl

/-- An hour is recognised in front of the letter for hours. -/
theorem hourDigits_append {hour : List Char} (h : IsHour hour) {letter : Char}
    (hletter : isHourLetter letter = true) (rest : List Char) :
    hourDigits? (hour ++ letter :: rest) = some (hour, letter :: rest) := by
  rcases h with hone | htwo
  · have hnone : digits? 2 (hour ++ letter :: rest) = none := by
      refine Option.eq_none_iff_forall_not_mem.2 fun ⟨part, behind⟩ hsome => ?_
      obtain ⟨hpart, heq⟩ := (Recogniser.exactly_digits 2).sound _ _ _ hsome
      obtain ⟨c, -, rfl⟩ := fits_singleton.1 hone
      -- The second digit would be the letter.
      obtain ⟨hlength, hdigits⟩ := (fits_digits 2).1 hpart
      obtain ⟨d, e, rfl⟩ := List.length_eq_two.1 hlength
      obtain ⟨rfl, -⟩ := List.cons.inj (List.cons.inj heq).2
      have hdigit := hdigits letter (by simp)
      rw [isDecimalDigit_of_isHourLetter hletter] at hdigit
      cases hdigit
    rw [hourDigits?, hnone]
    exact (Recogniser.exactly_digits 1).of_append hone _
  · rw [hourDigits?, (Recogniser.exactly_digits 2).of_append htwo]
    rfl

/-- A word with the letter for hours between an hour and minutes, and what it is replaced by. -/
def LetterInside (word new : List Char) : Prop :=
  ∃ hour letter minute, IsHour hour ∧ isHourLetter letter = true ∧ Fits [.digit, .digit] minute ∧
    word = hour ++ letter :: minute ∧ new = hour ++ ':' :: minute

/-- A word with the letter for hours after an hour, and what it is replaced by. -/
def LetterAfter (word new : List Char) : Prop :=
  ∃ hour letter, IsHour hour ∧ isHourLetter letter = true ∧ word = hour ++ [letter] ∧
    new = hour ++ [':', '0', '0']

theorem hourLetterInside_eq_some_iff :
    hourLetterInside before text = some (new, rest) ↔
      isWordChar? before = false ∧ isWordChar? rest.head? = false ∧
        ∃ word, LetterInside word new ∧ text = word ++ rest := by
  simp only [hourLetterInside, Option.bind_eq_bind, Option.bind_eq_some_iff, Option.guard_eq_some',
    Bool.not_eq_true', exists_const]
  constructor
  · rintro ⟨hbefore, ⟨hour, _⟩, hfirst, ⟨_, _⟩, hsecond, ⟨minute, _⟩, hthird, hafter, heq⟩
    obtain ⟨rfl, rfl⟩ := Prod.mk.inj (Option.some.inj heq)
    obtain ⟨hhour, rfl⟩ := hourDigits_eq_some hfirst
    obtain ⟨letter, hletter, -, rfl⟩ := charOf_eq_some.1 hsecond
    obtain ⟨hminute, rfl⟩ := (Recogniser.exactly_digits 2).sound _ _ _ hthird
    exact ⟨hbefore, hafter, _, ⟨hour, letter, minute, hhour, hletter, hminute, rfl, rfl⟩, by simp⟩
  · rintro ⟨hbefore, hafter, _, ⟨hour, letter, minute, hhour, hletter, hminute, rfl, rfl⟩, rfl⟩
    rw [List.append_assoc, List.cons_append]
    exact ⟨hbefore, _, hourDigits_append hhour hletter _, _,
      charOf_eq_some.2 ⟨letter, hletter, rfl, rfl⟩, _,
      (Recogniser.exactly_digits 2).of_append hminute rest, hafter, rfl⟩

theorem hourLetterAfter_eq_some_iff :
    hourLetterAfter before text = some (new, rest) ↔
      isWordChar? before = false ∧ isWordChar? rest.head? = false ∧
        ∃ word, LetterAfter word new ∧ text = word ++ rest := by
  simp only [hourLetterAfter, Option.bind_eq_bind, Option.bind_eq_some_iff, Option.guard_eq_some',
    Bool.not_eq_true', exists_const]
  constructor
  · rintro ⟨hbefore, ⟨hour, _⟩, hfirst, ⟨_, _⟩, hsecond, hafter, heq⟩
    obtain ⟨rfl, rfl⟩ := Prod.mk.inj (Option.some.inj heq)
    obtain ⟨hhour, rfl⟩ := hourDigits_eq_some hfirst
    obtain ⟨letter, hletter, -, rfl⟩ := charOf_eq_some.1 hsecond
    exact ⟨hbefore, hafter, _, ⟨hour, letter, hhour, hletter, rfl, rfl⟩, by simp⟩
  · rintro ⟨hbefore, hafter, _, ⟨hour, letter, hhour, hletter, rfl, rfl⟩, rfl⟩
    rw [List.append_assoc, List.singleton_append]
    exact ⟨hbefore, _, hourDigits_append hhour hletter _, _,
      charOf_eq_some.2 ⟨letter, hletter, rfl, rfl⟩, hafter, rfl⟩

theorem padHour_eq_some_iff :
    padHour before text = some (new, rest) ↔
      isWordChar? before = false ∧ ∃ hour minute, isDecimalDigit hour = true ∧
        Fits [.digit, .digit] minute ∧ text = hour :: ':' :: (minute ++ rest) ∧
        new = '0' :: hour :: ':' :: minute := by
  simp only [padHour, Option.bind_eq_bind, Option.bind_eq_some_iff, Option.guard_eq_some',
    Bool.not_eq_true', exists_const]
  constructor
  · rintro ⟨hbefore, ⟨_, _⟩, hfirst, ⟨_, _⟩, hsecond, ⟨minute, _⟩, hthird, heq⟩
    obtain ⟨rfl, rfl⟩ := Prod.mk.inj (Option.some.inj heq)
    obtain ⟨hhour, rfl⟩ := (Recogniser.exactly_digits 1).sound _ _ _ hfirst
    obtain ⟨hour, hdigit, rfl⟩ := fits_singleton.1 hhour
    obtain ⟨_, hcolon, -, rfl⟩ := charOf_eq_some.1 hsecond
    obtain rfl := beq_iff_eq.1 hcolon
    obtain ⟨hminute, rfl⟩ := (Recogniser.exactly_digits 2).sound _ _ _ hthird
    exact ⟨hbefore, hour, minute, hdigit, hminute, rfl, rfl⟩
  · rintro ⟨hbefore, hour, minute, hdigit, hminute, rfl, rfl⟩
    exact ⟨hbefore, _, (Recogniser.exactly_digits 1).of_append
        (fits_singleton.2 ⟨hour, hdigit, rfl⟩) (':' :: (minute ++ rest)), _,
      charOf_eq_some.2 ⟨':', rfl, rfl, rfl⟩, _,
      (Recogniser.exactly_digits 2).of_append hminute rest, rfl⟩

/-! ### Blanks -/

/-- A text of blanks. -/
def Blanks (text : List Char) : Prop := ∀ c ∈ text, isBlank c = true

/-- The blanks at the beginning of a text. -/
theorem exists_blanks (text : List Char) : ∃ blanks, Blanks blanks ∧
    text = blanks ++ text.dropWhile isBlank ∧ EndsRun isBlank (text.dropWhile isBlank).head? := by
  refine ⟨text.takeWhile isBlank, fun c hc => List.all_eq_true.1 List.all_takeWhile c hc,
    List.takeWhile_append_dropWhile.symm, fun c hc => ?_⟩
  have hnot := List.head?_dropWhile_not isBlank text
  rw [hc] at hnot
  simpa using hnot

theorem tightenComma_eq_some_iff :
    tightenComma before text = some (new, rest) ↔
      EndsRun isBlank rest.head? ∧ ∃ left right, Blanks left ∧ Blanks right ∧
        text = left ++ ',' :: (right ++ rest) ∧ new = [','] := by
  obtain ⟨left, hleft, htext, -⟩ := exists_blanks text
  constructor
  · intro h
    unfold tightenComma at h
    split at h
    · rename_i behind hcomma
      obtain ⟨rfl, rfl⟩ := Prod.mk.inj (Option.some.inj h)
      obtain ⟨right, hright, hbehind, hends⟩ := exists_blanks behind
      rw [hcomma] at htext
      exact ⟨hends, left, right, hleft, hright, by rw [← hbehind, ← htext], rfl⟩
    · cases h
  · rintro ⟨hends, left, right, hleft, hright, rfl, rfl⟩
    have hcomma : (left ++ ',' :: (right ++ rest)).dropWhile isBlank = ',' :: (right ++ rest) :=
      dropWhile_run hleft (endsRun_some.2 (by decide))
    unfold tightenComma
    rw [hcomma]
    exact congrArg (fun rest => some ([','], rest)) (dropWhile_run hright hends)

/-- A text begins with a span, which may have blanks around its hyphen. -/
structure BeginsSpan (text left right rest : List Char) : Prop where
  beginning : FitsAny beginningShapes left
  ending : FitsAny endingShapes right
  parts : ∃ blanks blanks', Blanks blanks ∧ Blanks blanks' ∧
    text = left ++ (blanks ++ '-' :: (blanks' ++ (right ++ rest)))

theorem tightenHyphen_eq_some_iff :
    tightenHyphen before text = some (new, rest) ↔
      ∃ left right, BeginsSpan text left right rest ∧ new = left ++ '-' :: right := by
  simp only [tightenHyphen, Option.bind_eq_bind, Option.bind_eq_some_iff]
  constructor
  · rintro ⟨⟨left, behind⟩, hfirst, ⟨_, after⟩, hsecond, ⟨right, _⟩, hthird, heq⟩
    obtain ⟨rfl, rfl⟩ := Prod.mk.inj (Option.some.inj heq)
    obtain ⟨hleft, rfl⟩ := exactly_beginning.sound _ _ _ hfirst
    obtain ⟨_, hhyphen, -, hbehind⟩ := charOf_eq_some.1 hsecond
    obtain rfl := beq_iff_eq.1 hhyphen
    obtain ⟨hright, hafter⟩ := exactly_ending.sound _ _ _ hthird
    obtain ⟨blanks, hblanks, htext, -⟩ := exists_blanks behind
    obtain ⟨blanks', hblanks', htext', -⟩ := exists_blanks after
    dsimp only at hbehind hafter
    refine ⟨left, right, ⟨hleft, hright, blanks, blanks', hblanks, hblanks', ?_⟩, rfl⟩
    rw [← hafter, ← htext', ← hbehind, ← htext]
  · rintro ⟨left, right, ⟨hleft, hright, blanks, blanks', hblanks, hblanks', rfl⟩, rfl⟩
    have hends : EndsRun isBlank (right ++ rest).head? := by
      obtain ⟨c, right', rfl⟩ := List.exists_cons_of_ne_nil (apart_endingShapes.ne_nil hright)
      exact endsRun_some.2 (apart_endingShapes.isSolid hright c List.mem_cons_self).1.isBlank
    refine ⟨_, exactly_beginning.of_append hleft _, ([ '-' ], blanks' ++ (right ++ rest)), ?_,
      (right, rest), ?_, rfl⟩
    · dsimp only
      rw [dropWhile_run hblanks (endsRun_some.2 (by decide))]
      rfl
    · dsimp only
      rw [dropWhile_run hblanks' hends]
      exact exactly_ending.of_append hright rest

theorem endAtMidnight_eq_some_iff :
    endAtMidnight before text = some (new, rest) ↔
      isWordChar? rest.head? = false ∧ ∃ clock, Fits clockShape clock ∧
        text = clock ++ ("-00:00".toList ++ rest) ∧ new = clock ++ "-24:00".toList := by
  simp only [endAtMidnight, Option.bind_eq_bind, Option.bind_eq_some_iff, Option.guard_eq_some',
    Bool.not_eq_true', exists_const]
  constructor
  · rintro ⟨⟨clock, _⟩, hfirst, ⟨_, _⟩, hsecond, hafter, heq⟩
    obtain ⟨rfl, rfl⟩ := Prod.mk.inj (Option.some.inj heq)
    obtain ⟨hclock, rfl⟩ := exactly_clock.sound _ _ _ hfirst
    obtain ⟨rfl, rfl⟩ := (Recogniser.exactly_word _).sound _ _ _ hsecond
    exact ⟨hafter, clock, hclock, rfl, rfl⟩
  · rintro ⟨hafter, clock, hclock, rfl, rfl⟩
    exact ⟨_, exactly_clock.of_append hclock _, _, (Recogniser.exactly_word _).of_append rfl rest,
      hafter, rfl⟩

/-! ### Spans that are joined -/

/-- Some characters, of which none stands between the parts of a text. -/
def SolidText (text : List Char) : Prop := text ≠ [] ∧ ∀ c ∈ text, IsSolid c

theorem solidText_of_all (hne : text ≠ []) (h : (text.all fun c => IsSolid c) = true) :
    SolidText text :=
  ⟨hne, List.all_iff_forall_prop.1 h⟩

theorem SolidText.append {front back : List Char} (h : SolidText front) (h' : SolidText back) :
    SolidText (front ++ back) :=
  ⟨List.append_ne_nil_of_left_ne_nil h.1 _, List.forall_mem_append.2 ⟨h.2, h'.2⟩⟩

theorem Apart.solidText {shapes : List (List Mark)} (h : Apart shapes)
    (htext : FitsAny shapes text) : SolidText text :=
  ⟨h.ne_nil htext, fun c hc => (h.isSolid htext c hc).1⟩

/-- A clock time, or an event in small letters. -/
def IsMoment (text : List Char) : Prop :=
  Fits clockShape text ∨ ∃ event ∈ eventWords, text = event.toList

/-- An event that is moved by some time, in parentheses. -/
def IsMovedEvent (text : List Char) : Prop :=
  ∃ event sign clock, event ≠ [] ∧ (∀ c ∈ event, isSmallLetter c = true) ∧
    (sign = '+' ∨ sign = '-') ∧ Fits clockShape clock ∧
    text = '(' :: (event ++ sign :: (clock ++ [')']))

theorem fitsAny_of_isMoment {sign : Char} (h : IsMoment text ∨ text = [sign]) :
    FitsAny ([clockShape] ++ eventShapes ++ [[.sign sign]]) text := by
  rcases h with (hclock | ⟨event, hevent, rfl⟩) | rfl
  · exact ⟨clockShape, by simp, hclock⟩
  · have hfolds : ∀ event ∈ eventWords, (event.toList.all fun c => foldsTo c c) = true := by decide
    refine ⟨event.toList.map .letter, ?_, ?_⟩
    · exact List.mem_append_left _ (List.mem_append_right _ (List.mem_map_of_mem hevent))
    · rw [Fits, List.forall₂_map_left_iff]
      exact List.forall₂_same.2 (List.all_eq_true.1 (hfolds event hevent))
  · exact ⟨[.sign sign], by simp, fits_singleton.2 ⟨sign, beq_self_eq_true sign, rfl⟩⟩

/-- What may end a span has no character that stands between the parts of a text. -/
theorem solidText_of_isMoment (h : IsMoment text ∨ IsMovedEvent text) : SolidText text := by
  rcases h with hmoment | ⟨event, sign, clock, hne, hevent, hsign, hclock, rfl⟩
  · exact apart_endingShapes.solidText (fitsAny_of_isMoment (.inl hmoment))
  · have hletters : SolidText event := ⟨hne, fun c hc =>
      isSolid_of_isLetter (by rw [isLetter, hevent c hc]; rfl)⟩
    have htime := apart_endingShapes.solidText (fitsAny_of_isMoment (.inl (.inl hclock)))
    have hopened : SolidText ['('] := solidText_of_all (by decide) (by decide)
    have hclosed : SolidText [')'] := solidText_of_all (by decide) (by decide)
    have hsigned : SolidText [sign] := by
      rcases hsign with rfl | rfl <;> exact solidText_of_all (by decide) (by decide)
    exact hopened.append (hletters.append (hsigned.append (htime.append hclosed)))

/-- A span begins or ends with a moment, or with what else is recognised at that place. -/
theorem exactly_isMoment {recogniser : Recogniser} {L : List Char → Prop}
    (h : recogniser.Exactly L)
    (hone : ∀ {part part' rest rest'}, (IsMoment part ∨ L part) → (IsMoment part' ∨ L part') →
      part ++ rest = part' ++ rest' → part = part') :
    Recogniser.Exactly (anyOf? ([clock?] ++ eventWords.map word? ++ [recogniser]))
      fun part => IsMoment part ∨ L part := by
  let words : List (List Char → Prop) := eventWords.map fun event => (· = event.toList)
  have hwords : List.Forall₂ Recogniser.Exactly (eventWords.map word?) words := by
    rw [List.forall₂_map_left_iff, List.forall₂_map_right_iff]
    exact List.forall₂_same.2 fun event _ => Recogniser.exactly_word event
  have hany : ∀ part, (∃ M ∈ [Fits clockShape] ++ words ++ [L], M part) ↔
      IsMoment part ∨ L part := by
    simp [words, IsMoment, or_assoc]
  refine (Recogniser.exactly_anyOf (List.rel_append (List.rel_append
    (.cons exactly_clock .nil) hwords) (.cons h .nil)) ?_).congr hany
  exact fun hpart hpart' => hone ((hany _).1 hpart) ((hany _).1 hpart')

theorem exactly_isMoment_sign {sign : Char}
    (h : Apart ([clockShape] ++ eventShapes ++ [[.sign sign]])) :
    Recogniser.Exactly (anyOf? ([clock?] ++ eventWords.map word? ++ [charOf? (· == sign)]))
      fun part => IsMoment part ∨ part = [sign] := by
  refine exactly_isMoment ((Recogniser.exactly_charOf _).congr fun part => ?_)
    fun hpart hpart' heq => ?_
  · simp
  · exact (h.append_inj (fitsAny_of_isMoment hpart) (fitsAny_of_isMoment hpart') heq).1

/-- All small letters up to something else are recognised. -/
theorem smallLetters_eq_some_iff {letters : List Char} :
    smallLetters? text = some (letters, rest) ↔
      letters ≠ [] ∧ (∀ c ∈ letters, isSmallLetter c = true) ∧
        EndsRun isSmallLetter rest.head? ∧ text = letters ++ rest := by
  unfold smallLetters?
  dsimp only
  constructor
  · intro h
    split at h
    · cases h
    · rename_i hne
      obtain ⟨rfl, rfl⟩ := Prod.mk.inj (Option.some.inj h)
      refine ⟨by simpa using hne, fun c hc => List.all_eq_true.1 List.all_takeWhile c hc,
        fun c hc => ?_, List.takeWhile_append_dropWhile.symm⟩
      have hnot := List.head?_dropWhile_not isSmallLetter text
      rw [hc] at hnot
      simpa using hnot
  · rintro ⟨hne, hletters, hends, rfl⟩
    rw [takeWhile_run hletters hends, dropWhile_run hletters hends]
    exact if_neg (by simpa using hne)

theorem exactly_movedEvent : movedEvent?.Exactly IsMovedEvent := by
  intro text part rest
  simp only [movedEvent?, Recogniser.both_eq_some]
  constructor
  · rintro ⟨_, _, _, hopened, ⟨event, _, _, hevent, ⟨_, _, _, hsign, ⟨clock, _, _, hclock, hclosed,
      rfl⟩, rfl⟩, rfl⟩, rfl⟩
    obtain ⟨_, hc, rfl, rfl⟩ := charOf_eq_some.1 hopened
    obtain rfl := beq_iff_eq.1 hc
    obtain ⟨hne, hletters, -, rfl⟩ := smallLetters_eq_some_iff.1 hevent
    obtain ⟨sign, hsign', rfl, rfl⟩ := charOf_eq_some.1 hsign
    obtain ⟨hclock', rfl⟩ := exactly_clock.sound _ _ _ hclock
    obtain ⟨_, hc, rfl, rfl⟩ := charOf_eq_some.1 hclosed
    obtain rfl := beq_iff_eq.1 hc
    exact ⟨⟨event, sign, clock, hne, hletters, by simpa using hsign', hclock', rfl⟩, by simp⟩
  · rintro ⟨⟨event, sign, clock, hne, hletters, hsign, hclock, rfl⟩, rfl⟩
    have hends : isSmallLetter sign = false := by rcases hsign with rfl | rfl <;> decide
    refine ⟨['('], event ++ sign :: (clock ++ ')' :: rest), _, by simp [charOf?],
      ⟨event, sign :: (clock ++ ')' :: rest), _, ?_, ⟨[sign], clock ++ ')' :: rest, _, ?_,
        ⟨clock, ')' :: rest, [')'], exactly_clock.of_append hclock _, rfl, rfl⟩, rfl⟩, rfl⟩, rfl⟩
    · exact smallLetters_eq_some_iff.2 ⟨hne, hletters, endsRun_some.2 hends, rfl⟩
    · exact charOf_eq_some.2 ⟨sign, by simpa using hsign, rfl, rfl⟩

/-- An event that is moved is no moment, and is told by its parentheses. -/
theorem eq_of_isMovedEvent {part part' rest' : List Char}
    (h : IsMoment part ∨ IsMovedEvent part) (h' : IsMoment part' ∨ IsMovedEvent part')
    (heq : part ++ rest = part' ++ rest') : part = part' := by
  have hne : ∀ {part part' rest rest' : List Char}, IsMoment part → IsMovedEvent part' →
      part ++ rest ≠ part' ++ rest' := by
    rintro part _ rest rest' hmoment ⟨event, sign, clock, -, -, -, -, rfl⟩ heq
    -- The moment would be the parenthesis.
    have hparenthesis : FitsAny endingShapes ['('] := fitsAny_of_isMoment (.inr rfl)
    obtain ⟨rfl, -⟩ :=
      apart_endingShapes.append_inj (fitsAny_of_isMoment (.inl hmoment)) hparenthesis heq
    rcases hmoment with hclock | ⟨event, hevent, heq⟩
    · exact absurd hclock.length_eq (by decide)
    · have hwords : ∀ event ∈ eventWords, event.toList ≠ ['('] := by decide
      exact hwords event hevent heq.symm
  rcases h with hmoment | hmoved
  · rcases h' with hmoment' | hmoved'
    · exact (apart_endingShapes.append_inj (fitsAny_of_isMoment (.inl hmoment))
        (fitsAny_of_isMoment (.inl hmoment')) heq).1
    · exact absurd heq (hne hmoment hmoved')
  · rcases h' with hmoment' | hmoved'
    · exact absurd heq.symm (hne hmoment' hmoved)
    · have hsome := exactly_movedEvent.of_append hmoved rest
      rw [heq, exactly_movedEvent.of_append hmoved' rest'] at hsome
      exact (Prod.mk.inj (Option.some.inj hsome)).1.symm

theorem exactly_beginningWord :
    (beginning? word?).Exactly fun part => IsMoment part ∨ part = [')'] :=
  exactly_isMoment_sign apart_beginningShapes

theorem exactly_endingWord : (ending? word?).Exactly fun part => IsMoment part ∨ part = ['('] :=
  exactly_isMoment_sign apart_endingShapes

theorem exactly_wholeEnding :
    wholeEnding?.Exactly fun part => IsMoment part ∨ IsMovedEvent part :=
  exactly_isMoment exactly_movedEvent eq_of_isMovedEvent

theorem joinSpans_eq_some_iff :
    joinSpans before text = some (new, rest) ↔
      ∃ first last next, (IsMoment first ∨ first = [')']) ∧ (IsMoment last ∨ IsMovedEvent last) ∧
        (IsMoment next ∨ next = ['(']) ∧ text = first ++ '-' :: (last ++ ' ' :: (next ++ rest)) ∧
        new = first ++ '-' :: (last ++ ',' :: next) := by
  simp only [joinSpans, Option.bind_eq_bind, Option.bind_eq_some_iff]
  constructor
  · rintro ⟨⟨first, _⟩, hfirst, ⟨_, _⟩, hhyphen, ⟨last, _⟩, hlast, ⟨_, _⟩, hspace, ⟨next, _⟩, hnext,
      heq⟩
    obtain ⟨rfl, rfl⟩ := Prod.mk.inj (Option.some.inj heq)
    obtain ⟨hfirst', rfl⟩ := exactly_beginningWord.sound _ _ _ hfirst
    obtain ⟨_, hc, -, rfl⟩ := charOf_eq_some.1 hhyphen
    obtain rfl := beq_iff_eq.1 hc
    obtain ⟨hlast', rfl⟩ := exactly_wholeEnding.sound _ _ _ hlast
    obtain ⟨_, hc, -, rfl⟩ := charOf_eq_some.1 hspace
    obtain rfl := beq_iff_eq.1 hc
    obtain ⟨hnext', rfl⟩ := exactly_endingWord.sound _ _ _ hnext
    exact ⟨first, last, next, hfirst', hlast', hnext', rfl, by simp⟩
  · rintro ⟨first, last, next, hfirst, hlast, hnext, rfl, rfl⟩
    exact ⟨_, exactly_beginningWord.of_append hfirst _, _, charOf_eq_some.2 ⟨'-', rfl, rfl, rfl⟩,
      _, exactly_wholeEnding.of_append hlast _, _, charOf_eq_some.2 ⟨' ', rfl, rfl, rfl⟩, _,
      exactly_endingWord.of_append hnext rest, by simp⟩

/-- What stands before and behind the space that is found. -/
theorem of_joinSpans_eq_some (h : joinSpans before text = some (new, rest)) :
    ∃ first last next, FitsAny beginningShapes first ∧ SolidText last ∧
      FitsAny endingShapes next ∧ text = first ++ '-' :: (last ++ ' ' :: (next ++ rest)) ∧
      new = first ++ '-' :: (last ++ ',' :: next) := by
  obtain ⟨first, last, next, hfirst, hlast, hnext, hparts⟩ := joinSpans_eq_some_iff.1 h
  exact ⟨first, last, next, fitsAny_of_isMoment hfirst, solidText_of_isMoment hlast,
    fitsAny_of_isMoment hnext, hparts⟩

end Timetable.Tidy
