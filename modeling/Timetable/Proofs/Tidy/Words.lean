import Mathlib.Data.List.TakeWhile
import Timetable.Proofs.Tidy.Pattern

/-!
Corrections of words.

The letter for hours is looked for in whole words, and the case of a word is that of all its
letters. After both corrections of the letter for hours, no word of a text is an hour with the
letter (`not_isHourWord_of_mem_runsOf`), and after that of the case, all words are in their
canonical case (`canonicalWord_of_mem_runsOf`).
-/

namespace Timetable.Tidy

/-! ### Corrections that look at runs -/

variable {correction : Correction} {accepts : Char → Bool}

theorem endsRun_isWordChar_iff {next : Option Char} :
    EndsRun isWordChar next ↔ isWordChar? next = false := by
  cases next with
  | none => exact iff_of_true endsRun_none rfl
  | some c => exact endsRun_some

/-- A correction replaces some words between word boundaries. -/
structure CorrectsWords (correction : Correction) (L : List Char → List Char → Prop) : Prop where
  ne_nil : ∀ {word new}, L word new → word ≠ []
  isWordChar : ∀ {word new}, L word new → ∀ c ∈ word, isWordChar c = true
  eq_some_iff : ∀ {before text new rest}, correction before text = some (new, rest) ↔
    isWordChar? before = false ∧ isWordChar? rest.head? = false ∧
      ∃ word, L word new ∧ text = word ++ rest

namespace CorrectsWords

variable {L : List Char → List Char → Prop} {run new rest : List Char}

theorem of_run (h : CorrectsWords correction L) (hrun : ∀ c ∈ run, Timetable.isWordChar c = true) :
    correction none run = some (new, rest) ↔ L run new ∧ rest = [] := by
  rw [h.eq_some_iff]
  constructor
  · rintro ⟨-, hafter, word, hL, heq⟩
    obtain ⟨rfl, rfl⟩ := run_inj hrun (show EndsRun _ [].head? from endsRun_none) (h.isWordChar hL)
      (endsRun_isWordChar_iff.2 hafter) ((List.append_nil run).trans heq)
    exact ⟨hL, rfl⟩
  · rintro ⟨hL, rfl⟩
    exact ⟨rfl, rfl, run, hL, (List.append_nil run).symm⟩

theorem onRuns (h : CorrectsWords correction L) : OnRuns correction Timetable.isWordChar where
  other before c rest hc := by
    refine Option.eq_none_iff_forall_not_mem.2 fun ⟨new, rest'⟩ hsome => ?_
    obtain ⟨-, -, word, hL, htext⟩ := h.eq_some_iff.1 hsome
    obtain ⟨d, word, rfl⟩ := List.exists_cons_of_ne_nil (h.ne_nil hL)
    obtain ⟨rfl, -⟩ := List.cons.inj htext
    rw [h.isWordChar hL c List.mem_cons_self] at hc
    cases hc
  whole {before run rest} hbefore hne hrun hrest := by
    refine Option.ext fun ⟨new, rest'⟩ => ?_
    rw [Option.map_eq_some_iff, h.eq_some_iff]
    constructor
    · rintro ⟨-, hafter, word, hL, htext⟩
      obtain ⟨rfl, rfl⟩ := run_inj hrun hrest (h.isWordChar hL)
        (endsRun_isWordChar_iff.2 hafter) htext
      exact ⟨(new, []), (h.of_run hrun).2 ⟨hL, rfl⟩, rfl⟩
    · rintro ⟨⟨_, _⟩, hsome, heq⟩
      obtain ⟨rfl, rfl⟩ := Prod.mk.inj heq
      exact ⟨endsRun_isWordChar_iff.1 hbefore, endsRun_isWordChar_iff.1 hrest, run,
        ((h.of_run hrun).1 hsome).1, rfl⟩
  inside _ _ _ c text hc := by
    refine Option.eq_none_iff_forall_not_mem.2 fun ⟨new, rest⟩ hsome => ?_
    obtain ⟨hbefore, -⟩ := h.eq_some_iff.1 hsome
    rw [isWordChar?, hc] at hbefore
    cases hbefore

/-- A word is replaced, or it stays. -/
theorem onWhole (h : CorrectsWords correction L) (hrun : ∀ c ∈ run, Timetable.isWordChar c = true) :
    L run (correction.onWhole run) ∨ correction.onWhole run = run ∧ ∀ new, ¬ L run new := by
  unfold Correction.onWhole
  cases hresult : correction none run with
  | some result => exact .inl ((h.of_run hrun).1 hresult).1
  | none =>
    refine .inr ⟨rfl, fun new hL => ?_⟩
    rw [(h.of_run hrun).2 ⟨hL, rfl⟩] at hresult
    cases hresult

/-- Where the words of the corrected text come from. -/
theorem of_mem_runsOf_correct (h : CorrectsWords correction L) {text word : List Char}
    (hmem : word ∈ runsOf Timetable.isWordChar (correct correction text)) :
    (word ∈ runsOf Timetable.isWordChar text ∧ ∀ new, ¬ L word new) ∨
      ∃ run new, L run new ∧ word ∈ runsOf Timetable.isWordChar new := by
  rw [h.onRuns.runsOf_correct] at hmem
  obtain ⟨run, hrun, hword⟩ := List.mem_flatMap.1 hmem
  obtain ⟨hne, hchars⟩ := of_mem_runsOf hrun
  rcases h.onWhole hchars with hL | ⟨hself, hnone⟩
  · exact .inr ⟨run, _, hL, hword⟩
  · rw [hself, runsOf_run hne hchars] at hword
    obtain rfl := List.mem_singleton.1 hword
    exact .inl ⟨hrun, hnone⟩

theorem correct_eq_self (h : CorrectsWords correction L) {text : List Char}
    (hwords : ∀ word ∈ runsOf Timetable.isWordChar text, ∀ new, ¬ L word new) :
    correct correction text = text :=
  h.onRuns.correct_eq_self fun run hmem =>
    ((h.onWhole (of_mem_runsOf hmem).2).resolve_left (hwords run hmem _)).1

end CorrectsWords

/-- A correction that replaces the characters of a class at a place looks at runs of them. -/
theorem onRuns_of_takeWhile {g : List Char → List Char}
    (h : ∀ before text, correction before text =
      if (text.takeWhile accepts).isEmpty then none
      else some (g (text.takeWhile accepts), text.dropWhile accepts)) :
    OnRuns correction accepts where
  other before c rest hc := by
    rw [h, List.takeWhile_cons_of_neg (by simp [hc])]
    rfl
  whole {before run rest} _ hne hrun hrest := by
    have hne' : ¬ run.isEmpty = true := by simpa using hne
    rw [h, h, takeWhile_run hrun hrest, dropWhile_run hrun hrest,
      List.takeWhile_eq_self_iff.2 hrun, if_neg hne', if_neg hne']
    rfl
  inside {run} hne hrun hnone := by
    rw [h, List.takeWhile_eq_self_iff.2 hrun, if_neg (by simpa using hne)] at hnone
    cases hnone

theorem onWhole_of_takeWhile {g : List Char → List Char}
    (h : ∀ before text, correction before text =
      if (text.takeWhile accepts).isEmpty then none
      else some (g (text.takeWhile accepts), text.dropWhile accepts)) {run : List Char}
    (hne : run ≠ []) (hrun : ∀ c ∈ run, accepts c = true) : correction.onWhole run = g run := by
  rw [Correction.onWhole, h, List.takeWhile_eq_self_iff.2 hrun, if_neg (by simpa using hne)]
  rfl

/-! ### The letter for hours -/

theorem IsHour.isDecimalDigit {hour : List Char} (h : IsHour hour) :
    ∀ c ∈ hour, isDecimalDigit c = true := by
  rcases h with hone | htwo
  · exact (fits_digits 1).1 hone |>.2
  · exact (fits_digits 2).1 htwo |>.2

theorem isWordChar_of_isHourLetter {c : Char} (h : isHourLetter c = true) :
    isWordChar c = true := by
  simp only [isHourLetter, Bool.or_eq_true, beq_iff_eq] at h
  rcases h with rfl | rfl <;> decide +kernel

theorem correctsWords_hourLetterInside : CorrectsWords hourLetterInside LetterInside where
  ne_nil := by
    rintro _ _ ⟨hour, letter, minute, -, -, -, rfl, -⟩
    simp
  isWordChar := by
    rintro _ _ ⟨hour, letter, minute, hhour, hletter, hminute, rfl, -⟩
    refine List.forall_mem_append.2 ⟨fun c hc => ?_, List.forall_mem_cons.2 ⟨?_, fun c hc => ?_⟩⟩
    · exact isWordChar_of_isDecimalDigit (hhour.isDecimalDigit c hc)
    · exact isWordChar_of_isHourLetter hletter
    · exact isWordChar_of_isDecimalDigit ((fits_digits 2).1 hminute |>.2 c hc)
  eq_some_iff := hourLetterInside_eq_some_iff

theorem correctsWords_hourLetterAfter : CorrectsWords hourLetterAfter LetterAfter where
  ne_nil := by
    rintro _ _ ⟨hour, letter, -, -, rfl, -⟩
    simp
  isWordChar := by
    rintro _ _ ⟨hour, letter, hhour, hletter, rfl, -⟩
    refine List.forall_mem_append.2 ⟨fun c hc => ?_, List.forall_mem_singleton.2 ?_⟩
    · exact isWordChar_of_isDecimalDigit (hhour.isDecimalDigit c hc)
    · exact isWordChar_of_isHourLetter hletter
  eq_some_iff := hourLetterAfter_eq_some_iff

/-- An hour with the letter for hours between it and minutes, or after it. -/
def IsHourWord (word : List Char) : Prop :=
  (∃ new, LetterInside word new) ∨ ∃ new, LetterAfter word new

theorem not_isHourWord_of_digits {word : List Char} (h : ∀ c ∈ word, isDecimalDigit c = true) :
    ¬ IsHourWord word := by
  have hno : ∀ letter ∈ word, isHourLetter letter ≠ true := by
    intro letter hmem hletter
    exact Bool.noConfusion ((h letter hmem).symm.trans (isDecimalDigit_of_isHourLetter hletter))
  rintro (⟨_, hour, letter, minute, -, hletter, -, rfl, -⟩ | ⟨_, hour, letter, -, hletter, rfl, -⟩)
  · exact hno letter (by simp) hletter
  · exact hno letter (by simp) hletter

/-- The words of a clock time are numbers. -/
theorem isDecimalDigit_of_mem_runsOf {new word : List Char}
    (hnew : ∀ c ∈ new, isDecimalDigit c = true ∨ c = ':') (h : word ∈ runsOf isWordChar new) :
    ∀ c ∈ word, isDecimalDigit c = true := by
  intro c hc
  rcases hnew c (mem_of_mem_runsOf h hc) with hdigit | rfl
  · exact hdigit
  · exact absurd ((of_mem_runsOf h).2 ':' hc) (by decide +kernel)

theorem LetterInside.digits_or_colon {word new : List Char} (h : LetterInside word new) :
    ∀ c ∈ new, isDecimalDigit c = true ∨ c = ':' := by
  obtain ⟨hour, _, minute, hhour, -, hminute, -, rfl⟩ := h
  refine List.forall_mem_append.2 ⟨fun c hc => .inl (hhour.isDecimalDigit c hc),
    List.forall_mem_cons.2 ⟨.inr rfl, fun c hc => .inl ?_⟩⟩
  exact (fits_digits 2).1 hminute |>.2 c hc

theorem LetterAfter.digits_or_colon {word new : List Char} (h : LetterAfter word new) :
    ∀ c ∈ new, isDecimalDigit c = true ∨ c = ':' := by
  obtain ⟨hour, _, hhour, -, -, rfl⟩ := h
  exact List.forall_mem_append.2 ⟨fun c hc => .inl (hhour.isDecimalDigit c hc),
    List.all_iff_forall_prop.1 (by decide)⟩

/-- After both corrections, no word is an hour with the letter for hours. -/
theorem not_isHourWord_of_mem_runsOf {text word : List Char}
    (h : word ∈ runsOf isWordChar (correct hourLetterAfter (correct hourLetterInside text))) :
    ¬ IsHourWord word := by
  rcases correctsWords_hourLetterAfter.of_mem_runsOf_correct h with
    ⟨hword, hafter⟩ | ⟨run, new, hL, hword⟩
  · rcases correctsWords_hourLetterInside.of_mem_runsOf_correct hword with
      ⟨-, hinside⟩ | ⟨run, new, hL, hword⟩
    · rintro (⟨new, hL⟩ | ⟨new, hL⟩)
      · exact hinside new hL
      · exact hafter new hL
    · exact not_isHourWord_of_digits (isDecimalDigit_of_mem_runsOf hL.digits_or_colon hword)
  · exact not_isHourWord_of_digits (isDecimalDigit_of_mem_runsOf hL.digits_or_colon hword)

/-! ### The case of keywords -/

theorem canonicalCase_eq (before : Option Char) (text : List Char) :
    canonicalCase before text =
      if (text.takeWhile isLetter).isEmpty then none
      else some (canonicalWord (text.takeWhile isLetter), text.dropWhile isLetter) := rfl

theorem onRuns_canonicalCase : OnRuns canonicalCase isLetter :=
  onRuns_of_takeWhile canonicalCase_eq

/-- A word becomes a keyword that it is in another case, or it stays. -/
theorem canonicalWord_cases (word : List Char) :
    (∃ keyword ∈ keywords, canonicalWord word = keyword.toList ∧
      keyword.toList.map Char.toLower = word.map Char.toLower) ∨ canonicalWord word = word := by
  unfold canonicalWord
  split
  · rename_i keyword hfind
    exact .inl ⟨keyword, List.mem_of_find?_eq_some hfind, rfl,
      beq_iff_eq.1 (List.find?_some (p := fun keyword : String =>
        keyword.toList.map Char.toLower == word.map Char.toLower) hfind)⟩
  · exact .inr rfl

theorem canonicalWord_keyword : ∀ keyword ∈ keywords,
    canonicalWord keyword.toList = keyword.toList := by decide

theorem canonicalWord_canonicalWord (word : List Char) :
    canonicalWord (canonicalWord word) = canonicalWord word := by
  rcases canonicalWord_cases word with ⟨keyword, hmem, heq, -⟩ | heq
  · rw [heq, canonicalWord_keyword keyword hmem]
  · rw [heq, heq]

theorem isLetter_keyword : ∀ keyword ∈ keywords, keyword.toList ≠ [] ∧
    keyword.toList.all isLetter = true := by decide

theorem canonicalWord_letters {word : List Char} (hne : word ≠ [])
    (h : ∀ c ∈ word, isLetter c = true) :
    canonicalWord word ≠ [] ∧ ∀ c ∈ canonicalWord word, isLetter c = true := by
  rcases canonicalWord_cases word with ⟨keyword, hmem, heq, -⟩ | heq
  · obtain ⟨hne', hletters⟩ := isLetter_keyword keyword hmem
    rw [heq]
    exact ⟨hne', List.all_eq_true.1 hletters⟩
  · rw [heq]
    exact ⟨hne, h⟩

/-- Words in their canonical case. -/
theorem canonicalWord_of_mem_runsOf {text word : List Char}
    (h : word ∈ runsOf isLetter (correct canonicalCase text)) : canonicalWord word = word := by
  rw [onRuns_canonicalCase.runsOf_correct] at h
  obtain ⟨run, hrun, hword⟩ := List.mem_flatMap.1 h
  obtain ⟨hne, hletters⟩ := of_mem_runsOf hrun
  obtain ⟨hne', hletters'⟩ := canonicalWord_letters hne hletters
  rw [onWhole_of_takeWhile canonicalCase_eq hne hletters, runsOf_run hne' hletters'] at hword
  obtain rfl := List.mem_singleton.1 hword
  exact canonicalWord_canonicalWord run

theorem correct_canonicalCase_eq_self {text : List Char}
    (h : ∀ word ∈ runsOf isLetter text, canonicalWord word = word) :
    correct canonicalCase text = text := by
  refine onRuns_canonicalCase.correct_eq_self fun run hrun => ?_
  obtain ⟨hne, hletters⟩ := of_mem_runsOf hrun
  rw [onWhole_of_takeWhile canonicalCase_eq hne hletters, h run hrun]

end Timetable.Tidy
