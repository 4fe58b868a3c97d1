import Timetable.Proofs.Tidy.Hyphen
import Timetable.Tidy.Basic

/-!
What the corrections of plain text write.

All of them write texts without blanks, semicolons and quotes (`Neat`), so that whatever is kept
where a part of a text is replaced by such a text is kept by `tidyPlain` (`keeps_tidyPlain`). All
but the correction of commas write texts that neither begin nor end with a comma (`Firm`): once
there are no blanks around commas, none of them brings blanks and commas together.
-/

namespace Timetable.Tidy

variable {before : Option Char} {text new rest out : List Char} {correction : Correction}

/-! ### Neat texts -/

/-- A text without blanks, semicolons and quotes. -/
structure Neat (text : List Char) : Prop where
  ne_nil : text ≠ []
  isBlank : ∀ c ∈ text, isBlank c = false
  ne_semicolon : ∀ c ∈ text, c ≠ ';'
  ne_quote : ∀ c ∈ text, c ≠ '"'

/-- A neat text that neither begins nor ends with a comma. -/
structure Firm (text : List Char) : Prop extends Neat text where
  head : ∀ c ∈ text.head?, c ≠ ','
  last : ∀ c ∈ text.getLast?, c ≠ ','

theorem SolidText.firm (h : SolidText text) : Firm text where
  ne_nil := h.1
  isBlank c hc := (h.2 c hc).isBlank
  ne_semicolon c hc := (h.2 c hc).ne_semicolon
  ne_quote c hc := (h.2 c hc).ne_quote
  head c hc := (h.2 c (List.mem_of_mem_head? hc)).ne_comma
  last c hc := (h.2 c (List.mem_of_getLast? hc)).ne_comma

/-- Texts with a comma between them. -/
theorem firm_join {front back : List Char} (h : SolidText front) (h' : SolidText back) :
    Firm (front ++ ',' :: back) := by
  have hall : ∀ {P : Char → Prop}, P ',' → (∀ c, IsSolid c → P c) →
      ∀ c ∈ front ++ ',' :: back, P c := by
    intro P hcomma hsolid
    exact List.forall_mem_append.2 ⟨fun c hc => hsolid c (h.2 c hc),
      List.forall_mem_cons.2 ⟨hcomma, fun c hc => hsolid c (h'.2 c hc)⟩⟩
  refine ⟨⟨by simp, hall (by decide) fun _ h => h.isBlank,
    hall (by decide) fun _ h => h.ne_semicolon, hall (by decide) fun _ h => h.ne_quote⟩, ?_, ?_⟩
  · intro c hc
    rw [List.head?_append_of_ne_nil _ h.1] at hc
    exact h.firm.head c hc
  · intro c hc
    obtain ⟨d, back, rfl⟩ := List.exists_cons_of_ne_nil h'.1
    rw [List.getLast?_append, List.getLast?_cons_cons] at hc
    refine h'.firm.last c ?_
    rw [List.getLast?_cons] at hc ⊢
    exact hc

/-- All that a correction writes. -/
def Writes (correction : Correction) (P : List Char → Prop) : Prop :=
  ∀ before text new rest, correction before text = some (new, rest) → P new

theorem solid_of_digits_or_colon (hne : new ≠ [])
    (h : ∀ c ∈ new, isDecimalDigit c = true ∨ c = ':') : SolidText new := by
  refine ⟨hne, fun c hc => ?_⟩
  rcases h c hc with hdigit | rfl
  · exact isSolid_of_isDecimalDigit hdigit
  · decide

theorem solid_hyphen {front back : List Char} (h : SolidText front) (h' : SolidText back) :
    SolidText (front ++ '-' :: back) :=
  h.append ((show SolidText ['-'] from solidText_of_all (by decide) (by decide)).append h')

theorem writes_tightenComma : Writes tightenComma Neat := by
  intro before text new rest h
  obtain ⟨-, left, right, -, -, -, rfl⟩ := tightenComma_eq_some_iff.1 h
  refine ⟨by decide, ?_, ?_, ?_⟩ <;> exact List.forall_mem_singleton.2 (by decide)

theorem writes_hourLetterInside : Writes hourLetterInside SolidText := by
  intro before text new rest h
  obtain ⟨-, -, word, hL, -⟩ := hourLetterInside_eq_some_iff.1 h
  refine solid_of_digits_or_colon ?_ hL.digits_or_colon
  obtain ⟨hour, _, minute, -, -, -, -, rfl⟩ := hL
  simp

theorem writes_hourLetterAfter : Writes hourLetterAfter SolidText := by
  intro before text new rest h
  obtain ⟨-, -, word, hL, -⟩ := hourLetterAfter_eq_some_iff.1 h
  refine solid_of_digits_or_colon ?_ hL.digits_or_colon
  obtain ⟨hour, _, -, -, -, rfl⟩ := hL
  simp

theorem writes_padHour : Writes padHour SolidText := by
  intro before text new rest h
  obtain ⟨-, hour, minute, hhour, hminute, -, rfl⟩ := padHour_eq_some_iff.1 h
  refine solid_of_digits_or_colon (by simp) ?_
  simp only [List.forall_mem_cons]
  exact ⟨.inl (by decide), .inl hhour, .inr trivial,
    fun c hc => .inl ((fits_digits 2).1 hminute |>.2 c hc)⟩

theorem writes_tightenHyphen : Writes tightenHyphen SolidText := by
  intro before text new rest h
  obtain ⟨left, right, ⟨hleft, hright, -⟩, rfl⟩ := tightenHyphen_eq_some_iff.1 h
  exact solid_hyphen (apart_beginningShapes.solidText hleft) (apart_endingShapes.solidText hright)

theorem writes_endAtMidnight : Writes endAtMidnight SolidText := by
  intro before text new rest h
  obtain ⟨-, clock, hclock, -, rfl⟩ := endAtMidnight_eq_some_iff.1 h
  exact (apart_beginningShapes.solidText ⟨_, by decide, hclock⟩).append
    (solidText_of_all (by decide) (by decide))

theorem writes_canonicalCase : Writes canonicalCase SolidText := by
  intro before text new rest h
  rw [canonicalCase_eq] at h
  split at h
  · cases h
  · rename_i hne
    obtain ⟨rfl, -⟩ := Prod.mk.inj (Option.some.inj h)
    obtain ⟨hne', hletters⟩ := canonicalWord_letters (by simpa using hne)
      fun c hc => List.all_eq_true.1 List.all_takeWhile c hc
    exact ⟨hne', fun c hc => isSolid_of_isLetter (hletters c hc)⟩

theorem writes_joinSpans : Writes joinSpans Firm := by
  intro before text new rest h
  obtain ⟨first, last, next, hfirst, hlast, hnext, -, rfl⟩ :=
    of_joinSpans_eq_some h
  have hfront := solid_hyphen (apart_beginningShapes.solidText hfirst) hlast
  have hjoin := firm_join hfront (apart_endingShapes.solidText hnext)
  rwa [List.append_assoc, List.cons_append] at hjoin

theorem replaces_tightenComma : Replaces tightenComma := by
  intro before text new rest h
  obtain ⟨-, left, right, -, -, rfl, -⟩ := tightenComma_eq_some_iff.1 h
  exact ⟨left ++ ',' :: right, by simp, by simp⟩

theorem CorrectsWords.replaces {L : List Char → List Char → Prop}
    (h : CorrectsWords correction L) : Replaces correction := by
  intro before text new rest hsome
  obtain ⟨-, -, word, hL, rfl⟩ := h.eq_some_iff.1 hsome
  exact ⟨word, h.ne_nil hL, rfl⟩

theorem replaces_padHour : Replaces padHour := by
  intro before text new rest h
  obtain ⟨-, hour, minute, -, -, rfl, -⟩ := padHour_eq_some_iff.1 h
  exact ⟨hour :: ':' :: minute, by simp, rfl⟩

/-! ### What is kept -/

section Keeps

variable {P : List Char → Prop} {Q : List Char → Prop}

theorem Writes.keeps (h : Writes correction Q) (hreplaces : Replaces correction)
    (hstep : ∀ front old new rest, Q new → P (front ++ (old ++ rest)) →
      P (front ++ (new ++ rest))) : ∀ text, P text → P (correct correction text) :=
  fun _ hP => keeps_correct hreplaces
    (fun _ front old new rest hsome => hstep front old new rest (h _ _ _ _ hsome)) hP

theorem Writes.keeps_untilStable (h : Writes correction Q) (hreplaces : Replaces correction)
    (hstep : ∀ front old new rest, Q new → P (front ++ (old ++ rest)) →
      P (front ++ (new ++ rest))) : ∀ text, P text → P (correctUntilStable correction text) :=
  fun _ hP => keeps_correctTimes (h.keeps hreplaces hstep) hP _

/-- What is kept after the commas. -/
theorem keeps_afterCommas
    (hstep : ∀ front old new rest, Firm new → P (front ++ (old ++ rest)) →
      P (front ++ (new ++ rest))) (h : P (correct tightenComma text)) : P (tidyPlain text) := by
  have hsolid : ∀ front old new rest, SolidText new → P (front ++ (old ++ rest)) →
      P (front ++ (new ++ rest)) :=
    fun front old new rest hnew => hstep front old new rest hnew.firm
  refine writes_joinSpans.keeps_untilStable replaces_joinSpans hstep _ ?_
  refine writes_canonicalCase.keeps replaces_canonicalCase hsolid _ ?_
  refine writes_endAtMidnight.keeps_untilStable replaces_endAtMidnight hsolid _ ?_
  refine writes_tightenHyphen.keeps replaces_tightenHyphen hsolid _ ?_
  refine writes_padHour.keeps replaces_padHour hsolid _ ?_
  refine writes_hourLetterAfter.keeps correctsWords_hourLetterAfter.replaces hsolid _ ?_
  exact writes_hourLetterInside.keeps correctsWords_hourLetterInside.replaces hsolid _ h

/-- What is kept where a part of a text without quotes is replaced by a neat text is kept where
such a part is tidied. -/
theorem keeps_tidyPlain
    (hstep : ∀ front old new rest, Neat new → '"' ∉ old → P (front ++ (old ++ rest)) →
      P (front ++ (new ++ rest))) (front back : List Char) (hquote : '"' ∉ text)
    (h : P (front ++ (text ++ back))) :
    '"' ∉ tidyPlain text ∧ P (front ++ (tidyPlain text ++ back)) := by
  have hstep' : ∀ front' old new rest, Neat new →
      '"' ∉ front' ++ (old ++ rest) ∧ P (front ++ (front' ++ (old ++ rest) ++ back)) →
      '"' ∉ front' ++ (new ++ rest) ∧ P (front ++ (front' ++ (new ++ rest) ++ back)) := by
    rintro front' old new rest hnew ⟨hno, hP⟩
    simp only [List.mem_append, not_or] at hno ⊢
    refine ⟨⟨hno.1, fun hmem => hnew.ne_quote _ hmem rfl, hno.2.2⟩, ?_⟩
    have hnew := hstep (front ++ front') old new (rest ++ back) hnew hno.2.1
    simp only [List.append_assoc] at hP hnew ⊢
    exact hnew hP
  let R : List Char → Prop := fun text => '"' ∉ text ∧ P (front ++ (text ++ back))
  refine keeps_afterCommas (P := R)
    (fun front' old new rest hnew => hstep' front' old new rest hnew.toNeat) ?_
  exact writes_tightenComma.keeps (P := R) replaces_tightenComma hstep' _ ⟨hquote, h⟩

end Keeps

/-! ### Commas -/

/-- Of two neighbours, none is a blank if the other one is a comma. -/
def Parted (c d : Char) : Prop := ¬ (isBlank c = true ∧ d = ',') ∧ ¬ (c = ',' ∧ isBlank d = true)

theorem parted_of_isBlank {c d : Char} (hc : isBlank c = false) (hd : isBlank d = false) :
    Parted c d := by
  simp [Parted, hc, hd]

theorem parted_of_left {c : Char} (hblank : isBlank c = false) (hcomma : c ≠ ',') (d : Char) :
    Parted c d := by
  simp [Parted, hblank, hcomma]

theorem parted_of_right {d : Char} (hblank : isBlank d = false) (hcomma : d ≠ ',') (c : Char) :
    Parted c d := by
  simp [Parted, hblank, hcomma]

theorem tightenComma_cons_blank {c : Char} (hc : isBlank c = true) (before' : Option Char)
    (rest : List Char) : tightenComma before (c :: rest) = tightenComma before' rest := by
  unfold tightenComma
  rw [List.dropWhile_cons_of_pos hc]

theorem tightenComma_comma (before : Option Char) (rest : List Char) :
    tightenComma before (',' :: rest) = some ([','], rest.dropWhile isBlank) := rfl

/-- There are no blanks around the commas of a tightened text, and it begins as the text did, or
with a comma that was found at its beginning. -/
theorem Scan.parted (h : Scan tightenComma before text out) :
    out.IsChain Parted ∧ ∀ d ∈ out.head?,
      d = ',' ∧ (tightenComma none text).isSome = true ∨ d ≠ ',' ∧ text.head? = some d := by
  induction h with
  | nil => exact ⟨.nil, nofun⟩
  | @keep before c rest out hnone _ ih =>
    obtain ⟨hchain, hhead⟩ := ih
    have hcomma : c ≠ ',' := by
      rintro rfl
      rw [tightenComma_comma] at hnone
      cases hnone
    refine ⟨List.isChain_cons.2 ⟨fun d hd => ?_, hchain⟩, ?_⟩
    · refine ⟨?_, fun h => hcomma h.1⟩
      rintro ⟨hblank, rfl⟩
      rcases hhead ',' hd with ⟨-, hsome⟩ | ⟨hne, -⟩
      · rw [tightenComma_cons_blank hblank none] at hnone
        rw [hnone] at hsome
        cases hsome
      · exact hne rfl
    · rintro _ ⟨⟩
      exact .inr ⟨hcomma, rfl⟩
  | @replace before old new rest out _ hsome _ ih =>
    obtain ⟨hchain, hhead⟩ := ih
    obtain ⟨hends, -, -, -, -, -, rfl⟩ := tightenComma_eq_some_iff.1 hsome
    refine ⟨List.isChain_cons.2 ⟨fun d hd => ?_, hchain⟩, ?_⟩
    · refine parted_of_isBlank (by decide) ?_
      rcases hhead d hd with ⟨rfl, -⟩ | ⟨-, hrest⟩
      · decide
      · exact hends d hrest
    · rintro _ ⟨⟩
      exact .inl ⟨rfl, Option.isSome_iff_exists.2 ⟨_, hsome⟩⟩

/-- Without blanks around its commas, there is nothing to tighten in a text. -/
theorem correct_tightenComma_eq_self (h : text.IsChain Parted) :
    correct tightenComma text = text := by
  refine correct_eq_self_of_same replaces_tightenComma fun front back new rest htext hsome => ?_
  obtain ⟨-, left, right, hleft, hright, rfl, rfl⟩ := tightenComma_eq_some_iff.1 hsome
  subst htext
  obtain ⟨-, hchain, -⟩ := List.isChain_append.1 h
  have hleft' : left = [] := by
    rcases List.eq_nil_or_concat left with hnil | ⟨left', c, rfl⟩
    · exact hnil
    · obtain ⟨-, -, hparted⟩ := List.isChain_append.1 hchain
      rw [List.concat_eq_append] at hparted hleft
      exact absurd ⟨hleft c (by simp), rfl⟩
        (hparted c List.getLast?_concat ',' rfl).1
  have hright' : right = [] := by
    cases right with
    | nil => rfl
    | cons d right =>
      obtain ⟨-, hback, -⟩ := List.isChain_append.1 hchain
      exact absurd ⟨rfl, hright d List.mem_cons_self⟩ ((List.isChain_cons.1 hback).1 d rfl).2
  rw [hleft', hright']
  rfl

theorem parted_tidyPlain (text : List Char) : (tidyPlain text).IsChain Parted := by
  refine keeps_afterCommas (fun front old new rest hnew => ?_)
    (scan_correct replaces_tightenComma text).parted.1
  refine isChain_replace hnew.ne_nil ?_ ?_ ?_
  · exact (List.pairwise_of_forall_mem_list fun c hc d hd =>
      parted_of_isBlank (hnew.isBlank c hc) (hnew.isBlank d hd)).isChain
  · exact fun c hc => parted_of_right (hnew.isBlank c (List.mem_of_mem_head? hc)) (hnew.head c hc)
  · exact fun c hc => parted_of_left (hnew.isBlank c (List.mem_of_getLast? hc)) (hnew.last c hc)

end Timetable.Tidy
