import Timetable.Proofs.Tidy.Words

/-!
Corrections that leave every character in its place.

The last three corrections of plain text change single characters: zeros to the digits of midnight,
letters to another case, spaces to commas. What such a `Recast` can be mistaken for, it could be
mistaken for before: it has the same shapes (`fitsAny_iff`) and the same words (`forall₂_runsOf`).
-/

namespace Timetable.Tidy

/-- Two characters are the same, or two cases of a letter. -/
def SameLetter (c d : Char) : Prop :=
  c = d ∨ isLetter c = true ∧ isLetter d = true ∧ c.toLower = d.toLower

theorem SameLetter.foldsTo_eq {c d : Char} (h : SameLetter c d) (l : Char) :
    foldsTo l c = foldsTo l d := by
  rcases h with rfl | ⟨hc, hd, hlower⟩
  · rfl
  · refine Bool.eq_iff_iff.2 ?_
    rw [foldsTo_iff_of_isLetter hc, foldsTo_iff_of_isLetter hd, hlower]

/-- What the last corrections make of a character. -/
inductive Recast : Char → Char → Prop where
  | same (c : Char) : Recast c c
  | letter {c d : Char} : isLetter c = true → isLetter d = true → c.toLower = d.toLower →
      Recast c d
  | space : Recast ' ' ','
  | two : Recast '0' '2'
  | four : Recast '0' '4'

namespace Recast

variable {c d e : Char}

/-- The digits of midnight, a space and letters are changed once. -/
theorem trans (h : Recast c d) (h' : Recast d e) : Recast c e := by
  cases h with
  | same => exact h'
  | letter hc hd hlower =>
    cases h' with
    | same => exact .letter hc hd hlower
    | letter _ he hlower' => exact .letter hc he (hlower.trans hlower')
    | space | two | four => exact absurd hd (by decide)
  | space =>
    cases h' with
    | same => exact .space
    | letter hd => exact absurd hd (by decide)
  | two =>
    cases h' with
    | same => exact .two
    | letter hd => exact absurd hd (by decide)
  | four =>
    cases h' with
    | same => exact .four
    | letter hd => exact absurd hd (by decide)

theorem isDecimalDigit_eq (h : Recast c d) : isDecimalDigit c = isDecimalDigit d := by
  cases h with
  | same => rfl
  | letter hc hd => rw [isDecimalDigit_of_isLetter hc, isDecimalDigit_of_isLetter hd]
  | space | two | four => decide

theorem isWordChar_eq (h : Recast c d) : isWordChar c = isWordChar d := by
  cases h with
  | same => rfl
  | letter hc hd => rw [isWordChar_of_isLetter hc, isWordChar_of_isLetter hd]
  | space | two | four => decide +kernel

theorem isBlank_right (h : Recast c d) (hd : isBlank d = true) : c = d := by
  cases h with
  | same => rfl
  | letter _ hletter =>
    exact absurd hd (by rw [(isSolid_of_isLetter hletter).isBlank]; exact Bool.noConfusion)
  | space | two | four => exact absurd hd (by decide)

/-- Signs and zeros are not made of anything else. -/
theorem eq_of_right (h : Recast c d) (hletter : isLetter d = false) (hcomma : d ≠ ',')
    (htwo : d ≠ '2') (hfour : d ≠ '4') : c = d := by
  cases h with
  | same => rfl
  | letter _ hd => rw [hd] at hletter; cases hletter
  | space => exact absurd rfl hcomma
  | two => exact absurd rfl htwo
  | four => exact absurd rfl hfour

/-- Nothing but letters, spaces and zeros is made into something else. -/
theorem eq_of_left (h : Recast c d) (hletter : isLetter c = false) (hspace : c ≠ ' ')
    (hzero : c ≠ '0') : d = c := by
  cases h with
  | same => rfl
  | letter hc => rw [hc] at hletter; cases hletter
  | space => exact absurd rfl hspace
  | two | four => exact absurd rfl hzero

theorem isHourLetter_eq (h : Recast c d) : isHourLetter c = isHourLetter d := by
  cases h with
  | same => rfl
  | letter hc hd hlower =>
    rw [isHourLetter_eq_of_isLetter hc, isHourLetter_eq_of_isLetter hd, hlower]
  | space | two | four => decide

theorem foldsTo_eq (h : Recast c d) {l : Char} (hl : isSmallLetter l = true) :
    foldsTo l c = foldsTo l d := by
  cases h with
  | same => rfl
  | letter hc hd hlower => exact SameLetter.foldsTo_eq (.inr ⟨hc, hd, hlower⟩) l
  | space | two | four =>
    rw [foldsTo_eq_false hl (by decide), foldsTo_eq_false hl (by decide)]

theorem beq_sign_eq (h : Recast c d) {s : Char} (hs : (Mark.sign s).isProper = true) :
    (c == s) = (d == s) := by
  have hne : ∀ {c}, isLetter c = true → (c == s) = false := by
    intro c hc
    refine beq_eq_false_iff_ne.2 (ne_of_class hc ?_)
    rcases Mark.sign_cases hs with rfl | rfl | rfl <;> decide
  cases h with
  | same => rfl
  | letter hc hd => rw [hne hc, hne hd]
  | space | two | four => rcases Mark.sign_cases hs with rfl | rfl | rfl <;> decide

/-- Whether a mark stands for a character does not change. -/
theorem accepts_eq (h : Recast c d) {mark : Mark} (hmark : mark.isProper = true) :
    mark.accepts c = mark.accepts d := by
  match mark with
  | .digit => exact h.isDecimalDigit_eq
  | .letter l => exact h.foldsTo_eq hmark
  | .sign s => exact h.beq_sign_eq hmark

end Recast

theorem SameLetter.recast {c d : Char} (h : SameLetter c d) : Recast c d := by
  rcases h with rfl | ⟨hc, hd, hlower⟩
  · exact .same c
  · exact .letter hc hd hlower

/-! ### Texts -/

/-- A text of which each character is a recast of one. -/
abbrev Recasts : List Char → List Char → Prop := List.Forall₂ Recast

variable {text text' : List Char}

theorem Recasts.refl (text : List Char) : Recasts text text :=
  List.forall₂_same.2 fun c _ => .same c

theorem Recasts.trans {text'' : List Char} (h : Recasts text text') (h' : Recasts text' text'') :
    Recasts text text'' := by
  induction h generalizing text'' with
  | nil => exact h'
  | cons hc _ ih =>
    cases h' with
    | cons hd htail => exact .cons (hc.trans hd) (ih htail)

/-- A text of which each character is the same or in another case. -/
abbrev SameLetters : List Char → List Char → Prop := List.Forall₂ SameLetter

theorem SameLetters.refl (text : List Char) : SameLetters text text :=
  List.forall₂_same.2 fun _ _ => .inl rfl

theorem SameLetters.recasts (h : SameLetters text text') : Recasts text text' :=
  h.imp fun _ _ => SameLetter.recast

theorem fits_iff {shape : List Mark} (hshape : ∀ mark ∈ shape, mark.isProper = true)
    (h : Recasts text text') : Fits shape text ↔ Fits shape text' := by
  induction h generalizing shape with
  | nil => exact Iff.rfl
  | cons hc _ ih =>
    cases shape with
    | nil => exact iff_of_false nofun nofun
    | cons mark shape =>
      obtain ⟨hmark, hrest⟩ := List.forall_mem_cons.1 hshape
      rw [Fits, Fits, List.forall₂_cons, List.forall₂_cons, hc.accepts_eq hmark]
      exact and_congr_right fun _ => ih hrest

theorem fitsAny_iff {shapes : List (List Mark)} (hshapes : Apart shapes)
    (h : Recasts text text') : FitsAny shapes text ↔ FitsAny shapes text' :=
  exists_congr fun shape => and_congr_right fun hmem => fits_iff (hshapes.proper shape hmem) h

/-- The runs of a text are recast as well. -/
theorem forall₂_runsOf (accepts : Char → Bool)
    (haccepts : ∀ {c d}, Recast c d → accepts c = accepts d) (h : Recasts text text') :
    List.Forall₂ Recasts (runsOf accepts text) (runsOf accepts text') := by
  have hafter : ∀ {current current' : List Char}, Recasts current current' →
      List.Forall₂ Recasts (runsAfter accepts current text) (runsAfter accepts current' text') := by
    induction h with
    | nil =>
      intro current current' hcurrent
      cases hcurrent with
      | nil => exact .nil
      | cons hc hrest => exact .cons (List.rel_reverse (.cons hc hrest)) .nil
    | @cons c d rest rest' hcd _ ih =>
      intro current current' hcurrent
      simp only [runsAfter, haccepts hcd]
      split
      · exact ih (.cons hcd hcurrent)
      · cases hcurrent with
        | nil => exact ih .nil
        | cons hc hrest => exact .cons (List.rel_reverse (.cons hc hrest)) (ih .nil)
  exact hafter .nil

theorem exists_append_of_forall₂ {R : Char → Char → Prop} {front' back' : List Char}
    (h : List.Forall₂ R text (front' ++ back')) :
    ∃ front back, List.Forall₂ R front front' ∧ List.Forall₂ R back back' ∧ text = front ++ back :=
  ⟨_, _, List.forall₂_take_append _ _ _ h, List.forall₂_drop_append _ _ _ h,
    (List.take_append_drop _ _).symm⟩

/-- A text that is recast as two parts has two parts. -/
theorem Recasts.exists_append {front' back' : List Char} (h : Recasts text (front' ++ back')) :
    ∃ front back, Recasts front front' ∧ Recasts back back' ∧ text = front ++ back :=
  exists_append_of_forall₂ h

/-- Two parts are recast as two parts. -/
theorem Recasts.exists_append_left {front back : List Char} (h : Recasts (front ++ back) text') :
    ∃ front' back', Recasts front front' ∧ Recasts back back' ∧ text' = front' ++ back' := by
  have htake := List.forall₂_take front.length h
  have hdrop := List.forall₂_drop front.length h
  rw [List.take_left] at htake
  rw [List.drop_left] at hdrop
  exact ⟨_, _, htake, hdrop, (List.take_append_drop _ _).symm⟩

theorem isHour_of_recasts (h : Recasts text text') (hhour : IsHour text') : IsHour text :=
  hhour.imp (fits_iff (by decide) h).2 (fits_iff (by decide) h).2

/-- What is recast as an hour with the letter for hours was one before. -/
theorem isHourWord_of_recasts (h : Recasts text text') (hword : IsHourWord text') :
    IsHourWord text := by
  rcases hword with ⟨_, hour', letter', minute', hhour, hletter, hminute, rfl, -⟩ |
    ⟨_, hour', letter', hhour, hletter, rfl, -⟩
  · obtain ⟨hour, _, hhour', hback, rfl⟩ := h.exists_append
    obtain ⟨letter, minute, hletter', hminute', rfl⟩ := List.forall₂_cons_right_iff.1 hback
    exact .inl ⟨_, hour, letter, minute, isHour_of_recasts hhour' hhour,
      hletter'.isHourLetter_eq.trans hletter, (fits_iff (by decide) hminute').2 hminute, rfl, rfl⟩
  · obtain ⟨hour, _, hhour', hback, rfl⟩ := h.exists_append
    obtain ⟨letter, _, hletter', hnil, rfl⟩ := List.forall₂_cons_right_iff.1 hback
    cases hnil
    exact .inr ⟨_, hour, letter, isHour_of_recasts hhour' hhour,
      hletter'.isHourLetter_eq.trans hletter, rfl, rfl⟩

/-! ### The last three corrections -/

theorem replaces_endAtMidnight : Replaces endAtMidnight := by
  intro before text new rest h
  obtain ⟨-, clock, -, rfl, -⟩ := endAtMidnight_eq_some_iff.1 h
  exact ⟨clock ++ "-00:00".toList, List.append_ne_nil_of_right_ne_nil _ (by decide), by simp⟩

theorem replaces_canonicalCase : Replaces canonicalCase := by
  intro before text new rest h
  rw [canonicalCase_eq] at h
  split at h
  · cases h
  · rename_i hne
    obtain ⟨-, rfl⟩ := Prod.mk.inj (Option.some.inj h)
    exact ⟨_, by simpa using hne, List.takeWhile_append_dropWhile.symm⟩

theorem replaces_joinSpans : Replaces joinSpans := by
  intro before text new rest h
  obtain ⟨first, last, next, -, -, -, rfl, -⟩ := of_joinSpans_eq_some h
  exact ⟨first ++ '-' :: (last ++ ' ' :: next), by simp, by simp⟩

theorem eq_of_endAtMidnight {before : Option Char} {old new rest : List Char}
    (h : endAtMidnight before (old ++ rest) = some (new, rest)) :
    ∃ clock, old = clock ++ "-00:00".toList ∧ new = clock ++ "-24:00".toList := by
  obtain ⟨-, clock, -, heq, rfl⟩ := endAtMidnight_eq_some_iff.1 h
  rw [← List.append_assoc] at heq
  exact ⟨clock, List.append_cancel_right heq, rfl⟩

theorem eq_of_joinSpans {before : Option Char} {old new rest : List Char}
    (h : joinSpans before (old ++ rest) = some (new, rest)) :
    ∃ front back, old = front ++ ' ' :: back ∧ new = front ++ ',' :: back := by
  obtain ⟨first, last, next, -, -, -, heq, rfl⟩ := of_joinSpans_eq_some h
  have hold : old ++ rest = first ++ '-' :: last ++ ' ' :: next ++ rest := by
    rw [heq]
    simp
  exact ⟨first ++ '-' :: last, next, List.append_cancel_right hold, by simp⟩

theorem recasts_midnight : Recasts "-00:00".toList "-24:00".toList := by
  have hbefore : "-00:00".toList = ['-', '0', '0', ':', '0', '0'] := by decide
  have hafter : "-24:00".toList = ['-', '2', '4', ':', '0', '0'] := by decide
  rw [hbefore, hafter]
  exact .cons (.same '-') (.cons .two (.cons .four (.cons (.same ':')
    (.cons (.same '0') (.cons (.same '0') .nil)))))

theorem recasts_of_endAtMidnight {before : Option Char} {old new rest : List Char}
    (h : endAtMidnight before (old ++ rest) = some (new, rest)) : Recasts old new := by
  obtain ⟨clock, rfl, rfl⟩ := eq_of_endAtMidnight h
  exact List.rel_append (Recasts.refl clock) recasts_midnight

theorem sameLetters_of_map_toLower {word word' : List Char}
    (hword : ∀ c ∈ word, isLetter c = true) (hword' : ∀ c ∈ word', isLetter c = true)
    (h : word.map Char.toLower = word'.map Char.toLower) : SameLetters word word' := by
  induction word generalizing word' with
  | nil =>
    obtain rfl := List.map_eq_nil_iff.1 h.symm
    exact .nil
  | cons c word ih =>
    cases word' with
    | nil => cases h
    | cons d word' =>
      obtain ⟨hc, hrest⟩ := List.forall_mem_cons.1 hword
      obtain ⟨hd, hrest'⟩ := List.forall_mem_cons.1 hword'
      obtain ⟨hlower, hlowers⟩ := List.cons.inj h
      exact .cons (.inr ⟨hc, hd, hlower⟩) (ih hrest hrest' hlowers)

theorem sameLetters_canonicalWord {word : List Char} (hne : word ≠ [])
    (hletters : ∀ c ∈ word, isLetter c = true) : SameLetters word (canonicalWord word) := by
  have hletters' := (canonicalWord_letters hne hletters).2
  rcases canonicalWord_cases word with ⟨keyword, -, heq, hlower⟩ | heq
  · rw [heq] at hletters' ⊢
    exact sameLetters_of_map_toLower hletters hletters' hlower.symm
  · rw [heq]
    exact .refl word

/-- The case of a word is all that its keyword differs in. -/
theorem sameLetters_of_canonicalCase {before : Option Char} {old new rest : List Char}
    (h : canonicalCase before (old ++ rest) = some (new, rest)) : SameLetters old new := by
  rw [canonicalCase_eq] at h
  split at h
  · cases h
  · rename_i hne
    obtain ⟨rfl, hrest⟩ := Prod.mk.inj (Option.some.inj h)
    have hold : (old ++ rest).takeWhile isLetter = old := by
      have happend := List.takeWhile_append_dropWhile (p := isLetter) (l := old ++ rest)
      rw [hrest] at happend
      exact List.append_cancel_right happend
    have hletters : ∀ c ∈ old, isLetter c = true := by
      rw [← hold]
      exact fun c hc => List.all_eq_true.1 List.all_takeWhile c hc
    rw [hold] at hne ⊢
    exact sameLetters_canonicalWord (by simpa using hne) hletters

theorem recasts_of_canonicalCase {before : Option Char} {old new rest : List Char}
    (h : canonicalCase before (old ++ rest) = some (new, rest)) : Recasts old new :=
  (sameLetters_of_canonicalCase h).recasts

theorem sameLetters_correct_canonicalCase (text : List Char) :
    SameLetters text (correct canonicalCase text) :=
  (scan_correct replaces_canonicalCase text).forall₂ (fun _ => .inl rfl) fun _ _ _ _ h =>
    sameLetters_of_canonicalCase h

theorem recasts_of_joinSpans {before : Option Char} {old new rest : List Char}
    (h : joinSpans before (old ++ rest) = some (new, rest)) : Recasts old new := by
  obtain ⟨front, back, rfl, rfl⟩ := eq_of_joinSpans h
  exact List.rel_append (Recasts.refl front) (.cons .space (Recasts.refl back))

theorem recasts_correct {correction : Correction} (hreplaces : Replaces correction)
    (hstep : ∀ {before old new rest}, correction before (old ++ rest) = some (new, rest) →
      Recasts old new) (text : List Char) : Recasts text (correct correction text) :=
  (scan_correct hreplaces text).forall₂ .same fun _ _ _ _ h => hstep h

theorem recasts_correctUntilStable {correction : Correction} (hreplaces : Replaces correction)
    (hstep : ∀ {before old new rest}, correction before (old ++ rest) = some (new, rest) →
      Recasts old new) (text : List Char) :
    Recasts text (correctUntilStable correction text) :=
  keeps_correctTimes (fun _ h => h.trans (recasts_correct hreplaces hstep _)) (.refl text) _

end Timetable.Tidy
