import Timetable.Proofs.Tidy.Stretches

/-!
Rules that say that a place is always open.

Tidying makes no rule say so that did not say it before (`saysAlwaysOpen_of_tidyStretches`). What
such a rule is made of, none of the corrections writes, save for the one of the case of words.
-/

namespace Timetable.Tidy

variable {before : Option Char} {text text' out : List Char} {correction : Correction}

/-! ### What such a rule is made of -/

/-- The units of 24, in small letters. -/
def openUnits : List String := ["h", "hour", "hours", "/7"]

/-- No unit has a space, a quote or one of the signs that the corrections write. -/
theorem not_mem_openUnit {word : String} {unit : List Char} {sign : Char} (hmem : word ∈ openUnits)
    (hfits : Fits (word.toList.map .letter) unit) (hsign : sign ∈ [' ', ',', ':', '-', '"']) :
    sign ∉ unit := by
  have hsigns : (openUnits.all fun word => word.toList.all fun letter =>
      [' ', ',', ':', '-', '"'].all fun sign => !foldsTo letter sign) = true := by decide
  intro hunit
  obtain ⟨_, hmark, hfolds⟩ := exists_of_mem_left hfits.flip hunit
  obtain ⟨letter, hletter, rfl⟩ := List.mem_map.1 hmark
  have hno := List.all_eq_true.1 (List.all_eq_true.1 (List.all_eq_true.1 hsigns word hmem) letter
    hletter) sign hsign
  have hyes : foldsTo letter sign = true := hfolds
  rw [hyes] at hno
  cases hno

theorem saysAlwaysOpen_iff : saysAlwaysOpen text = true ↔
    ∃ blank unit, (blank = [] ∨ blank = [' ']) ∧
      (unit = [] ∨ ∃ word ∈ openUnits, Fits (word.toList.map .letter) unit) ∧
      text = "24".toList ++ (blank ++ unit) := by
  have hunit : ∀ rest : List Char, (rest.isEmpty || openUnits.any fun unit =>
        foldedWord? unit rest == some (rest, [])) = true ↔
      rest = [] ∨ ∃ word ∈ openUnits, Fits (word.toList.map .letter) rest := by
    intro rest
    simp only [Bool.or_eq_true, List.isEmpty_iff, List.any_eq_true, beq_iff_eq,
      Recogniser.exactly_foldedWord _ rest rest [], List.append_nil, and_true]
  constructor
  · intro h
    unfold saysAlwaysOpen at h
    split at h
    · cases h
    · rename_i _ rest hword
      obtain ⟨rfl, rfl⟩ := (Recogniser.exactly_word "24").sound _ _ _ hword
      dsimp only at h
      split at h
      · rename_i hhead
        obtain ⟨tail, rfl⟩ := List.head?_eq_some_iff.1 hhead
        exact ⟨[' '], tail, .inr rfl, (hunit tail).1 h, rfl⟩
      · exact ⟨[], rest, .inl rfl, (hunit rest).1 h, rfl⟩
  · rintro ⟨blank, unit, hblank, hunits, rfl⟩
    have hhead : unit.head? ≠ some ' ' := by
      intro hhead
      obtain ⟨tail, rfl⟩ := List.head?_eq_some_iff.1 hhead
      rcases hunits with hnil | ⟨word, hmem, hfits⟩
      · cases hnil
      · exact not_mem_openUnit hmem hfits (by simp) List.mem_cons_self
    unfold saysAlwaysOpen
    rw [(Recogniser.exactly_word "24").of_append rfl]
    dsimp only
    rcases hblank with rfl | rfl
    · rw [List.nil_append, if_neg hhead]
      exact (hunit unit).2 hunits
    · exact (hunit unit).2 hunits

theorem fits_letters_iff (h : SameLetters text text') (letters : List Char) :
    Fits (letters.map .letter) text ↔ Fits (letters.map .letter) text' := by
  induction h generalizing letters with
  | nil => exact Iff.rfl
  | cons hcd _ ih =>
    cases letters with
    | nil => exact iff_of_false nofun nofun
    | cons l letters =>
      rw [List.map_cons, Fits, Fits, List.forall₂_cons, List.forall₂_cons]
      exact and_congr (by rw [Mark.accepts, Mark.accepts, hcd.foldsTo_eq l]) (ih letters)

theorem SameLetters.eq_of_right (h : SameLetters text text')
    (htext' : ∀ c ∈ text', isLetter c = false) : text = text' := by
  refine eq_of_forall₂ h fun c d hd hcd => hcd.resolve_right fun hletters => ?_
  exact Bool.noConfusion (hletters.2.1.symm.trans (htext' d hd))

/-- In another case, a rule says the same. -/
theorem saysAlwaysOpen_of_sameLetters (h : SameLetters text text')
    (hopen : saysAlwaysOpen text' = true) : saysAlwaysOpen text = true := by
  obtain ⟨blank, unit', hblank, hunit, rfl⟩ := saysAlwaysOpen_iff.1 hopen
  rw [← List.append_assoc] at h
  obtain ⟨front, unit, hfront, hback, rfl⟩ : ∃ front unit,
      SameLetters front ("24".toList ++ blank) ∧ SameLetters unit unit' ∧ text = front ++ unit :=
    exists_append_of_forall₂ h
  obtain rfl := hfront.eq_of_right (by
    rcases hblank with rfl | rfl <;> exact List.all_iff_forall_prop.1 (by decide))
  refine saysAlwaysOpen_iff.2 ⟨blank, unit, hblank, ?_, List.append_assoc ..⟩
  refine hunit.imp (fun hnil => ?_) fun ⟨word, hmem, hfits⟩ =>
    ⟨word, hmem, (fits_letters_iff hback word.toList).2 hfits⟩
  rw [hnil] at hback
  exact List.forall₂_nil_right_iff.1 hback

theorem not_mem_of_saysAlwaysOpen (h : saysAlwaysOpen text = true) {sign : Char}
    (hsign : sign ∈ [',', ':', '-', '"']) : sign ∉ text := by
  obtain ⟨blank, unit, hblank, hunit, rfl⟩ := saysAlwaysOpen_iff.1 h
  rw [← List.append_assoc]
  refine List.not_mem_append (fun hmem => ?_) fun hmem => ?_
  · have hfront : ("24 ".toList.all fun c => !([',', ':', '-', '"'].contains c)) = true := by decide
    have hmem : sign ∈ "24 ".toList := by
      rcases hblank with rfl | rfl
      · exact List.mem_append_left [' '] hmem
      · exact hmem
    have hno := List.all_eq_true.1 hfront sign hmem
    rw [List.contains_iff_mem.2 hsign] at hno
    cases hno
  · rcases hunit with rfl | ⟨word, hword, hfits⟩
    · cases hmem
    · exact not_mem_openUnit hword hfits (List.mem_cons_of_mem _ hsign) hmem

/-! ### What the corrections leave behind -/

/-- Where nothing was written, nothing was corrected. -/
theorem Scan.eq_of_not_mem {c : Char} (h : Scan correction before text out)
    (hwrites : Writes correction (c ∈ ·)) (hno : c ∉ out) : out = text := by
  induction h with
  | nil => rfl
  | keep _ _ ih => rw [ih (List.not_mem_of_not_mem_cons hno)]
  | replace _ hsome _ _ => exact absurd (List.mem_append_left _ (hwrites _ _ _ _ hsome)) hno

theorem correct_eq_of_not_mem {c : Char} (hreplaces : Replaces correction)
    (hwrites : Writes correction (c ∈ ·)) (hno : c ∉ correct correction text) :
    correct correction text = text :=
  (scan_correct hreplaces text).eq_of_not_mem hwrites hno

theorem correctTimes_eq_of_not_mem {c : Char} (hreplaces : Replaces correction)
    (hwrites : Writes correction (c ∈ ·)) {count : Nat}
    (hno : c ∉ correctTimes correction count text) : correctTimes correction count text = text := by
  induction count generalizing text with
  | zero => rfl
  | succ count ih =>
    unfold correctTimes at hno ⊢
    dsimp only at hno ⊢
    split
    · rfl
    · rename_i hne
      rw [if_neg hne] at hno
      have hself := ih hno
      rw [hself] at hno
      exact absurd (correct_eq_of_not_mem hreplaces hwrites hno) hne

theorem colon_of_hourLetterInside : Writes hourLetterInside (':' ∈ ·) := by
  intro before text new rest h
  obtain ⟨-, -, _, ⟨hour, _, minute, -, -, -, -, rfl⟩, -⟩ := hourLetterInside_eq_some_iff.1 h
  simp

theorem colon_of_hourLetterAfter : Writes hourLetterAfter (':' ∈ ·) := by
  intro before text new rest h
  obtain ⟨-, -, _, ⟨hour, _, -, -, -, rfl⟩, -⟩ := hourLetterAfter_eq_some_iff.1 h
  simp

theorem colon_of_padHour : Writes padHour (':' ∈ ·) := by
  intro before text new rest h
  obtain ⟨-, hour, minute, -, -, -, rfl⟩ := padHour_eq_some_iff.1 h
  simp

theorem comma_of_tightenComma : Writes tightenComma (',' ∈ ·) := by
  intro before text new rest h
  obtain ⟨-, _, _, -, -, -, rfl⟩ := tightenComma_eq_some_iff.1 h
  exact List.mem_singleton.2 rfl

theorem hyphen_of_tightenHyphen : Writes tightenHyphen ('-' ∈ ·) := by
  intro before text new rest h
  obtain ⟨left, right, -, rfl⟩ := tightenHyphen_eq_some_iff.1 h
  simp

theorem hyphen_of_endAtMidnight : Writes endAtMidnight ('-' ∈ ·) := by
  intro before text new rest h
  obtain ⟨-, clock, -, -, rfl⟩ := endAtMidnight_eq_some_iff.1 h
  simp

theorem hyphen_of_joinSpans : Writes joinSpans ('-' ∈ ·) := by
  intro before text new rest h
  obtain ⟨first, last, next, -, -, -, -, rfl⟩ := of_joinSpans_eq_some h
  simp

/-- What is made of a text before words get their case. -/
def tidySigns (text : List Char) : List Char :=
  correctUntilStable endAtMidnight (correct tightenHyphen (correct padHour (correct hourLetterAfter
    (correct hourLetterInside (correct tightenComma text)))))

theorem tidyPlain_eq_tidySigns (text : List Char) :
    tidyPlain text = correctUntilStable joinSpans (correct canonicalCase (tidySigns text)) := rfl

/-- Without the signs that are written, a text stays as it is up to the case of its words. -/
theorem tidySigns_eq_self (hcomma : ',' ∉ tidySigns text) (hcolon : ':' ∉ tidySigns text)
    (hhyphen : '-' ∉ tidySigns text) : tidySigns text = text := by
  unfold tidySigns correctUntilStable at *
  have hmidnight := correctTimes_eq_of_not_mem replaces_endAtMidnight hyphen_of_endAtMidnight
    hhyphen
  rw [hmidnight] at hcomma hcolon hhyphen ⊢
  have htight := correct_eq_of_not_mem replaces_tightenHyphen hyphen_of_tightenHyphen hhyphen
  rw [htight] at hcomma hcolon ⊢
  have hpad := correct_eq_of_not_mem replaces_padHour colon_of_padHour hcolon
  rw [hpad] at hcomma hcolon ⊢
  have hafter := correct_eq_of_not_mem correctsWords_hourLetterAfter.replaces
    colon_of_hourLetterAfter hcolon
  rw [hafter] at hcomma hcolon ⊢
  have hinside := correct_eq_of_not_mem correctsWords_hourLetterInside.replaces
    colon_of_hourLetterInside hcolon
  rw [hinside] at hcomma ⊢
  exact correct_eq_of_not_mem replaces_tightenComma comma_of_tightenComma hcomma

theorem sameLetters_tidyPlain (hcomma : ',' ∉ tidyPlain text) (hcolon : ':' ∉ tidyPlain text)
    (hhyphen : '-' ∉ tidyPlain text) : SameLetters text (tidyPlain text) := by
  have hcase := sameLetters_correct_canonicalCase (tidySigns text)
  have hjoin : tidyPlain text = correct canonicalCase (tidySigns text) := by
    rw [tidyPlain_eq_tidySigns] at hhyphen ⊢
    exact correctTimes_eq_of_not_mem replaces_joinSpans hyphen_of_joinSpans hhyphen
  rw [← hjoin] at hcase
  have hsign : ∀ {sign}, isLetter sign = false → sign ∉ tidyPlain text → sign ∉ tidySigns text := by
    intro sign hletter hno hmem
    obtain ⟨d, hd, rfl | ⟨hsign, -⟩⟩ := exists_of_mem_left hcase hmem
    · exact hno hd
    · rw [hsign] at hletter
      cases hletter
  rwa [tidySigns_eq_self (hsign (by decide) hcomma) (hsign (by decide) hcolon)
    (hsign (by decide) hhyphen)] at hcase

/-- Tidying makes no rule say that a place is always open. -/
theorem saysAlwaysOpen_of_tidyStretches {rule : List Char}
    (h : saysAlwaysOpen (tidyStretches rule) = true) : saysAlwaysOpen rule = true := by
  have hquote : '"' ∉ rule := by
    intro hmem
    have hno : '"' ∉ tidyStretches rule := not_mem_of_saysAlwaysOpen h (by simp)
    refine hno (keeps_tidyStretches (P := ('"' ∈ ·)) ?_ hmem)
    intro front old new rest _ hold hmem
    simp only [List.mem_append] at hmem ⊢
    rcases hmem with hfront | hmem | hrest
    · exact .inl hfront
    · exact absurd hmem hold
    · exact .inr (.inr hrest)
  rw [tidyStretches_plain hquote] at h
  exact saysAlwaysOpen_of_sameLetters (sameLetters_tidyPlain
    (not_mem_of_saysAlwaysOpen h (by simp)) (not_mem_of_saysAlwaysOpen h (by simp))
    (not_mem_of_saysAlwaysOpen h (by simp))) h

end Timetable.Tidy
