import Timetable.Proofs.Tidy.Neat

/-!
Tidied plain text.

After `tidyPlain` none of the corrections finds anything (`settled_tidyPlain`), save for the one
that pads hours. It is applied a single time, and what it writes may be the minutes of an hour that
is to be padded in its turn: `1:2:34` becomes `1:02:34`. So a tidied text stays as it is just if
there is no such hour left in it (`Settled.tidyPlain_eq_iff`).
-/

namespace Timetable.Tidy

variable {before : Option Char} {text text' new rest : List Char}

/-! ### Hours keep their words -/

/-- No word is an hour with the letter for hours. -/
def NoHourWord (text : List Char) : Prop := ∀ word ∈ runsOf isWordChar text, ¬ IsHourWord word

theorem eq_of_padHour {old : List Char} (h : padHour before (old ++ rest) = some (new, rest)) :
    ∃ hour minute, old = hour :: ':' :: minute ∧ new = '0' :: old := by
  obtain ⟨-, hour, minute, -, -, heq, rfl⟩ := padHour_eq_some_iff.1 h
  obtain rfl : old = hour :: ':' :: minute := List.append_cancel_right heq
  exact ⟨hour, minute, rfl, rfl⟩

theorem getLast?_of_padHour {old : List Char}
    (h : padHour before (old ++ rest) = some (new, rest)) : new.getLast? = old.getLast? := by
  obtain ⟨hour, minute, rfl, rfl⟩ := eq_of_padHour h
  rw [List.getLast?_cons_cons]

theorem noHourWord_padHour (h : NoHourWord text) : NoHourWord (correct padHour text) := by
  refine (scan_correct replaces_padHour text).keeps_behind (P := NoHourWord)
    (fun _ _ _ _ hsome => getLast?_of_padHour hsome) ?_ [] rfl h
  intro front old new rest hsome hP
  obtain ⟨hbefore, hour, minute, hhour, -, heq, rfl⟩ := padHour_eq_some_iff.1 hsome
  rw [heq] at hP
  have hends : EndsRun isWordChar front.getLast? := endsRun_isWordChar_iff.2 hbefore
  have hcolon : isWordChar ':' = false := by decide +kernel
  have hdigits : ∀ c ∈ ['0', hour], isDecimalDigit c = true := by
    simpa using ⟨by decide, hhour⟩
  have hrun : runsOf isWordChar ['0', hour] = [['0', hour]] :=
    runsOf_run (by simp) fun c hc => isWordChar_of_isDecimalDigit (hdigits c hc)
  intro word hmem
  rw [runsOf_append_of_last hends,
    show '0' :: hour :: ':' :: minute ++ rest = ['0', hour] ++ ':' :: (minute ++ rest) from rfl,
    runsOf_append_other _ _ hcolon, hrun] at hmem
  simp only [List.mem_append, List.mem_singleton] at hmem
  rcases hmem with hfront | rfl | hback
  · exact hP word (by rw [runsOf_append_of_last hends]; exact List.mem_append_left _ hfront)
  · exact not_isHourWord_of_digits hdigits
  · refine hP word ?_
    rw [runsOf_append_of_last hends,
      show hour :: ':' :: (minute ++ rest) = [hour] ++ ':' :: (minute ++ rest) from rfl,
      runsOf_append_other _ _ hcolon]
    exact List.mem_append_right _ (List.mem_append_right _ hback)

theorem runsOf_correct_tightenHyphen (text : List Char) :
    runsOf isWordChar (correct tightenHyphen text) = runsOf isWordChar text := by
  let P : List Char → Prop := fun text' => runsOf isWordChar text' = runsOf isWordChar text
  refine keeps_correct (P := P) replaces_tightenHyphen ?_ rfl
  intro before front old new rest hsome hP
  obtain ⟨left, right, ⟨-, -, blanks, blanks', hblanks, hblanks', heq⟩, rfl⟩ :=
    tightenHyphen_eq_some_iff.1 hsome
  have hbetween : ∀ c ∈ blanks ++ '-' :: blanks', isWordChar c = false := by
    refine List.forall_mem_append.2 ⟨fun c hc => isWordChar_of_isBlank (hblanks c hc),
      List.forall_mem_cons.2 ⟨by decide +kernel, fun c hc => isWordChar_of_isBlank (hblanks' c hc)⟩⟩
  have hold : front ++ (old ++ rest) =
      (front ++ left) ++ ((blanks ++ '-' :: blanks') ++ (right ++ rest)) := by
    rw [heq]
    simp
  have hnew : front ++ (left ++ '-' :: right ++ rest) =
      (front ++ left) ++ (['-'] ++ (right ++ rest)) := by simp
  have hP' : runsOf isWordChar (front ++ (old ++ rest)) = runsOf isWordChar text := hP
  rw [hold, runsOf_append_between (by simp) hbetween] at hP'
  change runsOf isWordChar (front ++ (left ++ '-' :: right ++ rest)) = _
  rwa [hnew, runsOf_append_between (by simp) (by simpa using by decide +kernel)]

theorem noHourWord_of_recasts (h : Recasts text text') (htext : NoHourWord text) :
    NoHourWord text' := by
  intro word' hmem hword'
  obtain ⟨word, hmem', hword⟩ := exists_of_mem_left
    (forall₂_runsOf isWordChar Recast.isWordChar_eq h).flip hmem
  exact htext word hmem' (isHourWord_of_recasts hword hword')

/-! ### The last three corrections come to an end -/

theorem Recasts.length_eq (h : Recasts text text') : text'.length = text.length :=
  (List.Forall₂.length_eq h).symm

theorem recasts_endAtMidnight (text : List Char) : Recasts text (correct endAtMidnight text) :=
  recasts_correct replaces_endAtMidnight recasts_of_endAtMidnight text

theorem recasts_joinSpans (text : List Char) : Recasts text (correct joinSpans text) :=
  recasts_correct replaces_joinSpans recasts_of_joinSpans text

/-- No span ends with the beginning of the day after as many rounds as there are characters. -/
theorem correct_endAtMidnight_untilStable (text : List Char) :
    correct endAtMidnight (correctUntilStable endAtMidnight text) =
      correctUntilStable endAtMidnight text := by
  refine correct_correctUntilStable (p := (· != '0'))
    (fun text => (recasts_endAtMidnight text).length_eq) (fun text => ?_) text
  refine (scan_correct replaces_endAtMidnight text).countP_lt_or_eq fun _ _ _ _ hsome => ?_
  obtain ⟨clock, rfl, rfl⟩ := eq_of_endAtMidnight hsome
  rw [List.countP_append, List.countP_append]
  exact Nat.add_lt_add_left (by decide) _

/-- No spaces are left between spans after as many rounds as there are characters. -/
theorem correct_joinSpans_untilStable (text : List Char) :
    correct joinSpans (correctUntilStable joinSpans text) = correctUntilStable joinSpans text := by
  refine correct_correctUntilStable (p := (· != ' '))
    (fun text => (recasts_joinSpans text).length_eq) (fun text => ?_) text
  refine (scan_correct replaces_joinSpans text).countP_lt_or_eq fun _ _ _ _ hsome => ?_
  obtain ⟨front, back, rfl, rfl⟩ := eq_of_joinSpans hsome
  simp [List.countP_append]

theorem grows_endAtMidnight : Grows endAtMidnight := by
  intro before old new rest hsome
  obtain ⟨clock, rfl, rfl⟩ := eq_of_endAtMidnight hsome
  refine ⟨by simp, fun heq => ?_⟩
  have := List.append_cancel_left heq
  exact absurd this (by decide)

/-- A span that ends with the beginning of the day did so before it was recast. -/
theorem correct_endAtMidnight_of_recasts (h : Recasts text text')
    (hself : correct endAtMidnight text = text) : correct endAtMidnight text' = text' := by
  rw [correct_eq_self_iff replaces_endAtMidnight grows_endAtMidnight] at hself ⊢
  rintro front' back' rfl
  refine Option.eq_none_iff_forall_not_mem.2 fun ⟨new, rest'⟩ hsome => ?_
  obtain ⟨hafter, clock', hclock, rfl, -⟩ := endAtMidnight_eq_some_iff.1 hsome
  obtain ⟨front, _, -, hback, rfl⟩ := h.exists_append
  obtain ⟨clock, _, hc, hback', rfl⟩ := hback.exists_append
  obtain ⟨midnight, rest, hm, hr, rfl⟩ := Recasts.exists_append hback'
  have hsigns : ∀ d ∈ "-00:00".toList, isLetter d = false ∧ d ≠ ',' ∧ d ≠ '2' ∧ d ≠ '4' :=
    List.all_iff_forall_prop.1 (by decide)
  have hmidnight : midnight = "-00:00".toList := eq_of_forall₂ hm fun c d hd hcd => by
    obtain ⟨hletter, hcomma, htwo, hfour⟩ := hsigns d hd
    exact hcd.eq_of_right hletter hcomma htwo hfour
  have hafter' : isWordChar? rest.head? = false := by
    cases hr with
    | nil => rfl
    | cons hcd _ => exact hcd.isWordChar_eq.trans hafter
  have hnone := hself front _ rfl
  rw [endAtMidnight_eq_some_iff.2 ⟨hafter', clock, (fits_iff (by decide) hc).2 hclock,
    by rw [hmidnight], rfl⟩] at hnone
  cases hnone

/-- Joining spans changes no words. -/
theorem canonicalWord_joinSpans (h : ∀ word ∈ runsOf isLetter text, canonicalWord word = word) :
    ∀ word ∈ runsOf isLetter (correctUntilStable joinSpans text), canonicalWord word = word := by
  let P : List Char → Prop := fun text => ∀ word ∈ runsOf isLetter text, canonicalWord word = word
  refine keeps_correctTimes (P := P) (fun text hP => ?_) h _
  refine keeps_correct (P := P) replaces_joinSpans (fun before front old new rest hsome hP => ?_) hP
  obtain ⟨left, right, rfl, rfl⟩ := eq_of_joinSpans hsome
  have hruns : ∀ {c}, isLetter c = false →
      runsOf isLetter (front ++ (left ++ c :: right ++ rest)) =
        runsOf isLetter (front ++ left) ++ runsOf isLetter (right ++ rest) := by
    intro c hc
    rw [← runsOf_append_other _ _ hc]
    simp
  intro word hmem
  rw [hruns (by decide)] at hmem
  exact hP word (by rwa [hruns (by decide)])

/-! ### Settled texts -/

/-- There is nothing to correct in a text, save perhaps for hours of one digit. -/
structure Settled (text : List Char) : Prop where
  commas : text.IsChain Parted
  words : NoHourWord text
  hyphens : correct tightenHyphen text = text
  midnight : correct endAtMidnight text = text
  keywords : ∀ word ∈ runsOf isLetter text, canonicalWord word = word
  spans : correct joinSpans text = text

/-- What the last corrections make of a text. -/
theorem recasts_last (text : List Char) :
    Recasts (correctUntilStable endAtMidnight text)
      (correctUntilStable joinSpans
        (correct canonicalCase (correctUntilStable endAtMidnight text))) :=
  (recasts_correct replaces_canonicalCase recasts_of_canonicalCase _).trans
    (recasts_correctUntilStable replaces_joinSpans recasts_of_joinSpans _)

theorem settled_tidyPlain (text : List Char) : Settled (tidyPlain text) := by
  let padded := correct padHour
    (correct hourLetterAfter (correct hourLetterInside (correct tightenComma text)))
  let tight := correct tightenHyphen padded
  have hlast : Recasts (correctUntilStable endAtMidnight tight) (tidyPlain text) :=
    recasts_last tight
  have hrecasts : Recasts tight (tidyPlain text) :=
    (recasts_correctUntilStable replaces_endAtMidnight recasts_of_endAtMidnight tight).trans hlast
  have hwords : NoHourWord padded := noHourWord_padHour fun _ h => not_isHourWord_of_mem_runsOf h
  exact {
    commas := parted_tidyPlain text
    words := noHourWord_of_recasts hrecasts fun word hmem =>
      hwords word (runsOf_correct_tightenHyphen padded ▸ hmem)
    hyphens := correct_tightenHyphen_of_recasts hrecasts
    midnight := correct_endAtMidnight_of_recasts hlast (correct_endAtMidnight_untilStable tight)
    keywords := canonicalWord_joinSpans fun _ h => canonicalWord_of_mem_runsOf h
    spans := correct_joinSpans_untilStable _ }

/-! ### Tidying again -/

namespace Settled

/-- Until hours are padded, there is nothing to correct. -/
theorem correct_hours (h : Settled text) :
    correct hourLetterAfter (correct hourLetterInside (correct tightenComma text)) = text := by
  rw [correct_tightenComma_eq_self h.commas,
    correctsWords_hourLetterInside.correct_eq_self
      fun word hmem new hL => h.words word hmem (.inl ⟨new, hL⟩),
    correctsWords_hourLetterAfter.correct_eq_self
      fun word hmem new hL => h.words word hmem (.inr ⟨new, hL⟩)]

/-- With no hour to pad, there is nothing to correct at all. -/
theorem tidyPlain_eq (h : Settled text) (hpad : correct padHour text = text) :
    tidyPlain text = text := by
  unfold tidyPlain
  dsimp only
  rw [h.correct_hours, hpad, h.hyphens, correctUntilStable_eq_self h.midnight,
    correct_canonicalCase_eq_self h.keywords, correctUntilStable_eq_self h.spans]

end Settled

theorem countP_of_recasts (h : Recasts text text') :
    text'.countP isDecimalDigit = text.countP isDecimalDigit := by
  induction h with
  | nil => rfl
  | cons hcd _ ih => rw [List.countP_cons, List.countP_cons, ih, hcd.isDecimalDigit_eq]

theorem countP_correct_tightenHyphen (text : List Char) :
    (correct tightenHyphen text).countP isDecimalDigit = text.countP isDecimalDigit := by
  let P : List Char → Prop := fun text' =>
    text'.countP isDecimalDigit = text.countP isDecimalDigit
  refine keeps_correct (P := P) replaces_tightenHyphen ?_ rfl
  intro before front old new rest hsome hP
  obtain ⟨left, right, ⟨-, -, blanks, blanks', hblanks, hblanks', heq⟩, rfl⟩ :=
    tightenHyphen_eq_some_iff.1 hsome
  have hnone : ∀ {blanks}, Blanks blanks → blanks.countP isDecimalDigit = 0 := by
    intro blanks hblanks
    refine List.countP_eq_zero.2 fun c hc hdigit => ?_
    exact Bool.noConfusion ((hblanks c hc).symm.trans (isBlank_of_isDecimalDigit hdigit))
  refine Eq.trans ?_ hP
  rw [heq]
  simp [List.countP_append, List.countP_cons, hnone hblanks, hnone hblanks']

theorem countP_padHour (text : List Char) : correct padHour text = text ∨
    text.countP isDecimalDigit < (correct padHour text).countP isDecimalDigit := by
  refine (scan_correct replaces_padHour text).countP_lt_or_eq fun before old new rest hsome => ?_
  obtain ⟨hour, minute, -, rfl⟩ := eq_of_padHour hsome
  rw [List.countP_cons_of_pos (show isDecimalDigit '0' = true by decide)]
  exact Nat.lt_succ_self _

/-- Somewhere in a text, a word is an hour of one digit with a colon and two digits behind it. -/
def HasShortHour (text : List Char) : Prop :=
  ∃ front hour tens ones back, text = front ++ hour :: ':' :: tens :: ones :: back ∧
    isWordChar? front.getLast? = false ∧ isDecimalDigit hour = true ∧ isDecimalDigit tens = true ∧
    isDecimalDigit ones = true

theorem fits_two_digits {minute : List Char} : Fits [.digit, .digit] minute ↔
    ∃ tens ones, isDecimalDigit tens = true ∧ isDecimalDigit ones = true ∧
      minute = [tens, ones] := by
  constructor
  · rintro (_ | ⟨htens, _ | ⟨hones, _ | _⟩⟩)
    exact ⟨_, _, htens, hones, rfl⟩
  · rintro ⟨tens, ones, htens, hones, rfl⟩
    exact .cons htens (.cons hones .nil)

theorem grows_padHour : Grows padHour := by
  intro before old new rest hsome
  obtain ⟨hour, minute, -, rfl⟩ := eq_of_padHour hsome
  exact ⟨Nat.le_succ _, fun heq => List.cons_ne_self _ _ heq⟩

/-- Padding changes just the texts with an hour of one digit. -/
theorem correct_padHour_eq_self_iff : correct padHour text = text ↔ ¬ HasShortHour text := by
  rw [correct_eq_self_iff replaces_padHour grows_padHour]
  constructor
  · rintro hnone ⟨front, hour, tens, ones, back, htext, hbefore, hhour, htens, hones⟩
    have hsome : padHour front.getLast? (hour :: ':' :: tens :: ones :: back) =
        some (['0', hour, ':', tens, ones], back) :=
      padHour_eq_some_iff.2 ⟨hbefore, hour, _, hhour,
        fits_two_digits.2 ⟨tens, ones, htens, hones, rfl⟩, rfl, rfl⟩
    rw [hnone front _ htext] at hsome
    cases hsome
  · intro hno front back htext
    refine Option.eq_none_iff_forall_not_mem.2 fun ⟨new, rest⟩ hsome => hno ?_
    obtain ⟨hbefore, hour, minute, hhour, hminute, rfl, -⟩ := padHour_eq_some_iff.1 hsome
    obtain ⟨tens, ones, htens, hones, rfl⟩ := fits_two_digits.1 hminute
    exact ⟨front, hour, tens, ones, rest, htext, hbefore, hhour, htens, hones⟩

/-- A settled text stays as it is just if it has no hour to pad: what is padded stays. -/
theorem Settled.tidyPlain_eq_iff (h : Settled text) :
    tidyPlain text = text ↔ ¬ HasShortHour text := by
  rw [← correct_padHour_eq_self_iff]
  refine ⟨fun heq => (countP_padHour text).resolve_right fun hlt => ?_, h.tidyPlain_eq⟩
  have htidy : tidyPlain text = correctUntilStable joinSpans (correct canonicalCase
      (correctUntilStable endAtMidnight (correct tightenHyphen (correct padHour text)))) := by
    unfold tidyPlain
    dsimp only
    rw [h.correct_hours]
  have hrecasts := (recasts_correctUntilStable replaces_endAtMidnight recasts_of_endAtMidnight
    (correct tightenHyphen (correct padHour text))).trans (recasts_last _)
  rw [← htidy, heq] at hrecasts
  have hcount := countP_of_recasts hrecasts
  rw [countP_correct_tightenHyphen] at hcount
  omega

end Timetable.Tidy
