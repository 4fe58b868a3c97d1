import Mathlib.Tactic.FinCases
import Timetable.Grammar.Expression
import Timetable.Proofs.Grammar.Reads

/-!
Numbers, words and blanks: the smallest parts of the grammar, read from the texts that are written
for them.

A year is read exactly if it has four digits (`reads_year`, `refuses_year`); numbers with two digits
and numbers without a limit are always read. `Begins` tells by which part of a rule a text goes on,
and each part of the grammar refuses a text that begins like another one.
-/

namespace Timetable

/-! ### Numerals -/

namespace Decimal

theorem isDigit_natural {n : Nat} : ∀ c ∈ (natural n).toList, c.isDigit = true := by
  intro c hc
  rw [toList_natural] at hc
  exact Nat.isDigit_of_mem_toDigits (by decide) (by decide) hc

theorem value_natural (n : Nat) : value (natural n).toList = n := by
  rw [toList_natural, value_toDigits]

theorem natural_ne_nil (n : Nat) : (natural n).toList ≠ [] := by
  rw [toList_natural]
  exact Nat.toDigits_ne_nil

theorem length_natural_eq_four {n : Nat} :
    (natural n).toList.length = 4 ↔ 1000 ≤ n ∧ n ≤ 9999 := by
  have hfour := @Nat.length_toDigits_le_iff 10 n 4 (by decide) (by decide)
  have hthree := @Nat.length_toDigits_le_iff 10 n 3 (by decide) (by decide)
  rw [toList_natural]
  omega

theorem length_natural_le_two {n : Nat} : (natural n).toList.length ≤ 2 ↔ n < 100 := by
  rw [toList_natural]
  exact Nat.length_toDigits_le_iff (by decide) (by decide)

theorem toList_twoDigits (n : Nat) : (twoDigits n).toList =
    List.replicate (2 - (Nat.toDigits 10 n).length) '0' ++ Nat.toDigits 10 n :=
  String.toList_ofList

theorem isDigit_twoDigits {n : Nat} : ∀ c ∈ (twoDigits n).toList, c.isDigit = true := by
  intro c hc
  rw [toList_twoDigits] at hc
  rcases List.mem_append.1 hc with hc | hc
  · rw [List.eq_of_mem_replicate hc]
    decide
  · exact Nat.isDigit_of_mem_toDigits (by decide) (by decide) hc

theorem value_twoDigits (n : Nat) : value (twoDigits n).toList = n := by
  rw [toList_twoDigits, value, Nat.ofDigitChars_append, Nat.ofDigitChars_replicate_zero,
    Nat.mul_zero]
  exact value_toDigits n

theorem length_twoDigits {n : Nat} (h : n < 100) : (twoDigits n).toList.length = 2 := by
  have hle := (@Nat.length_toDigits_le_iff 10 n 2 (by decide) (by decide)).2 h
  rw [toList_twoDigits, List.length_append, List.length_replicate]
  omega

theorem twoDigits_ne_nil (n : Nat) : (twoDigits n).toList ≠ [] := by
  rw [toList_twoDigits]
  exact List.append_ne_nil_of_right_ne_nil _ Nat.toDigits_ne_nil

end Decimal

namespace Grammar

open Peg

/-- No digit comes first. -/
def NoDigit (rest : List Char) : Prop := ∀ c ∈ rest.head?, c.isDigit = false

variable {row rest source : List Char}

theorem noDigit_cons {c : Char} (h : c.isDigit = false) : NoDigit (c :: rest) := by
  rintro _ ⟨⟩
  exact h

/-- A row of digits is read if its length is within the limits. -/
theorem reads_digits {least most : Nat} {forbids : Char → Bool}
    (hdigits : ∀ c ∈ row, c.isDigit = true) (hleast : least ≤ row.length)
    (hmost : row.length ≤ most) (hforbids : ∀ c, c.isDigit = true → forbids c = true)
    (hrest : ∀ c ∈ rest.head?, forbids c = false) :
    ((digits least most).followedBy (notNext forbids)).Reads (row ++ rest) rest
      (· = row) := by
  have hno : NoDigit rest := by
    intro c hc
    cases hdigit : c.isDigit with
    | false => rfl
    | true => exact (hforbids c hdigit).symm.trans (hrest c hc)
  refine Ends.followedBy (reads_chars hdigits hleast ?_ (.inl hno) rfl)
    (@reads_notNext rest forbids (fun _ => True) hrest trivial)
  rintro _ ⟨⟩
  exact hmost

/-- A row of digits is not read if it is too short or too long. -/
theorem refuses_digits {least most : Nat} {forbids : Char → Bool}
    (hdigits : ∀ c ∈ row, c.isDigit = true) (hle : least ≤ most)
    (hforbids : ∀ c, c.isDigit = true → forbids c = true) (hrest : NoDigit rest)
    (h : row.length < least ∨ most < row.length) :
    ((digits least most).followedBy (notNext forbids)).Refuses (row ++ rest) := by
  rcases h with h | h
  · apply Refuses.followedBy
    apply refuses_chars
    have hstop : (rest.take (most - row.length)).takeWhile Char.isDigit = [] := by
      rw [show most - row.length = most - row.length - 1 + 1 by omega]
      cases rest with
      | nil => rfl
      | cons c rest => simp [hrest c rfl]
    rw [Option.elim, List.take_append, List.take_of_length_le (by omega),
      List.takeWhile_append_of_pos hdigits, hstop, List.append_nil]
    exact h
  · have hlength : (row.take most).length = most := List.length_take_of_le (Nat.le_of_lt h)
    rw [← List.take_append_drop most row, List.append_assoc]
    refine Refuses.followedBy_right (reads_chars (fun c hc => hdigits c (List.mem_of_mem_take hc))
      (by omega) ?_ (.inr ⟨most, rfl, hlength⟩) rfl) ?_
    · rintro _ ⟨⟩
      exact Nat.le_of_eq hlength
    · rw [List.drop_eq_getElem_cons h]
      exact refuses_notNext (hforbids _ (hdigits _ (List.getElem_mem h)))

/-- Four digits are a year. -/
theorem reads_year {n : Nat} (h : 1000 ≤ n ∧ n ≤ 9999) (hrest : NoDigit rest) :
    year.Reads ((Decimal.natural n).toList ++ rest) rest fun written =>
      Decimal.value written = n := by
  have hlength := Decimal.length_natural_eq_four.2 h
  apply Ends.named
  refine Ends.mono (reads_digits Decimal.isDigit_natural (Nat.le_of_eq hlength.symm)
    (Nat.le_of_eq hlength) (fun _ => id) hrest) ?_
  rintro _ rfl
  exact Decimal.value_natural n

/-- Less or more than four digits are not a year. -/
theorem refuses_year {n : Nat} (h : ¬ (1000 ≤ n ∧ n ≤ 9999)) (hrest : NoDigit rest) :
    year.Refuses ((Decimal.natural n).toList ++ rest) := by
  have hlength := mt Decimal.length_natural_eq_four.1 h
  exact Refuses.named (refuses_digits Decimal.isDigit_natural (by decide) (fun _ => id) hrest
    (by omega))

theorem reads_weekNumber {n : Nat} (h : n < 100) (hrest : NoDigit rest) :
    weekNumber.Reads ((Decimal.twoDigits n).toList ++ rest) rest fun written =>
      Decimal.value written = n := by
  have hlength := Decimal.length_twoDigits h
  apply Ends.named
  refine Ends.mono (reads_digits Decimal.isDigit_twoDigits (by omega)
    (Nat.le_of_eq hlength) (fun _ => id) hrest) ?_
  rintro _ rfl
  exact Decimal.value_twoDigits n

theorem reads_dayNumber {n : Nat} (h : n < 100)
    (hrest : ∀ c ∈ rest.head?, (c.isDigit || c == ':') = false) :
    dayNumber.Reads ((Decimal.twoDigits n).toList ++ rest) rest fun written =>
      Decimal.value written = n := by
  have hlength := Decimal.length_twoDigits h
  apply Ends.named
  refine Ends.mono (reads_digits Decimal.isDigit_twoDigits (by omega)
    (Nat.le_of_eq hlength) (fun c hc => by simp [hc]) hrest) ?_
  rintro _ rfl
  exact Decimal.value_twoDigits n

theorem reads_number {n : Nat} (hrest : NoDigit rest) :
    number.Reads ((Decimal.natural n).toList ++ rest) rest (· = (Decimal.natural n).toList) := by
  apply Ends.named
  refine reads_chars Decimal.isDigit_natural ?_ nofun (.inl hrest) rfl
  exact List.length_pos_iff.2 (Decimal.natural_ne_nil n)

/-! ### Blanks and marks -/

theorem refuses_token_cons {c d : Char} {text : List Char} (h : c ≠ d) :
    (token (c :: text)).Refuses (d :: source) := by
  apply refuses_token
  rintro ⟨_, heq⟩
  exact h (List.cons.inj heq).1

theorem refuses_token_nil {c : Char} {text : List Char} : (token (c :: text)).Refuses [] := by
  apply refuses_token
  rintro ⟨_, heq⟩
  cases heq

theorem refuses_space {c : Char} (h : c ≠ ' ') : space.Refuses (c :: source) :=
  refuses_token_cons h.symm

theorem consumes_space : space.Consumes := consumes_token (List.cons_ne_nil _ _)

theorem reads_spaces (source : List Char) :
    spaces.Reads source (source.dropWhile (· == ' ')) fun _ => True := by
  have hmany : (many space).Reads source (source.dropWhile (· == ' ')) fun _ => True := by
    induction source with
    | nil => exact reads_many_stop consumes_space (fun _ => rfl) trivial
    | cons c source ih =>
      by_cases hc : c = ' '
      · subst hc
        exact (Ends.many_step consumes_space (reads_token_cons ' ' source) ih).mono
          fun _ _ => trivial
      · rw [List.dropWhile_cons_of_neg (by simpa using hc)]
        exact reads_many_stop consumes_space (refuses_space hc) trivial
  exact hmany.map fun _ _ => trivial

/-- What is left after blanks. -/
theorem rest_of_spaces {cursor next : Cursor}
    (h : (spaces.run cursor).result = some ((), next)) :
    next.rest = cursor.rest.dropWhile (· == ' ') := by
  obtain ⟨_, stop, hresult, -⟩ := (reads_spaces cursor.rest).exists_result cursor.offset
  obtain ⟨-, rfl⟩ := Prod.mk.inj (Option.some.inj (h.symm.trans hresult))
  rfl

theorem reads_spaces_none (h : space.Refuses rest) : spaces.Reads rest rest fun _ => True :=
  Ends.map (reads_many_stop consumes_space h rfl) fun _ _ => trivial

theorem reads_spaces_one (h : space.Refuses rest) :
    spaces.Reads (' ' :: rest) rest fun _ => True :=
  Ends.map (Ends.many_step consumes_space (reads_token_cons ' ' rest)
    (reads_many_stop consumes_space h rfl)) fun _ _ => trivial

theorem reads_someSpace (h : space.Refuses rest) :
    someSpace.Reads (' ' :: rest) rest fun _ => True :=
  Ends.andThen (reads_token_cons ' ' rest) (reads_spaces_none h)

theorem refuses_someSpace (h : space.Refuses rest) : someSpace.Refuses rest := Refuses.andThen h

theorem consumes_spaced {mark : String} (h : mark.toList ≠ []) : (spaced mark).Consumes :=
  (Consumes.andThen_right (consumes_token h)).followedBy

/-- A mark is read with the blanks on its two sides. -/
theorem reads_spaced {mark : String} {between : List Char}
    (hmark : space.Refuses (mark.toList ++ between))
    (h : spaces.Reads between rest fun _ => True) :
    (spaced mark).Reads (mark.toList ++ between) rest fun _ => True :=
  Ends.followedBy (Ends.andThen (reads_spaces_none hmark)
    (@reads_token mark.toList between _ trivial)) h

theorem refuses_spaced {mark : String} (hspace : space.Refuses source)
    (h : (token mark.toList).Refuses source) : (spaced mark).Refuses source :=
  Refuses.followedBy (Refuses.andThen_right (reads_spaces_none hspace) h)

theorem refuses_spaced_space {mark : String} (hspace : space.Refuses source)
    (h : (token mark.toList).Refuses source) : (spaced mark).Refuses (' ' :: source) :=
  Refuses.followedBy (Refuses.andThen_right (reads_spaces_one hspace) h)

/-- A mark is read with all the blanks on its two sides. -/
theorem reads_spaced_dropWhile {mark : String} {between : List Char}
    (h : source.dropWhile (· == ' ') = mark.toList ++ between) :
    (spaced mark).Reads source (between.dropWhile (· == ' ')) fun _ => True := by
  have hblanks := reads_spaces source
  rw [h] at hblanks
  exact Ends.followedBy (Ends.andThen hblanks (@reads_token mark.toList between _ trivial))
    (reads_spaces between)

theorem refuses_spaced_dropWhile {mark : String}
    (h : ¬ mark.toList <+: source.dropWhile (· == ' ')) : (spaced mark).Refuses source :=
  Refuses.followedBy (Refuses.andThen_right (reads_spaces source) (refuses_token h))

/-! ### Words -/

theorem reads_month (name : Month) (rest : List Char) :
    month.Reads (name.abbreviation.toList ++ rest) rest (· = name) := by
  cases name <;> exact fun _ => ⟨_, _, rfl, rfl, rfl⟩

theorem reads_weekday (name : Weekday) (rest : List Char) :
    weekday.Reads (name.abbreviation.toList ++ rest) rest (· = name) := by
  cases name <;> exact fun _ => ⟨_, _, rfl, rfl, rfl⟩

theorem reads_event (name : SolarEvent) (rest : List Char) :
    event.Reads (name.keyword.toList ++ rest) rest (· = name) := by
  cases name <;> exact fun _ => ⟨_, _, rfl, rfl, rfl⟩

/-! ### How a text goes on -/

/-- The parts of a rule that can be told apart by their first characters. -/
inductive Part where
  /-- Years and dates, as a date may begin with a year. -/
  | dates
  | weeks | holidays | weekdays | spans | kind | comment
  deriving DecidableEq

/-- The place of a part in a rule. -/
def Part.rank : Part → Nat
  | dates => 0 | weeks => 1 | holidays => 2 | weekdays => 3 | spans => 4 | kind => 5 | comment => 6

theorem ne_of_rank_lt {part other : Part} (h : part.rank < other.rank) : other ≠ part := by
  rintro rfl
  exact Nat.lt_irrefl _ h

/-- The words and marks that a part begins with, unless it begins with a numeral. -/
def Part.words : Part → List String
  | dates => "easter" :: Month.all.map Month.abbreviation
  | weeks => ["week"]
  | holidays => ["PH", "SH"]
  | weekdays => Weekday.all.map Weekday.abbreviation
  | spans => ["dawn", "sunrise", "sunset", "dusk", "("]
  | kind => ["off", "unknown"]
  | comment => ["\""]

/-- How each part begins. -/
inductive Begins : Part → List Char → Prop
  | numeral {row rest : List Char} (hdigits : ∀ c ∈ row, c.isDigit = true) (hrow : row ≠ [])
      (hrest : NoDigit rest) (hcolon : rest.head? ≠ some ':') : Begins .dates (row ++ rest)
  | clock {c d : Char} (hc : c.isDigit = true) (hd : d.isDigit = true) (rest : List Char) :
      Begins .spans (c :: d :: ':' :: rest)
  | word {part : Part} {word : String} (h : word ∈ part.words) (rest : List Char) :
      Begins part (word.toList ++ rest)

namespace Begins

theorem month (name : Month) (rest : List Char) :
    Begins .dates (name.abbreviation.toList ++ rest) :=
  .word (by cases name <;> decide) rest

theorem easter (rest : List Char) : Begins .dates ("easter".toList ++ rest) :=
  .word List.mem_cons_self rest

theorem week (rest : List Char) : Begins .weeks ("week".toList ++ rest) :=
  .word List.mem_cons_self rest

theorem holiday (name : Holiday) (rest : List Char) :
    Begins .holidays (name.abbreviation.toList ++ rest) :=
  .word (by cases name <;> decide) rest

theorem weekday (name : Weekday) (rest : List Char) :
    Begins .weekdays (name.abbreviation.toList ++ rest) :=
  .word (by cases name <;> decide) rest

theorem event (name : SolarEvent) (rest : List Char) :
    Begins .spans (name.keyword.toList ++ rest) :=
  .word (by cases name <;> decide) rest

theorem shifted (rest : List Char) : Begins .spans ('(' :: rest) :=
  @word .spans "(" (by decide) rest

theorem off (rest : List Char) : Begins .kind ("off".toList ++ rest) :=
  .word List.mem_cons_self rest

theorem unknown (rest : List Char) : Begins .kind ("unknown".toList ++ rest) :=
  .word (by decide) rest

theorem quote (rest : List Char) : Begins .comment ('"' :: rest) :=
  @word .comment "\"" (by decide) rest

end Begins

theorem eq_of_isDigit {c : Char} (h : c.isDigit = true) :
    c = '0' ∨ c = '1' ∨ c = '2' ∨ c = '3' ∨ c = '4' ∨ c = '5' ∨ c = '6' ∨ c = '7' ∨ c = '8' ∨
      c = '9' := by
  have hle := Char.isDigit_iff_toNat.1 h
  simp only [← Char.toNat_inj, Char.reduceToNat] at hle ⊢
  omega

theorem mem_digits_of_isDigit {c : Char} (h : c.isDigit = true) : c ∈ "0123456789".toList := by
  simpa using eq_of_isDigit h

theorem isDigit_head {row rest : List Char} (hdigits : ∀ c ∈ row, c.isDigit = true)
    (hrow : row ≠ []) : ∃ c tail, row ++ rest = c :: tail ∧ c.isDigit = true := by
  obtain ⟨c, row, rfl⟩ := List.exists_cons_of_ne_nil hrow
  exact ⟨c, row ++ rest, rfl, hdigits c List.mem_cons_self⟩

theorem refuses_space_digits {row rest : List Char} (hdigits : ∀ c ∈ row, c.isDigit = true)
    (hrow : row ≠ []) : space.Refuses (row ++ rest) := by
  obtain ⟨c, tail, heq, hc⟩ := @isDigit_head row rest hdigits hrow
  rw [heq]
  apply refuses_space
  rintro rfl
  cases hc

/-- Characters that a part may begin with. -/
def isOpening (c : Char) : Bool := c.isAlpha || c.isDigit || c == '(' || c == '"'

theorem Begins.exists_opening {part : Part} (h : Begins part source) :
    ∃ c tail, source = c :: tail ∧ isOpening c = true := by
  cases h with
  | numeral hdigits hrow =>
    obtain ⟨c, tail, heq, hc⟩ := isDigit_head hdigits hrow
    exact ⟨c, tail, heq, by simp [isOpening, hc]⟩
  | clock hc => exact ⟨_, _, rfl, by simp [isOpening, hc]⟩
  | word hword => cases part <;> fin_cases hword <;> exact ⟨_, _, rfl, rfl⟩

theorem Begins.refuses_mark {part : Part} (h : Begins part source) {c : Char}
    (hc : isOpening c = false) (text : List Char) : (token (c :: text)).Refuses source := by
  obtain ⟨d, tail, rfl, hd⟩ := h.exists_opening
  apply refuses_token_cons
  rintro rfl
  rw [hc] at hd
  cases hd

theorem Begins.refuses_space {part : Part} (h : Begins part source) : space.Refuses source :=
  h.refuses_mark rfl []

theorem Begins.refuses_sign {part : Part} (h : Begins part source) : sign.Refuses source :=
  Refuses.named (Refuses.choice (Refuses.map (h.refuses_mark rfl []))
    (Refuses.map (h.refuses_mark rfl [])))

/-! ### Each part refuses the others -/

/-- The expressions for a part do not fit. -/
def Part.Refused (source : List Char) : Part → Prop
  | dates => dateRange.Refuses source ∧ yearRange.Refuses source ∧ dayNumber.Refuses source ∧
      month.Refuses source ∧ (token "easter".toList).Refuses source
  | weeks => Grammar.weeks.Refuses source
  | holidays => holiday.Refuses source
  | weekdays => weekdayRange.Refuses source
  | spans => moment.Refuses source
  | kind => Grammar.kind.Refuses source
  | comment => Grammar.comment.Refuses source

/-- At a digit there is no word, and no event of the sun either. -/
theorem refuses_of_isDigit {c : Char} (h : c.isDigit = true) (rest : List Char) :
    month.Refuses (c :: rest) ∧ (token "easter".toList).Refuses (c :: rest) ∧
      solarMoment.Refuses (c :: rest) ∧
      ∀ part, part ≠ .dates → part ≠ .spans → Part.Refused (c :: rest) part := by
  rcases eq_of_isDigit h with rfl | rfl | rfl | rfl | rfl | rfl | rfl | rfl | rfl | rfl <;>
  · refine ⟨fun _ => rfl, fun _ => rfl, fun _ => rfl, fun part hdates hspans => ?_⟩
    cases part with
    | dates => exact absurd rfl hdates
    | spans => exact absurd rfl hspans
    | _ => exact fun _ => rfl

/-- A number that no colon follows is not a clock time. -/
theorem refuses_clock (hdigits : ∀ c ∈ row, c.isDigit = true) (hrow : row ≠ [])
    (hrest : NoDigit rest) (hcolon : rest.head? ≠ some ':') : clock.Refuses (row ++ rest) := by
  have hpos := List.length_pos_iff.2 hrow
  have htail : (token [':']).Refuses (row.drop 2 ++ rest) := by
    cases hdrop : row.drop 2 with
    | nil =>
      cases rest with
      | nil => exact refuses_token_nil
      | cons c rest => exact refuses_token_cons fun heq => hcolon (heq ▸ rfl)
    | cons c others =>
      apply refuses_token_cons
      rintro rfl
      cases hdigits ':' (List.mem_of_mem_drop (hdrop ▸ List.mem_cons_self))
  rw [← List.take_append_drop 2 row, List.append_assoc]
  apply Refuses.named
  refine Refuses.map (Refuses.seq_left (Refuses.followedBy_right (Ends.named
    (reads_chars (fun c hc => hdigits c (List.mem_of_mem_take hc)) ?_ ?_ ?_ rfl)) htail))
  · rw [List.length_take]
    omega
  · rintro _ ⟨⟩
    exact List.length_take_le _ _
  · by_cases hlength : 2 ≤ row.length
    · exact .inr ⟨2, rfl, List.length_take_of_le hlength⟩
    · rw [List.drop_eq_nil_of_le (by omega)]
      exact .inl hrest

/-- Behind a year, or without one, a date begins with a month or with the word for Easter. -/
theorem refuses_date (hlead : leadingYear.Reads source rest fun _ => True)
    (hmonth : month.Refuses rest) (heaster : (token "easter".toList).Refuses rest) :
    day.Refuses source ∧ dateRange.Refuses source := by
  have hday : day.Refuses source :=
    Refuses.named (Refuses.map (Refuses.seq_right hlead (Refuses.choice
      (Refuses.map (Refuses.seq_left hmonth.followedBy)) (Refuses.named (Refuses.map heaster)))))
  exact ⟨hday, Refuses.named (Refuses.choice hday.seq_left.map
    (Refuses.map (Refuses.seq_right hlead hmonth.seq_left)))⟩

theorem refused_dates (hyear : year.Refuses source) (hnumber : dayNumber.Refuses source)
    (hmonth : month.Refuses source) (heaster : (token "easter".toList).Refuses source) :
    Part.Refused source .dates :=
  ⟨(refuses_date (reads_optional_none hyear.followedBy trivial) hmonth heaster).2,
    Refuses.named (Refuses.map hyear.seq_left), hnumber, hmonth, heaster⟩

/-- Two digits with a colon after them are neither a date nor the number of a day. -/
theorem refused_dates_clock {c d : Char} (hc : c.isDigit = true) (hd : d.isDigit = true)
    (rest : List Char) : Part.Refused (c :: d :: ':' :: rest) .dates := by
  have hdigits : ∀ e ∈ [c, d], e.isDigit = true := by
    intro e he
    rcases List.mem_cons.1 he with rfl | he
    · exact hc
    · rw [List.mem_singleton.1 he]
      exact hd
  have hyear : year.Refuses ([c, d] ++ ':' :: rest) :=
    Refuses.named (refuses_digits hdigits (by decide) (fun _ => id) (noDigit_cons rfl)
      (.inl (show 2 < 4 by decide)))
  obtain ⟨hmonth, heaster, -⟩ := refuses_of_isDigit hc (d :: ':' :: rest)
  refine refused_dates hyear ?_ hmonth heaster
  apply Refuses.named
  refine Refuses.followedBy_right (reads_chars hdigits (show 1 ≤ 2 by decide) ?_
    (.inr ⟨2, rfl, rfl⟩) rfl) (refuses_notNext rfl)
  rintro _ ⟨⟩
  exact Nat.le_refl 2

/-- The expressions for a part do not fit where a word of another part stands. -/
theorem refused_of_word {part other : Part} (hne : other ≠ part) {word : String}
    (hword : word ∈ part.words) (rest : List Char) : other.Refused (word.toList ++ rest) := by
  cases other with
  | dates =>
    cases part with
    | dates => exact absurd rfl hne
    | _ =>
      fin_cases hword <;>
        exact refused_dates (fun _ => rfl) (fun _ => rfl) (fun _ => rfl) fun _ => rfl
  | _ =>
    cases part <;> first
      | exact absurd rfl hne
      | fin_cases hword <;> exact fun _ => rfl

/-- The expressions for a part do not fit a text that begins like another part. -/
theorem Begins.refused {part other : Part} (h : Begins part source) (hne : other ≠ part) :
    other.Refused source := by
  cases h with
  | numeral hdigits hrow hrest hcolon =>
    by_cases hspans : other = .spans
    · subst hspans
      obtain ⟨c, tail, heq, hc⟩ := @isDigit_head _ _ hdigits hrow
      have hclock := refuses_clock hdigits hrow hrest hcolon
      rw [heq] at hclock ⊢
      exact Refuses.named (Refuses.choice hclock.map (refuses_of_isDigit hc tail).2.2.1)
    · obtain ⟨c, tail, heq, hc⟩ := @isDigit_head _ _ hdigits hrow
      rw [heq]
      exact (refuses_of_isDigit hc tail).2.2.2 other hne hspans
  | clock hc hd rest =>
    by_cases hdates : other = .dates
    · subst hdates
      exact refused_dates_clock hc hd rest
    · exact (refuses_of_isDigit hc _).2.2.2 other hdates hne
  | word hword rest => exact refused_of_word hne hword rest

theorem Begins.refuses_dates (h : Begins part source) (hne : part ≠ .dates) :
    dates.Refuses source :=
  Refuses.named (refuses_separatedBy (h.refused hne.symm).1)

theorem Begins.refuses_years (h : Begins part source) (hne : part ≠ .dates) :
    years.Refuses source :=
  Refuses.named (refuses_separatedBy (h.refused hne.symm).2.1)

theorem Begins.refuses_weeks (h : Begins part source) (hne : part ≠ .weeks) :
    weeks.Refuses source :=
  h.refused hne.symm

theorem Begins.refuses_holidays (h : Begins part source) (hne : part ≠ .holidays) :
    holidays.Refuses source :=
  Refuses.named (refuses_separatedBy (h.refused hne.symm))

theorem Begins.refuses_weekdays (h : Begins part source) (hne : part ≠ .weekdays) :
    weekdays.Refuses source :=
  Refuses.named (refuses_separatedBy (h.refused hne.symm))

theorem Begins.refuses_span (h : Begins part source) (hne : part ≠ .spans) :
    span.Refuses source :=
  Refuses.named (Refuses.map (Refuses.located (Refuses.seq_left (h.refused hne.symm))))

theorem Begins.refuses_wide (h : Begins part source) (hlt : Part.weeks.rank < part.rank) :
    wide.Refuses source := by
  have hdates : part ≠ .dates := ne_of_rank_lt (Nat.zero_lt_of_lt hlt)
  have hyears := h.refuses_years hdates
  apply Refuses.named
  refine Refuses.choice (Refuses.map (Refuses.seq_left (Refuses.choice ?_ ?_))) ?_
  · exact (h.refuses_dates hdates).map
  · exact hyears.seq_left.map
  · exact (h.refuses_weeks (ne_of_rank_lt hlt)).map

theorem Begins.refuses_days (h : Begins part source) (hlt : Part.weekdays.rank < part.rank) :
    days.Refuses source := by
  have hholidays := h.refuses_holidays (ne_of_rank_lt (Nat.lt_of_succ_lt hlt))
  have hweekdays := h.refuses_weekdays (ne_of_rank_lt hlt)
  apply Refuses.named
  refine Refuses.choice ?_ (Refuses.choice ?_ (Refuses.choice ?_ refuses_fail))
  · exact Refuses.named (Refuses.map (Refuses.seq_left hholidays.followedBy))
  · exact hweekdays.seq_left.map
  · exact hholidays.seq_left.map

theorem Begins.refuses_small (h : Begins part source) (hlt : Part.spans.rank < part.rank) :
    small.Refuses source :=
  Refuses.named (Refuses.choice (h.refuses_days (Nat.lt_of_succ_lt hlt)).seq_left.map
    (Refuses.named (refuses_separatedBy (h.refuses_span (ne_of_rank_lt hlt)))).map)

/-! ### What comes after an element of a list -/

/-- A blank comes, and then a part that stands later in a rule. -/
def After (part : Part) (rest : List Char) : Prop :=
  ∃ other source, rest = ' ' :: source ∧ Begins other source ∧ part.rank < other.rank

/-- An element of a list is over: a comma comes, or a blank and then a later part. -/
def GoesOn (part : Part) (rest : List Char) : Prop :=
  (∃ source, rest = ',' :: source) ∨ After part rest

theorem After.mono {earlier : Part} (h : After part rest) (hle : earlier.rank ≤ part.rank) :
    After earlier rest := by
  obtain ⟨other, source, rfl, hbegins, hlt⟩ := h
  exact ⟨other, source, rfl, hbegins, Nat.lt_of_le_of_lt hle hlt⟩

theorem goesOn_comma (part : Part) (source : List Char) : GoesOn part (',' :: source) :=
  .inl ⟨source, rfl⟩

/-- Nothing that begins with a mark fits where an element is over. -/
theorem GoesOn.refuses_token (h : GoesOn part rest) {c : Char} (hc : c ∉ [',', ' '])
    (text : List Char) : (token (c :: text)).Refuses rest := by
  rcases h with ⟨source, rfl⟩ | ⟨other, source, rfl, -, -⟩ <;>
  · apply refuses_token_cons
    rintro rfl
    exact hc (by simp)

theorem After.refuses_token (h : After part rest) {c : Char} (hblank : c ≠ ' ')
    (text : List Char) : (token (c :: text)).Refuses rest := by
  obtain ⟨other, source, rfl, -, -⟩ := h
  exact refuses_token_cons hblank

theorem GoesOn.refuses_spaced (h : GoesOn part rest) {mark : String} {c : Char} {text : List Char}
    (hmark : mark.toList = c :: text) (hcomma : c ≠ ',') (hc : isOpening c = false) :
    (spaced mark).Refuses rest := by
  rcases h with ⟨source, rfl⟩ | ⟨other, source, rfl, hbegins, -⟩
  · exact Grammar.refuses_spaced (refuses_space (by decide)) (hmark ▸ refuses_token_cons hcomma)
  · exact refuses_spaced_space hbegins.refuses_space (hmark ▸ hbegins.refuses_mark hc text)

theorem GoesOn.refuses_dayOffset (h : GoesOn part rest) : dayOffset.Refuses rest := by
  refine Refuses.map (Refuses.located (Refuses.named (Refuses.followedBy ?_)))
  rcases h with ⟨source, rfl⟩ | ⟨other, source, rfl, hbegins, -⟩
  · exact Refuses.andThen (refuses_someSpace (refuses_space (by decide)))
  · exact Refuses.andThen_right (reads_someSpace hbegins.refuses_space)
      hbegins.refuses_sign.seq_left

end Grammar

end Timetable
