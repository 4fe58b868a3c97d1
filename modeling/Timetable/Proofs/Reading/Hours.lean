import Timetable.Proofs.Grammar.Touch
import Timetable.Proofs.Reading.Harmless

/-!
Reading a text in which an hour is written in another way.

Where an hour of one digit gets a zero before it (`padding`), or the end of a span is written as the
end of the day instead of the beginning of the next one (`midnight`), the text changes at an hour
with a colon behind it. There neither a year nor the number of a day is read, and the clock times
look the same. Before the place, numbers are the same in both texts, since the character in front of
it is no part of a number (`ChangesHour`).

An hour may also be taken for the number of a week. A padded one is the same number. The end of a
span is never read as a week, as a clock time stands in front of its hyphen (`BehindMoment`).
-/

namespace Timetable.Grammar

open Peg

/-! ### What is enclosed -/

namespace Touch

variable {touch : Touch}

/-- Where neither text goes on with the first character, neither is read. -/
theorem readsAlike_of_spares {α γ : Type} {peg : Peg α} {view : α → γ} {first : Char}
    (h : touch.Spares first) : touch.ReadsAlike ((token [first]).andThen peg) view := by
  refine readsAlike_of_refuses fun here here' hhere => ?_
  obtain ⟨hno, hno'⟩ := h _ _ hhere
  exact ⟨Refuses.andThen (refuses_token_head hno), Refuses.andThen (refuses_token_head hno')⟩

theorem steady_occurrences (h : touch.Spares '[') :
    occurrences.Steady touch.rewriting fun _ => () :=
  steady_occurrences_of (steady_enclosed .brackets '[' ']' (by decide) rfl (fun _ => rfl)
    (readsAlike_of_spares h) : Steady _ _ id)

/-- Comments are read alike if they are so at the place. -/
theorem steady_comment {sight : Sight} (hplace : touch.ReadsAlike ((token ['"']).andThen
    ((chars (· != '"') 0 none).followedBy (token ['"'])))
      fun body => sight.comment (String.ofList body)) :
    comment.Steady touch.rewriting fun body => sight.comment (String.ofList body) :=
  steady_comment_of (steady_enclosed .quotes '"' '"' (by decide) rfl (fun _ => rfl) hplace)

end Touch

/-! ### Numbers before the place -/

/-- Characters of years, days, weeks, steps and clock times. -/
def isNumeral (c : Char) : Bool := c.isDigit || c == ':' || c == '/'

section Numbers

variable {rewriting : Rewriting} (h : ∀ c, isNumeral c = true → rewriting.Passes c)

include h

theorem passes_of_isDigit {c : Char} (hc : c.isDigit = true) : rewriting.Passes c :=
  h c (by simp [isNumeral, hc])

theorem steady_clock_of_numerals : clock.Steady rewriting id := by
  have hdigits : ∀ least : Nat, (named (digits least 2)).Steady rewriting id := fun least =>
    Leads.named (steady_chars (fun _ => passes_of_isDigit h) least (some 2))
  have hcolon : (token [':']).Steady rewriting id :=
    steady_token (List.forall_mem_singleton.2 (h ':' rfl))
  have hparts := ((hdigits 1).followedBy hcolon).seq (hdigits 2)
  exact Leads.named (hparts.map fun a b heq => by rw [show a = b from heq])

theorem steady_number_of_numerals : number.Steady rewriting id :=
  Leads.named (steady_chars (fun _ => passes_of_isDigit h) 1 none)

theorem steady_weekNumber_of_numerals : weekNumber.Steady rewriting id :=
  Leads.named (Steady.followedBy (steady_chars (fun _ => passes_of_isDigit h) 1 (some 2))
    (steady_notNext fun _ => passes_of_isDigit h))

theorem steady_year_of_numerals : year.Steady rewriting id :=
  Leads.named (Steady.followedBy (steady_chars (fun _ => passes_of_isDigit h) 4 (some 4))
    (steady_notNext fun _ => passes_of_isDigit h))

theorem steady_dayNumber_of_numerals : dayNumber.Steady rewriting id := by
  have hnext : (notNext fun c => c.isDigit || c == ':').Steady rewriting id :=
    steady_notNext fun c hc => h c (by rw [isNumeral, hc, Bool.true_or])
  exact Leads.named
    (Steady.followedBy (steady_chars (fun _ => passes_of_isDigit h) 1 (some 2)) hnext)

theorem steady_always_of_numerals : (token "24/7".toList).Steady rewriting id :=
  steady_token fun c hc => h c
    (List.all_eq_true.1 (rfl : "24/7".toList.all isNumeral = true) c hc)

theorem steady_step_of_numerals : ((token ['/']).andThen number).Steady rewriting id :=
  Steady.andThen (steady_token (List.forall_mem_singleton.2 (h '/' rfl)))
    (steady_number_of_numerals h)

end Numbers

/-! ### Hours -/

/-- One or two digits. -/
structure IsHour (row : List Char) : Prop where
  isDigit : ∀ c ∈ row, c.isDigit = true
  pos : 1 ≤ row.length
  le : row.length ≤ 2

namespace IsHour

variable {row : List Char} (h : IsHour row) (rest : List Char)

include h

theorem reads_digits : (digits 1 2).Reads (row ++ ':' :: rest) (':' :: rest) (· = row) := by
  refine reads_chars h.isDigit h.pos ?_ (.inl ?_) rfl
  · rintro _ ⟨⟩
    exact h.le
  · rintro _ ⟨⟩
    rfl

theorem reads_hour : ((named (digits 1 2)).followedBy (token [':'])).Reads
    (row ++ ':' :: rest) rest (· = row) :=
  Ends.followedBy (Ends.named (h.reads_digits rest)) (reads_token_cons ':' rest)

theorem reads_number : number.Reads (row ++ ':' :: rest) (':' :: rest) (· = row) := by
  refine Ends.named (reads_chars h.isDigit h.pos nofun (.inl ?_) rfl)
  rintro _ ⟨⟩
  rfl

theorem reads_weekNumber : weekNumber.Reads (row ++ ':' :: rest) (':' :: rest) (· = row) := by
  refine Ends.named (Grammar.reads_digits h.isDigit h.pos h.le (fun _ => id) ?_)
  rintro _ ⟨⟩
  rfl

theorem refuses_year : year.Refuses (row ++ ':' :: rest) :=
  Refuses.named (refuses_digits h.isDigit (by decide) (fun _ => id) (noDigit_cons rfl)
    (.inl (Nat.lt_of_le_of_lt h.le (by decide))))

/-- The hour of a clock time is not the number of a day. -/
theorem refuses_dayNumber : dayNumber.Refuses (row ++ ':' :: rest) := by
  have hcolon : (fun c : Char => c.isDigit || c == ':') ':' = true := rfl
  exact Refuses.named (Refuses.followedBy_right (h.reads_digits rest) (refuses_notNext hcolon))

theorem head_ne {c : Char} (hc : c.isDigit = false) : (row ++ ':' :: rest).head? ≠ some c := by
  obtain ⟨d, others, heq, hd⟩ :=
    @isDigit_head row (':' :: rest) h.isDigit (List.length_pos_iff.1 h.pos)
  rw [heq]
  rintro ⟨⟩
  rw [hc] at hd
  cases hd

theorem refuses_always : (token "24/7".toList).Refuses (row ++ ':' :: rest) := by
  apply refuses_token
  rintro ⟨more, hmore⟩
  have hlength := h.le
  match row, h.pos with
  | [d], _ => cases hmore
  | [d, e], _ => cases hmore

end IsHour

/-- An hour that looks like another one with the minutes behind it. -/
structure SameHour (sight : Sight) (row row' rest : List Char) : Prop where
  isHour : IsHour row
  isHour' : IsHour row'
  seen : ∀ minute, minute <+: rest → minute.length = 2 →
    ClockForm.seen sight ⟨row', minute⟩ = ClockForm.seen sight ⟨row, minute⟩

namespace SameHour

variable {touch : Touch} {sight : Sight}

/-- The minutes behind both hours are the same. -/
theorem alike_clock {row row' rest : List Char} (h : SameHour sight row row' rest)
    (offset offset' : Nat) : Alike .nothing (ClockForm.seen sight) (fun _ => False)
      (clock.run ⟨row ++ ':' :: rest, offset⟩).result
      (clock.run ⟨row' ++ ':' :: rest, offset'⟩).result := by
  obtain ⟨_, stop, hhour, rfl⟩ := (h.isHour.reads_hour rest).exists_result offset
  obtain ⟨_, stop', hhour', rfl⟩ := (h.isHour'.reads_hour rest).exists_result offset'
  have hminute : (named (digits 2 2)).Steady .nothing id :=
    steady_of_avoids (fun c _ => passes_nothing c) (rfl : Peg.avoids [] _ = true)
  have halike := hminute rest rest rfl stop stop'
  rw [clock, result_named, result_named, result_map, result_map, result_seq, result_seq, hhour,
    hhour', Option.bind_some, Option.bind_some]
  dsimp only
  generalize hresult : ((named (digits 2 2)).run ⟨rest, stop⟩).result = result at halike ⊢
  generalize ((named (digits 2 2)).run ⟨rest, stop'⟩).result = result' at halike ⊢
  cases halike with
  | refused => exact .refused
  | read hrest hview =>
    obtain rfl := hview
    rw [result_named] at hresult
    have hprefix : _ <+: rest := ⟨_, (rest_of_chars hresult).symm⟩
    have hlength := yields_chars stop _ _ hresult
    exact .read hrest (h.seen _ hprefix (Nat.le_antisymm (hlength.2.2 2 rfl) hlength.2.1))
  | stopped _ _ hno => exact hno.elim

end SameHour

/-- An hour becomes one that looks the same, behind another character than those of numbers. -/
structure ChangesHour (touch : Touch) (sight : Sight) : Prop where
  place : ∀ here here', touch.place here here' → ∃ row row' rest,
    SameHour sight row row' rest ∧ here = row ++ ':' :: rest ∧ here' = row' ++ ':' :: rest
  last : ∀ lead, touch.behind lead → ∃ init c, lead = init ++ [c] ∧ isNumeral c = false

namespace ChangesHour

variable {touch : Touch} {sight : Sight} (h : ChangesHour touch sight)

include h

theorem spares {c : Char} (hc : c.isDigit = false) : touch.Spares c := by
  intro here here' hhere
  obtain ⟨row, row', rest, hsame, rfl, rfl⟩ := h.place _ _ hhere
  exact ⟨hsame.isHour.head_ne rest hc, hsame.isHour'.head_ne rest hc⟩

theorem passes {c : Char} (hc : c ∉ "\"[0123456789".toList) : touch.rewriting.Passes c := by
  have hquote : c ≠ '"' := by
    rintro rfl
    simp at hc
  have hbracket : c ≠ '[' := by
    rintro rfl
    simp at hc
  have hdigit : c.isDigit = false := by
    refine Bool.not_eq_true _ ▸ fun hdigit => ?_
    have hmem := mem_digits_of_isDigit hdigit
    simp_all
  exact Touch.passes_rewriting (Enclosure.after_of_ne hquote hbracket) (h.spares hdigit)

theorem readsAlike_of_refuses {α γ : Type} {peg : Peg α} {view : α → γ}
    (hpeg : ∀ {row : List Char} (_ : IsHour row) (rest : List Char),
      peg.Refuses (row ++ ':' :: rest)) : touch.ReadsAlike peg view := by
  refine Touch.readsAlike_of_refuses fun here here' hhere => ?_
  obtain ⟨row, row', rest, hsame, rfl, rfl⟩ := h.place _ _ hhere
  exact ⟨hpeg hsame.isHour rest, hpeg hsame.isHour' rest⟩

/-- What takes numbers only has to be compared at the place. -/
theorem steady_of_numerals {α γ : Type} {peg : Peg α} {view : α → γ}
    (hpeg : (∀ c, isNumeral c = true → (touch.beyond isNumeral).Passes c) →
      peg.Steady (touch.beyond isNumeral) id) (hplace : touch.ReadsAlike peg view) :
    peg.Steady touch.rewriting view := by
  have hbeyond : peg.Steady (touch.beyond isNumeral) view :=
    Steady.seen (hpeg fun _ => Touch.passes_beyond rfl rfl)
  exact Touch.steady_of_beyond hbeyond h.last hplace

theorem steady_clock : clock.Steady touch.rewriting (ClockForm.seen sight) := by
  refine h.steady_of_numerals steady_clock_of_numerals fun here here' hhere offset offset' => ?_
  obtain ⟨row, row', rest, hsame, rfl, rfl⟩ := h.place _ _ hhere
  exact Touch.alike_of_nothing (hsame.alike_clock offset offset')

theorem steady_number : number.Steady touch.rewriting fun _ => () := by
  refine h.steady_of_numerals steady_number_of_numerals fun here here' hhere offset offset' => ?_
  obtain ⟨row, row', rest, hsame, rfl, rfl⟩ := h.place _ _ hhere
  exact .of_reads (hsame.isHour.reads_number rest) (hsame.isHour'.reads_number rest)
    (Touch.Within.same rfl) (fun _ _ _ _ => rfl) offset offset'

theorem steady_step : ((token ['/']).andThen number).Steady touch.rewriting Decimal.value :=
  h.steady_of_numerals steady_step_of_numerals (Touch.readsAlike_of_spares (h.spares rfl))

/-- All but the weeks is read as before. -/
theorem harmlessInRule (hweeks : weeks.Tolerant touch.rewriting
    (List.map (meaning? WeekForm.interpret)) fun _ => True) :
    HarmlessInRule touch.rewriting sight :=
  harmlessInRule_of_passes (fun _ => h.passes)
    (h.steady_of_numerals steady_always_of_numerals
      (h.readsAlike_of_refuses fun hrow => hrow.refuses_always))
    h.steady_clock
    (h.steady_of_numerals steady_year_of_numerals
      (h.readsAlike_of_refuses fun hrow => hrow.refuses_year))
    (h.steady_of_numerals steady_dayNumber_of_numerals
      (h.readsAlike_of_refuses fun hrow => hrow.refuses_dayNumber))
    h.steady_step h.steady_number hweeks (Touch.steady_occurrences (h.spares rfl))
    (Touch.steady_comment (Touch.readsAlike_of_spares (h.spares rfl)))

theorem harmless (hweeks : weeks.Tolerant touch.rewriting
    (List.map (meaning? WeekForm.interpret)) fun _ => True) :
    Harmless touch.rewriting sight := by
  refine (h.harmlessInRule hweeks).harmless id (h.passes (by simp)) fun hrelates =>
    Touch.eq_nil_of_relates (fun here' hhere => ?_) hrelates
  obtain ⟨row, row', rest, -, hnil, -⟩ := h.place _ _ hhere
  simp at hnil

end ChangesHour

/-! ### An hour gets a zero -/

/-- An hour of one digit gets a zero before it. -/
def padding : Touch where
  behind lead := ∃ c, isNumeral c = false ∧ lead = [c]
  place here here' := ∃ c rest, c.isDigit = true ∧ here = c :: ':' :: rest ∧ here' = '0' :: here

theorem isHour_single {c : Char} (h : c.isDigit = true) : IsHour [c] :=
  ⟨by simpa using h, by simp, by simp⟩

theorem isHour_pair {c d : Char} (h : c.isDigit = true) (h' : d.isDigit = true) : IsHour [c, d] :=
  ⟨by simpa using ⟨h, h'⟩, by simp, by simp⟩

theorem changesHour_padding (sight : Sight) : ChangesHour padding sight where
  place := by
    rintro here here' ⟨c, rest, hc, rfl, rfl⟩
    refine ⟨[c], ['0', c], rest, ⟨isHour_single hc, isHour_pair rfl hc, fun minute _ _ => ?_⟩,
      rfl, rfl⟩
    exact seen_clockForm (a := (['0', c], minute)) (b := ([c], minute)) rfl
  last := by
    rintro lead ⟨c, hc, rfl⟩
    exact ⟨[], c, rfl, hc⟩

/-- A padded hour that is read as the number of a week is the same number. -/
theorem steady_weekNumber_padding : weekNumber.Steady padding.rewriting Decimal.value := by
  refine (changesHour_padding .exact).steady_of_numerals steady_weekNumber_of_numerals ?_
  rintro here here' ⟨c, rest, hc, rfl, rfl⟩ offset offset'
  refine .of_reads ((isHour_single hc).reads_weekNumber rest)
    ((isHour_pair rfl hc).reads_weekNumber rest) (Touch.Within.same rfl) ?_ offset offset'
  rintro _ _ rfl rfl
  rfl

theorem harmless_padding (sight : Sight) : Harmless padding.rewriting sight := by
  have h := changesHour_padding sight
  have havoids : ∀ {α : Type} {peg : Peg α}, peg.avoids "\"[0123456789".toList = true →
      peg.Steady padding.rewriting id := steady_of_avoids fun _ => h.passes
  have hlater : ((token ['-']).andThen weekNumber).Steady padding.rewriting Decimal.value :=
    Steady.andThen (havoids rfl) steady_weekNumber_padding
  have hweek := steady_weekRange_of steady_weekNumber_padding hlater h.steady_step
  have hblank : someSpace.Steady padding.rewriting id :=
    Steady.andThen (havoids rfl)
      (Steady.map (Steady.many (havoids rfl) consumes_space) fun _ _ _ => rfl)
  exact h.harmless (tolerant_weeks_of (havoids rfl) (hblank.andThen hweek)
    (hweek.manyBehindCommas (keepsCommas_of_passes (h.passes (by simp))) rfl rfl))

/-! ### Behind a moment -/

/-- Characters of weeks and their steps. -/
def isWeekly (c : Char) : Bool := c.isDigit || c == '-' || c == '/'

/-- What stands in front of the place cannot be read as weeks. -/
structure BehindMoment (touch : Touch) : Prop where
  blank : ∀ lead, touch.behind lead → ' ' ∉ lead
  comma : ∀ lead, touch.behind lead → ',' ∉ lead
  mark : ∀ lead, touch.behind lead → ∃ c ∈ lead, isWeekly c = false

namespace BehindMoment

variable {touch : Touch} (h : BehindMoment touch)

include h

theorem not_ahead_nil : ¬ ∃ lead, touch.behind lead ∧ lead <:+ [] := by
  rintro ⟨lead, hlead, hsuffix⟩
  obtain ⟨c, hc, -⟩ := h.mark lead hlead
  rw [List.suffix_nil.1 hsuffix] at hc
  cases hc

/-- Blanks do not lead to the place. -/
theorem leads_blank {far : List Char → Prop} (hnil : ¬ far []) :
    (token [' ']).Leads (touch.within far) touch.ahead id fun _ => False :=
  Touch.leads_token_within rfl (fun hfar => absurd hfar hnil) fun _ hfits _ => hfits.ahead h.blank

theorem leads_someSpace : someSpace.Leads touch.inside touch.ahead id fun _ => False := by
  have hspace : (token [' ']).Steady touch.ahead id := h.leads_blank h.not_ahead_nil
  have hspaces : spaces.Steady touch.ahead id :=
    Steady.map (Steady.many hspace consumes_space) fun _ _ _ => rfl
  exact Leads.andThen (h.leads_blank fun hnil => hnil rfl) hspaces

theorem inside_of_ahead {text text' : List Char} (hrelates : touch.ahead.relates text text') :
    touch.inside.relates text text' := by
  refine hrelates.mono fun front _ hahead => ?_
  rintro rfl
  exact h.not_ahead_nil hahead

theorem steady_spaces_inside : spaces.Steady touch.inside id := by
  have hspace : (token [' ']).Leads touch.inside touch.ahead id fun _ => False :=
    h.leads_blank fun hnil => hnil rfl
  have hsteady : (token [' ']).Steady touch.inside id := hspace.widen h.inside_of_ahead id
  exact Steady.map (Steady.many hsteady consumes_space) fun _ _ _ => rfl

/-- Before the place weeks end with a character that is none of theirs. -/
theorem leads_weekRange : weekRange.Leads touch.ahead touch.rewriting
    (meaning? WeekForm.interpret) fun _ => False := by
  have hpasses : ∀ c, isWeekly c = true → (touch.beyond isWeekly).Passes c := fun _ =>
    Touch.passes_beyond rfl rfl
  have hdigit : ∀ c, c.isDigit = true → (touch.beyond isWeekly).Passes c := fun c hc =>
    hpasses c (by simp [isWeekly, hc])
  have hnumber : weekNumber.Steady (touch.beyond isWeekly) id :=
    Leads.named (Steady.followedBy (steady_chars hdigit 1 (some 2)) (steady_notNext hdigit))
  have hhyphen : (token ['-']).Steady (touch.beyond isWeekly) id :=
    steady_token (List.forall_mem_singleton.2 (hpasses '-' rfl))
  have hslash : (token ['/']).Steady (touch.beyond isWeekly) id :=
    steady_token (List.forall_mem_singleton.2 (hpasses '/' rfl))
  have hstep : number.Steady (touch.beyond isWeekly) id :=
    Leads.named (steady_chars hdigit 1 none)
  have hweek := steady_weekRange_of hnumber.seen (hhyphen.andThen hnumber.seen)
    (hslash.andThen hstep.seen)
  have hnarrow : weekRange.Leads touch.ahead (touch.beyond isWeekly)
      (meaning? WeekForm.interpret) fun _ => False := by
    refine hweek.narrow fun hrelates => hrelates.mono fun front _ hahead => ?_
    obtain ⟨lead, hlead, hsuffix⟩ := hahead
    obtain ⟨c, hc, hno⟩ := h.mark lead hlead
    exact ⟨c, hsuffix.mem hc, hno⟩
  exact hnarrow.widen Touch.Within.anywhere id

theorem tolerant_weeks (hspares : ∀ c ∈ ['w', 'e', 'k', ','], touch.Spares c)
    (hplace : ∀ here here', touch.place here here' →
      (someSpace.andThen weekRange).Refuses here ∧ (someSpace.andThen weekRange).Refuses here') :
    weeks.Tolerant touch.rewriting (List.map (meaning? WeekForm.interpret)) fun _ => True := by
  have hword : (token "week".toList).Steady touch.rewriting id := by
    refine steady_token fun c hc => ?_
    simp only [String.reduceToList, List.mem_cons, List.not_mem_nil, or_false] at hc
    rcases hc with rfl | rfl | rfl | rfl <;>
      exact Touch.passes_rewriting rfl (hspares _ (by simp))
  have hfirst : (someSpace.andThen weekRange).Steady touch.rewriting
      (meaning? WeekForm.interpret) :=
    Touch.tolerant_of_inside (Leads.andThen h.leads_someSpace h.leads_weekRange)
      (Touch.readsAlike_of_refuses hplace)
  have hcomma : (token [',']).Leads touch.rewriting touch.ahead id fun _ => False :=
    Touch.leads_token_within rfl (fun _ => hspares ',' (by simp)) fun _ hfits _ =>
      hfits.ahead h.comma
  have hlater : (many ((token [',']).andThen weekRange)).Steady touch.rewriting
      (List.map (meaning? WeekForm.interpret)) :=
    Steady.many (Leads.andThen hcomma h.leads_weekRange) consumes_comma.andThen
  exact tolerant_weeks_of hword hfirst (hlater.mono (fun _ _ => id) fun _ => False.elim)

end BehindMoment

/-! ### The end of the day -/

/-- A row of digits, a colon and another one. -/
def IsClock (text : List Char) : Prop :=
  ∃ hour minute : List Char, (∀ c ∈ hour, c.isDigit = true) ∧ (∀ c ∈ minute, c.isDigit = true) ∧
    text = hour ++ ':' :: minute

theorem IsClock.not_mem {text : List Char} (h : IsClock text) {c : Char}
    (hdigit : c.isDigit = false) (hcolon : c ≠ ':') : c ∉ text := by
  obtain ⟨hour, minute, hhour, hminute, rfl⟩ := h
  intro hc
  rcases List.mem_append.1 hc with hc | hc
  · exact absurd (hhour c hc) (by simp [hdigit])
  · rcases List.mem_cons.1 hc with hc | hc
    · exact hcolon hc
    · exact absurd (hminute c hc) (by simp [hdigit])

theorem IsClock.colon_mem {text : List Char} (h : IsClock text) : ':' ∈ text := by
  obtain ⟨hour, minute, -, -, rfl⟩ := h
  exact List.mem_append_right hour List.mem_cons_self

/-- A span that ends with the beginning of the day ends with the end of the day instead. -/
def midnight : Touch where
  behind lead := ∃ clock, IsClock clock ∧ lead = clock ++ ['-']
  place here here' := ∃ rest, here = '0' :: '0' :: ':' :: '0' :: '0' :: rest ∧
    here' = '2' :: '4' :: ':' :: '0' :: '0' :: rest

theorem interpret_clockForm {form : ClockForm} {hours : Nat} {time : ClockTime}
    (htime : ClockTime.ofHourMinute? (Decimal.value form.hour) (Decimal.value form.minute) =
      some time) (hle : time.minutes ≤ hours * 60) : form.interpret hours = .ok time := by
  rw [ClockForm.interpret, htime]
  exact if_pos hle

theorem changesHour_midnight {sight : Sight}
    (hsame : sight.time .endOfDay = sight.time .startOfDay) : ChangesHour midnight sight where
  place := by
    rintro here here' ⟨rest, rfl, rfl⟩
    refine ⟨['0', '0'], ['2', '4'], '0' :: '0' :: rest,
      ⟨isHour_pair rfl rfl, isHour_pair rfl rfl, ?_⟩, rfl, rfl⟩
    -- The minutes behind it are those of a full hour.
    rintro minute ⟨more, hmore⟩ hlength
    obtain rfl : minute = ['0', '0'] :=
      (List.append_inj (hmore : minute ++ more = ['0', '0'] ++ rest) hlength).1
    funext hours
    have hstart : ClockForm.interpret ⟨['0', '0'], ['0', '0']⟩ (24 + hours) = .ok .startOfDay :=
      interpret_clockForm rfl (Nat.zero_le _)
    have hend : ClockForm.interpret ⟨['2', '4'], ['0', '0']⟩ (24 + hours) = .ok .endOfDay :=
      interpret_clockForm rfl (Nat.mul_le_mul_right 60 (Nat.le_add_right 24 hours))
    rw [ClockForm.seen, ClockForm.seen, meaning?, meaning?, hstart, hend]
    exact congrArg some hsame
  last := by
    rintro lead ⟨clock, -, rfl⟩
    exact ⟨clock, '-', rfl, rfl⟩

theorem behindMoment_midnight : BehindMoment midnight where
  blank := by
    rintro lead ⟨clock, hclock, rfl⟩ hmem
    rcases List.mem_append.1 hmem with hmem | hmem
    · exact hclock.not_mem rfl (by decide) hmem
    · simp at hmem
  comma := by
    rintro lead ⟨clock, hclock, rfl⟩ hmem
    rcases List.mem_append.1 hmem with hmem | hmem
    · exact hclock.not_mem rfl (by decide) hmem
    · simp at hmem
  mark := by
    rintro lead ⟨clock, hclock, rfl⟩
    exact ⟨':', List.mem_append_left _ hclock.colon_mem, rfl⟩

theorem harmless_midnight {sight : Sight}
    (hsame : sight.time .endOfDay = sight.time .startOfDay) :
    Harmless midnight.rewriting sight := by
  have h := changesHour_midnight hsame
  refine h.harmless (behindMoment_midnight.tolerant_weeks (fun c hc => h.spares ?_) ?_)
  · simp only [List.mem_cons, List.not_mem_nil, or_false] at hc
    rcases hc with rfl | rfl | rfl | rfl <;> rfl
  · rintro here here' ⟨rest, rfl, rfl⟩
    exact ⟨Refuses.andThen (refuses_someSpace (refuses_space (by decide))),
      Refuses.andThen (refuses_someSpace (refuses_space (by decide)))⟩

end Timetable.Grammar
