import Timetable.Proofs.Reading.Hours

/-!
Reading a text in which the hyphen of a span has lost the blanks around it.

A hyphen without blanks may stand between years, months, weekdays and weeks as well. None of them is
read at the hyphen of a span: a moment stands behind it, and none of them begins as a moment does
(`BeginsMoment`), and a moment stands in front of it. Everything else that is read with a hyphen is
read with blanks around it, or behind a blank, where a hyphen does not come next in either text.
-/

namespace Timetable.Grammar

open Peg

/-- A moment comes next. -/
def BeginsMoment (text : List Char) : Prop :=
  (∃ row rest, IsHour row ∧ text = row ++ ':' :: rest) ∨
    (∃ event : SolarEvent, ∃ rest, text = event.keyword.toList ++ rest) ∨ ∃ rest, text = '(' :: rest

/-- The blanks around the hyphen of a span are dropped. -/
def tightening : Touch where
  behind lead := IsClock lead ∨ (∃ event : SolarEvent, lead = event.keyword.toList) ∨ lead = [')']
  place here here' := ∃ before after rest, BeginsMoment rest ∧
    here = List.replicate before ' ' ++ '-' :: (List.replicate after ' ' ++ rest) ∧
    here' = '-' :: rest

namespace BeginsMoment

variable {text : List Char} (h : BeginsMoment text)

include h

theorem exists_head :
    ∃ c rest, text = c :: rest ∧ (c.isDigit = true ∨ c ∈ ['d', 's', '(']) := by
  rcases h with ⟨row, rest, hrow, rfl⟩ | ⟨event, rest, rfl⟩ | ⟨rest, rfl⟩
  · obtain ⟨c, others, heq, hc⟩ :=
      @isDigit_head row (':' :: rest) hrow.isDigit (List.length_pos_iff.1 hrow.pos)
    exact ⟨c, others, heq, .inl hc⟩
  · have hhead : ∃ c others, event.keyword.toList = c :: others ∧ c ∈ ['d', 's', '('] := by
      cases event <;> exact ⟨_, _, rfl, by decide⟩
    obtain ⟨c, others, heq, hc⟩ := hhead
    exact ⟨c, others ++ rest, by rw [heq, List.cons_append], .inr hc⟩
  · exact ⟨'(', rest, rfl, .inr (by decide)⟩

/-- What begins with another character than a moment is not read, with blanks or without. -/
theorem refuses {α : Type} {peg : Peg α} (hidle : peg.idle = false)
    (hopens : [' ', 'd', 's', '('].all (!peg.opens ·) = true)
    (hdigits : "0123456789".toList.all (!peg.opens ·) = true) (blanks : Nat) :
    peg.Refuses (List.replicate blanks ' ' ++ text) := by
  have hno : ∀ {marks : List Char}, marks.all (!peg.opens ·) = true → ∀ c ∈ marks,
      peg.opens c = false := fun hall c hc => by simpa using List.all_eq_true.1 hall c hc
  refine refuses_of_opens hidle fun c hc => ?_
  cases blanks with
  | zero =>
    obtain ⟨d, rest, rfl, hd⟩ := h.exists_head
    obtain rfl : d = c := Option.some.inj hc
    rcases hd with hd | hd
    · exact hno hdigits d (mem_digits_of_isDigit hd)
    · exact hno hopens d (List.mem_cons_of_mem ' ' hd)
  | succ blanks =>
    obtain rfl : ' ' = c := Option.some.inj hc
    exact hno hopens ' ' List.mem_cons_self

/-- Behind blanks no number is read, and without them not all of one that is followed by blanks. -/
theorem refuses_year (blanks : Nat) : year.Refuses (List.replicate blanks ' ' ++ text) := by
  cases blanks with
  | succ blanks => exact refuses_of_opens rfl (by rintro _ ⟨⟩; rfl)
  | zero =>
    rcases h with ⟨row, rest, hrow, rfl⟩ | ⟨event, rest, rfl⟩ | ⟨rest, rfl⟩
    · exact hrow.refuses_year rest
    · cases event <;> exact refuses_of_opens rfl (by rintro _ ⟨⟩; rfl)
    · exact refuses_of_opens rfl (by rintro _ ⟨⟩; rfl)

end BeginsMoment

theorem behindMoment_tightening : BehindMoment tightening where
  blank := by
    rintro lead (hclock | ⟨event, rfl⟩ | rfl)
    · exact hclock.not_mem rfl (by decide)
    · cases event <;> decide
    · decide
  comma := by
    rintro lead (hclock | ⟨event, rfl⟩ | rfl)
    · exact hclock.not_mem rfl (by decide)
    · cases event <;> decide
    · decide
  mark := by
    rintro lead (hclock | ⟨event, rfl⟩ | rfl)
    · exact ⟨':', hclock.colon_mem, rfl⟩
    · cases event <;> exact ⟨_, List.mem_cons_self, rfl⟩
    · exact ⟨')', List.mem_cons_self, rfl⟩

theorem dropWhile_blanks (blanks : Nat) (text : List Char) :
    (List.replicate blanks ' ' ++ text).dropWhile (· == ' ') = text.dropWhile (· == ' ') := by
  induction blanks with
  | zero => rfl
  | succ blanks ih => rw [List.replicate_succ, List.cons_append, List.dropWhile_cons_of_pos rfl, ih]

section Tightening

variable {before after : Nat} {text : List Char}

theorem dropWhile_hyphen (before : Nat) (text : List Char) :
    (List.replicate before ' ' ++ '-' :: text).dropWhile (· == ' ') = '-' :: text :=
  dropWhile_blanks before ('-' :: text)

theorem reads_spaces_hyphen (before : Nat) (text : List Char) :
    spaces.Reads (List.replicate before ' ' ++ '-' :: text) ('-' :: text) fun _ => True := by
  have hspaces := reads_spaces (List.replicate before ' ' ++ '-' :: text)
  rwa [dropWhile_hyphen] at hspaces

theorem reads_spaces_blanks (after : Nat) (text : List Char) :
    spaces.Reads (List.replicate after ' ' ++ text) (text.dropWhile (· == ' ')) fun _ => True := by
  have hspaces := reads_spaces (List.replicate after ' ' ++ text)
  rwa [dropWhile_blanks] at hspaces

theorem spares_tightening {c : Char} (hblank : c ≠ ' ') (hhyphen : c ≠ '-') :
    tightening.Spares c := by
  rintro here here' ⟨before, after, rest, -, rfl, rfl⟩
  refine ⟨?_, fun heq => hhyphen (Option.some.inj heq).symm⟩
  cases before with
  | zero => exact fun heq => hhyphen (Option.some.inj heq).symm
  | succ before => exact fun heq => hblank (Option.some.inj heq).symm

theorem passes_tightening {c : Char} (hc : c ∉ [' ', '-', '"', '[']) :
    tightening.rewriting.Passes c := by
  simp only [List.mem_cons, List.not_mem_nil, or_false, not_or] at hc
  obtain ⟨hblank, hhyphen, hquote, hbracket⟩ := hc
  exact Touch.passes_rewriting (Enclosure.after_of_ne hquote hbracket)
    (spares_tightening hblank hhyphen)

/-- Behind blanks, there is a hyphen. -/
theorem readsAlike_behindSpace {α γ : Type} {peg : Peg α} {view : α → γ} (hidle : peg.idle = false)
    (hhyphen : peg.opens '-' = false) : tightening.ReadsAlike (someSpace.andThen peg) view := by
  have hrefuses : ∀ text, peg.Refuses ('-' :: text) := fun text =>
    refuses_of_opens hidle (by rintro _ ⟨⟩; exact hhyphen)
  refine Touch.readsAlike_of_refuses ?_
  rintro here here' ⟨before, after, rest, -, rfl, rfl⟩
  refine ⟨refuses_behindSpace ?_, refuses_behindSpace (hrefuses rest)⟩
  rw [dropWhile_hyphen]
  exact hrefuses _

theorem tolerant_behindSpace_tightening {α γ : Type} {peg : Peg α} {view : α → γ}
    {ends : α → Prop} (h : peg.Tolerant tightening.rewriting view ends)
    (hidle : peg.idle = false) (hhyphen : peg.opens '-' = false) :
    (someSpace.andThen peg).Tolerant tightening.rewriting view ends :=
  Touch.tolerant_of_inside
    (Leads.andThen behindMoment_tightening.leads_someSpace (h.narrow Touch.Within.anywhere))
    (readsAlike_behindSpace hidle hhyphen)

/-- What stands behind a hyphen without blanks does not begin like a moment. -/
theorem steady_behindHyphen {α γ : Type} {peg : Peg α} {view : α → γ}
    (h : peg.Steady tightening.rewriting view)
    (hrefuses : ∀ {text}, BeginsMoment text → ∀ blanks,
      peg.Refuses (List.replicate blanks ' ' ++ text)) :
    ((token ['-']).andThen peg).Steady tightening.rewriting view := by
  refine Touch.tolerant_of_inside (Leads.andThen (Touch.leads_token_inside rfl) h)
    (Touch.readsAlike_of_refuses ?_)
  rintro here here' ⟨before, after, rest, hrest, rfl, rfl⟩
  refine ⟨?_, Refuses.andThen_right (reads_token_cons '-' rest) (hrefuses hrest 0)⟩
  cases before with
  | zero => exact Refuses.andThen_right (reads_token_cons '-' _) (hrefuses hrest after)
  | succ before => exact Refuses.andThen (refuses_token_cons (by decide))

theorem steady_spaces_tightening : spaces.Steady tightening.rewriting id := by
  refine Touch.tolerant_of_inside
    (behindMoment_tightening.steady_spaces_inside.widen Touch.Within.anywhere id) ?_
  rintro here here' ⟨before, after, rest, hrest, rfl, rfl⟩ offset offset'
  have hplace : tightening.place ('-' :: (List.replicate after ' ' ++ rest)) ('-' :: rest) :=
    ⟨0, after, rest, hrest, rfl, rfl⟩
  have hbehind : tightening.behind [')'] := .inr (.inr rfl)
  exact .of_reads (reads_spaces_hyphen before _) (reads_spaces ('-' :: rest))
    (Touch.Within.before [] rfl (Touch.fits_nil hbehind) trivial hplace rfl rfl)
    (fun _ _ _ _ => rfl) offset offset'

/-- The hyphen of a span is read with all blanks beside it. -/
theorem steady_hyphen_tightening : (spaced "-").Steady tightening.rewriting id := by
  have hmark : (spaces.andThen (token ['-'])).Leads tightening.inside tightening.rewriting id
      fun _ => False :=
    Leads.andThen behindMoment_tightening.steady_spaces_inside (Touch.leads_token_inside rfl)
  refine Touch.tolerant_of_inside (Leads.followedBy hmark steady_spaces_tightening) ?_
  rintro here here' ⟨before, after, rest, -, rfl, rfl⟩ offset offset'
  have hreads : (spaced "-").Reads
      (List.replicate before ' ' ++ '-' :: (List.replicate after ' ' ++ rest))
      (rest.dropWhile (· == ' ')) fun _ => True := by
    rw [← dropWhile_blanks after rest]
    exact reads_spaced_dropWhile (dropWhile_hyphen before _)
  have hreads' : (spaced "-").Reads ('-' :: rest) (rest.dropWhile (· == ' ')) fun _ => True :=
    reads_spaced_dropWhile rfl
  exact .of_reads hreads hreads' (Touch.Within.same rfl) (fun _ _ _ _ => rfl) offset offset'

theorem reads_sign_hyphen (text : List Char) : sign.Reads ('-' :: text) text (· = false) :=
  fun _ => ⟨_, _, rfl, rfl, rfl⟩

theorem leads_sign_tightening :
    sign.Leads tightening.inside tightening.rewriting id fun _ => False := by
  have hmark : ∀ {c : Char} {positive : Bool}, Enclosure.nothing.after c = .nothing →
      (map (fun _ => positive) (token [c])).Leads tightening.inside tightening.rewriting id
        fun _ => False := fun hopens =>
    (Touch.leads_token_inside hopens).map (fun _ _ _ => rfl) fun _ => id
  exact Leads.named (Leads.choice (hmark rfl) (hmark rfl))

theorem steady_sign_tightening :
    (spaces.andThen (sign.followedBy spaces)).Steady tightening.rewriting id := by
  refine Touch.tolerant_of_inside (Leads.andThen behindMoment_tightening.steady_spaces_inside
    (Leads.followedBy leads_sign_tightening steady_spaces_tightening)) ?_
  rintro here here' ⟨before, after, rest, -, rfl, rfl⟩ offset offset'
  have hreads := Ends.andThen (reads_spaces_hyphen before (List.replicate after ' ' ++ rest))
    (Ends.followedBy (reads_sign_hyphen _) (reads_spaces_blanks after rest))
  have hreads' := Ends.andThen (reads_spaces ('-' :: rest))
    (Ends.followedBy (reads_sign_hyphen rest) (reads_spaces rest))
  exact .of_reads hreads hreads'
    (Touch.Within.same rfl) (fun _ _ ha ha' => by rw [ha, ha']) offset offset'

/-- Behind a hyphen, no number of days is read: a moment is no number, and the number of an hour is
not followed by a blank. -/
theorem refuses_days_of_beginsMoment {β : Type} {unit : Peg β} {text : List Char}
    (h : BeginsMoment text) (before after : Nat) :
    ((someSpace.andThen (seq sign number)).followedBy (someSpace.andThen unit)).Refuses
      (List.replicate before ' ' ++ '-' :: (List.replicate after ' ' ++ text)) := by
  cases before with
  | zero =>
    exact Refuses.followedBy (Refuses.andThen (refuses_someSpace (refuses_space (by decide))))
  | succ before =>
    have hblank := reads_someSpace_dropWhile
      (List.replicate before ' ' ++ '-' :: (List.replicate after ' ' ++ text))
    rw [dropWhile_hyphen] at hblank
    have hno : ∀ {rest : List Char}, number.Refuses rest →
        (seq sign number).Refuses ('-' :: rest) := fun hrest =>
      Refuses.seq_right (reads_sign_hyphen _) hrest
    cases after with
    | succ after =>
      have hnumber : number.Refuses (List.replicate (after + 1) ' ' ++ text) :=
        refuses_of_opens rfl (by rintro _ ⟨⟩; rfl)
      exact Refuses.followedBy (Refuses.andThen_right hblank (hno hnumber))
    | zero =>
      rcases h with ⟨row, rest, hrow, rfl⟩ | ⟨event, rest, rfl⟩ | ⟨rest, rfl⟩
      · have hnumber := Ends.seq (reads_sign_hyphen _) (hrow.reads_number rest)
        exact Refuses.followedBy_right (Ends.andThen hblank hnumber)
          (Refuses.andThen (refuses_someSpace (refuses_space (by decide))))
      · have hnumber : number.Refuses (event.keyword.toList ++ rest) := by
          cases event <;> exact refuses_of_opens rfl (by rintro _ ⟨⟩; rfl)
        exact Refuses.followedBy (Refuses.andThen_right hblank (hno hnumber))
      · have hnumber : number.Refuses ('(' :: rest) :=
          refuses_of_opens rfl (by rintro _ ⟨⟩; rfl)
        exact Refuses.followedBy (Refuses.andThen_right hblank (hno hnumber))

theorem steady_dayOffset_tightening : dayOffset.Steady tightening.rewriting fun _ => () := by
  have hunit : (someSpace.andThen (choice (token "days".toList) (token "day".toList))).Steady
      tightening.rewriting id :=
    tolerant_behindSpace_tightening (steady_of_avoids (fun _ => passes_tightening) rfl) rfl rfl
  have hnumber : number.Steady tightening.rewriting id :=
    steady_of_avoids (fun _ => passes_tightening) rfl
  have hamount := Leads.seq
    (leads_sign_tightening.narrow behindMoment_tightening.inside_of_ahead) hnumber
  have hdays := Leads.followedBy
    (Leads.andThen behindMoment_tightening.leads_someSpace hamount) hunit
  refine steady_dayOffset_of (Touch.tolerant_of_inside hdays (Touch.readsAlike_of_refuses ?_))
  rintro here here' ⟨before, after, rest, hrest, rfl, rfl⟩
  exact ⟨refuses_days_of_beginsMoment hrest before after,
    refuses_days_of_beginsMoment hrest 0 0⟩

theorem harmless_tightening (sight : Sight) : Harmless tightening.rewriting sight := by
  have havoids : ∀ {α : Type} {peg : Peg α}, peg.avoids [' ', '-', '"', '['] = true →
      peg.Steady tightening.rewriting id := steady_of_avoids fun _ => passes_tightening
  have hweeks : weeks.Tolerant tightening.rewriting (List.map (meaning? WeekForm.interpret))
      fun _ => True := by
    have hno : ∀ text, weekRange.Refuses ('-' :: text) := fun text =>
      refuses_of_opens rfl (by rintro _ ⟨⟩; rfl)
    refine behindMoment_tightening.tolerant_weeks (fun c hc => ?_) ?_
    · simp only [List.mem_cons, List.not_mem_nil, or_false] at hc
      rcases hc with rfl | rfl | rfl | rfl <;> exact spares_tightening (by decide) (by decide)
    · rintro here here' ⟨before, after, rest, -, rfl, rfl⟩
      refine ⟨refuses_behindSpace ?_, refuses_behindSpace (hno rest)⟩
      rw [dropWhile_hyphen]
      exact hno _
  have hrule : HarmlessInRule tightening.rewriting sight := {
    passes := fun c hc => passes_tightening (not_mem_of_not_touched rfl hc)
    keepsCommas := keepsCommas_of_passes (passes_tightening (by decide))
    steady_always := havoids rfl
    steady_clock := (havoids rfl).seen
    steady_year := (havoids rfl).seen
    steady_dayNumber := (havoids rfl).seen
    steady_step := (havoids rfl).seen
    tolerant_weeks := hweeks
    steady_laterYear := steady_behindHyphen (havoids rfl).seen fun h => h.refuses_year
    steady_laterMonth := steady_behindHyphen (havoids rfl) fun h => h.refuses rfl rfl rfl
    steady_laterWeekday := steady_behindHyphen (havoids rfl) fun h => h.refuses rfl rfl rfl
    steady_dayOffset := steady_dayOffset_tightening
    steady_occurrences := Touch.steady_occurrences (spares_tightening (by decide) (by decide))
    steady_comment := Touch.steady_comment
      (Touch.readsAlike_of_spares (spares_tightening (by decide) (by decide)))
    steady_spaces := steady_spaces_tightening
    steady_hyphen := steady_hyphen_tightening
    steady_comma := (steady_spaces_tightening.andThen (havoids rfl)).followedBy
      steady_spaces_tightening
    steady_sign := steady_sign_tightening
    behindSpace := fun hpeg hidle hopens => by
      simp only [List.all_cons, List.all_nil, Bool.and_eq_true, Bool.not_eq_true'] at hopens
      exact tolerant_behindSpace_tightening hpeg hidle hopens.2.2.1 }
  refine hrule.harmless id (passes_tightening (by decide)) fun hrelates =>
    Touch.eq_nil_of_relates ?_ hrelates
  rintro here' ⟨before, after, rest, -, hnil, -⟩
  simp at hnil

end Tightening

end Timetable.Grammar
