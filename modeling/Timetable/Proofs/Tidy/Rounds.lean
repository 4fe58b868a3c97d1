import Timetable.Proofs.Tidy.Plain

/-!
Corrections that are repeated until a text is stable.

The two of them come to an end on every text, leave nothing to correct, and change nothing but what
they are for (`exchanges_untilStable`): hyphens with the beginning of the day behind a clock time,
and single spaces between spans. Each round may bring about what only the next one finds, but
nothing that was not there before: a place that is found in some round is a place of the text
(`Rewritten.replace`), as the characters that tell a place are never changed into one another.
-/

namespace Timetable.Tidy

variable {correction : Correction} {before : Option Char} {text new rest front back out : List Char}

/-! ### Rounds -/

/-- A text is corrected round after round, until a round changes nothing. -/
inductive EndsIn (correction : Correction) : List Char → List Char → Prop where
  | stable {text : List Char} : correct correction text = text → EndsIn correction text text
  | round {text result : List Char} : correct correction text ≠ text →
      EndsIn correction (correct correction text) result → EndsIn correction text result

/-- If a number of rounds makes a text stable, the rounds end there. -/
theorem endsIn_correctTimes {count : Nat}
    (h : correct correction (correctTimes correction count text) =
      correctTimes correction count text) :
    EndsIn correction text (correctTimes correction count text) := by
  induction count generalizing text with
  | zero => exact .stable h
  | succ count ih =>
    unfold correctTimes at h ⊢
    dsimp only at h ⊢
    split at h
    · rename_i hstable
      rw [if_pos hstable]
      exact .stable h
    · rename_i hchanged
      rw [if_neg hchanged]
      exact .round hchanged (ih h)

/-! ### Places -/

/-- A text with some of its places rewritten, given what stands before it. What makes a place is
told by the text before it and by the text behind it; there, the one text becomes the other one. -/
inductive Rewritten (old new : List Char) (Place : List Char → List Char → Prop) :
    List Char → List Char → List Char → Prop where
  | nil {front : List Char} : Rewritten old new Place front [] []
  | keep {front rest out : List Char} (c : Char) : Rewritten old new Place (front ++ [c]) rest out →
      Rewritten old new Place front (c :: rest) (c :: out)
  | place {front rest out : List Char} : Place front rest →
      Rewritten old new Place (front ++ old) rest out →
      Rewritten old new Place front (old ++ rest) (new ++ out)

/-- Two texts of the same length of which neither can begin within the other one. -/
structure Swap (old new : List Char) : Prop where
  length_eq : old.length = new.length
  ne : old ≠ new
  not_mem_new : ∀ c ∈ old.take 1, c ∉ new.tail
  not_mem_old : ∀ c ∈ new.take 1, c ∉ old.tail

section Rewritten

variable {old : List Char} {Place : List Char → List Char → Prop}

theorem Swap.ne_nil (h : Swap old new) : old ≠ [] ∧ new ≠ [] := by
  have hlength := h.length_eq
  have hne := h.ne
  constructor
  · rintro rfl
    exact hne (List.length_eq_zero_iff.1 hlength.symm).symm
  · rintro rfl
    exact hne (List.length_eq_zero_iff.1 hlength)

/-- What was rewritten is not found again: the next text to rewrite begins behind it. -/
theorem Swap.exists_append (h : Swap old new) (heq : new ++ out = front ++ (old ++ back)) :
    ∃ front', front = new ++ front' ∧ out = front' ++ (old ++ back) := by
  rcases List.append_eq_append_iff.1 heq with ⟨front', hfront, hout⟩ | ⟨part, hnew, hold⟩
  · exact ⟨front', hfront, hout⟩
  · cases part with
    | nil => exact ⟨[], by simpa using hnew.symm, hold.symm⟩
    | cons c part =>
      exfalso
      obtain ⟨d, old', rfl⟩ := List.exists_cons_of_ne_nil h.ne_nil.1
      obtain ⟨rfl, -⟩ := List.cons.inj hold
      cases front with
      | nil =>
        rw [hnew] at h
        exact h.ne (List.append_inj_left hold h.length_eq)
      | cons e front => exact h.not_mem_new d List.mem_cons_self (by rw [hnew]; simp)

theorem Rewritten.refl (text : List Char) : ∀ front, Rewritten old new Place front text text := by
  induction text with
  | nil => exact fun _ => .nil
  | cons c rest ih => exact fun _ => .keep c (ih _)

theorem Rewritten.forall₂ {R : Char → Char → Prop} (h : Rewritten old new Place front text out)
    (hrefl : ∀ c, R c c) (hswap : List.Forall₂ R old new) : List.Forall₂ R text out := by
  induction h with
  | nil => exact .nil
  | keep c _ ih => exact .cons (hrefl c) ih
  | place _ _ ih => exact List.rel_append hswap ih

/-- Where no rewritten text begins, the text is what it was. -/
theorem Rewritten.exists_kept {kept mid : List Char} (hkept : ∀ c ∈ new.take 1, c ∉ kept)
    (hne : new ≠ []) (h : Rewritten old new Place front text mid) (hmid : mid = kept ++ out) :
    ∃ rest, text = kept ++ rest ∧ Rewritten old new Place (front ++ kept) rest out := by
  induction kept generalizing front text mid with
  | nil =>
    obtain rfl := hmid
    exact ⟨text, rfl, by simpa using h⟩
  | cons c kept ih =>
    cases h with
    | nil => cases hmid
    | keep d h =>
      obtain ⟨rfl, hout⟩ := List.cons.inj hmid
      obtain ⟨rest, rfl, hrest⟩ :=
        ih (fun e he hmem => hkept e he (List.mem_cons_of_mem _ hmem)) h hout
      exact ⟨rest, rfl, by simpa using hrest⟩
    | place _ _ =>
      obtain ⟨d, new', rfl⟩ := List.exists_cons_of_ne_nil hne
      obtain ⟨rfl, -⟩ := List.cons.inj hmid
      exact absurd List.mem_cons_self (hkept d List.mem_cons_self)

/-- One more place is rewritten, provided that it is a place of the text. -/
theorem Rewritten.replace {mid : List Char} (hswap : Swap old new)
    (h : Rewritten old new Place front text mid) {front' back' : List Char}
    (hmid : mid = front' ++ (old ++ back'))
    (hplace : ∀ left right, left.length = front'.length → text = left ++ (old ++ right) →
      Place (front ++ left) right) :
    Rewritten old new Place front text (front' ++ (new ++ back')) := by
  obtain ⟨hold, hnew⟩ := hswap.ne_nil
  induction h generalizing front' with
  | nil => exact absurd (List.append_eq_nil_iff.1 (List.append_eq_nil_iff.1 hmid.symm).2).1 hold
  | @keep front rest out c h ih =>
    cases front' with
    | nil =>
      obtain ⟨d, tail, rfl⟩ := List.exists_cons_of_ne_nil hold
      obtain ⟨rfl, hout⟩ := List.cons.inj hmid
      obtain ⟨rest, rfl, hrest⟩ := h.exists_kept hswap.not_mem_old hnew hout
      have hhere := hplace [] rest rfl rfl
      rw [List.append_nil] at hhere
      exact .place hhere (by simpa using hrest)
    | cons d front' =>
      obtain ⟨rfl, hout⟩ := List.cons.inj hmid
      refine .keep c (ih hout fun left right hleft heq => ?_)
      have hthere := hplace (c :: left) right (congrArg (· + 1) hleft) (congrArg (c :: ·) heq)
      simpa using hthere
  | @place front rest out hthis h ih =>
    obtain ⟨front'', rfl, hout⟩ := hswap.exists_append hmid
    rw [List.append_assoc]
    refine .place hthis (ih hout fun left right hleft heq => ?_)
    have hthere := hplace (old ++ left) right (by simp [hleft, hswap.length_eq])
      (by rw [heq, List.append_assoc])
    simpa using hthere

end Rewritten

/-! ### Corrections that rewrite places -/

/-- Parts of the same length of two texts, character by character. -/
theorem forall₂_of_length_eq {R : Char → Char → Prop} {front' back' : List Char}
    (hlength : front.length = front'.length)
    (h : List.Forall₂ R (front ++ back) (front' ++ back')) :
    List.Forall₂ R front front' ∧ List.Forall₂ R back back' := by
  have htake := List.forall₂_take_append _ _ _ h
  have hdrop := List.forall₂_drop_append _ _ _ h
  rw [← hlength, List.take_left] at htake
  rw [← hlength, List.drop_left] at hdrop
  exact ⟨htake, hdrop⟩

/-- A correction rewrites a text at places, and is found at each of them. -/
structure Rewrites (correction : Correction) (old new : List Char)
    (Place : List Char → List Char → Prop) : Prop where
  at_place : ∀ {before part out rest}, correction before (part ++ rest) = some (out, rest) →
    ∃ left right, part ++ rest = left ++ (old ++ right) ∧ out ++ rest = left ++ (new ++ right) ∧
      ∀ front, Place (front ++ left) right
  found : ∀ {front back}, Place front back → ∃ left behind,
    front ++ (old ++ back) = left ++ behind ∧ correction left.getLast? behind ≠ none

section Rewrites

variable {old : List Char} {Place : List Char → List Char → Prop}

/-- Rounds rewrite places of the text they began with, if changing the characters that are changed
makes no new ones. -/
theorem Rewrites.rewritten_untilStable (h : Rewrites correction old new Place)
    (hreplaces : Replaces correction) (hswap : Swap old new) {R : Char → Char → Prop}
    (hrefl : ∀ c, R c c) (hR : List.Forall₂ R old new)
    (hplace : ∀ {front back front' back'}, Place front' back' → List.Forall₂ R front front' →
      List.Forall₂ R back back' → Place front back) (text : List Char) :
    Rewritten old new Place [] text (correctUntilStable correction text) := by
  let P : List Char → Prop := Rewritten old new Place [] text
  refine keeps_correctTimes (P := P) (fun mid hmid => ?_) (Rewritten.refl text []) _
  refine keeps_correct (P := P) hreplaces ?_ hmid
  intro before front part out rest hsome hP
  obtain ⟨left, right, hpart, hout, hhere⟩ := h.at_place hsome
  rw [hpart, ← List.append_assoc] at hP
  rw [hout, ← List.append_assoc]
  refine Rewritten.replace hswap hP rfl fun left' right' hlength htext => ?_
  have hcharacters := hP.forall₂ hrefl hR
  rw [htext] at hcharacters
  obtain ⟨hleft, hbehind⟩ := forall₂_of_length_eq hlength hcharacters
  exact hplace (hhere front) hleft (forall₂_of_length_eq rfl hbehind).2

/-- Where nothing is corrected, there is no place. -/
theorem Rewrites.not_place (h : Rewrites correction old new Place)
    (hnone : ∀ front back, text = front ++ back → correction front.getLast? back = none)
    (heq : text = front ++ (old ++ back)) : ¬ Place front back := by
  intro hplace
  obtain ⟨left, behind, hparts, hsome⟩ := h.found hplace
  exact hsome (hnone left behind (heq.trans hparts))

end Rewrites

/-! ### The beginning of the day as the end of a span -/

/-- Before a place there is a clock time, and behind it no word goes on. -/
def EndsDay (front back : List Char) : Prop :=
  (∃ left clock, Fits clockShape clock ∧ front = left ++ clock) ∧ isWordChar? back.head? = false

theorem rewrites_endAtMidnight :
    Rewrites endAtMidnight "-00:00".toList "-24:00".toList EndsDay where
  at_place h := by
    obtain ⟨hbehind, clock, hclock, hpart, rfl⟩ := endAtMidnight_eq_some_iff.1 h
    exact ⟨clock, _, hpart, List.append_assoc .., fun front =>
      ⟨⟨front, clock, hclock, rfl⟩, hbehind⟩⟩
  found := by
    rintro _ back ⟨⟨left, clock, hclock, rfl⟩, hbehind⟩
    refine ⟨left, clock ++ ("-00:00".toList ++ back), List.append_assoc .., ?_⟩
    rw [endAtMidnight_eq_some_iff.2 ⟨hbehind, clock, hclock, rfl, rfl⟩]
    exact Option.some_ne_none _

theorem swap_midnight : Swap "-00:00".toList "-24:00".toList where
  length_eq := by decide
  ne := by decide
  not_mem_new := List.all_iff_forall_prop.1 (by decide)
  not_mem_old := List.all_iff_forall_prop.1 (by decide)

/-- The end of a day was one before it was recast. -/
theorem EndsDay.of_recasts {front' back' : List Char} (h : EndsDay front' back')
    (hfront : Recasts front front') (hback : Recasts back back') : EndsDay front back := by
  obtain ⟨⟨left', clock', hclock', rfl⟩, hbehind⟩ := h
  obtain ⟨left, clock, -, hclock, rfl⟩ := hfront.exists_append
  refine ⟨⟨left, clock, (fits_iff (by decide) hclock).2 hclock', rfl⟩, ?_⟩
  cases hback with
  | nil => rfl
  | cons hcd _ => exact hcd.isWordChar_eq.trans hbehind

/-! ### Spaces between spans -/

/-- Before a place there is a span, of which one end may be the end of an event that is moved, and
behind it there is what a span may begin with. -/
def BetweenSpans (front back : List Char) : Prop :=
  (∃ left first last, (IsMoment first ∨ first = [')']) ∧ (IsMoment last ∨ IsMovedEvent last) ∧
    front = left ++ (first ++ '-' :: last)) ∧
  ∃ next rest, (IsMoment next ∨ next = ['(']) ∧ back = next ++ rest

theorem rewrites_joinSpans : Rewrites joinSpans [' '] [','] BetweenSpans where
  at_place {_ _ _ rest} h := by
    obtain ⟨first, last, next, hfirst, hlast, hnext, hpart, rfl⟩ := joinSpans_eq_some_iff.1 h
    exact ⟨first ++ '-' :: last, next ++ rest, by simp [hpart], by simp, fun front =>
      ⟨⟨front, first, last, hfirst, hlast, rfl⟩, next, rest, hnext, rfl⟩⟩
  found := by
    rintro _ _ ⟨⟨left, first, last, hfirst, hlast, rfl⟩, next, rest, hnext, rfl⟩
    refine ⟨left, first ++ '-' :: (last ++ ' ' :: (next ++ rest)), by simp, ?_⟩
    rw [joinSpans_eq_some_iff.2 ⟨first, last, next, hfirst, hlast, hnext, rfl, rfl⟩]
    exact Option.some_ne_none _

theorem swap_comma : Swap [' '] [','] where
  length_eq := rfl
  ne := by decide
  not_mem_new := List.all_iff_forall_prop.1 (by decide)
  not_mem_old := List.all_iff_forall_prop.1 (by decide)

/-- Two characters are the same, unless the second one is a comma. -/
def SameButComma (c d : Char) : Prop := d ≠ ',' → c = d

theorem eq_of_sameButComma {text' : List Char} (h : List.Forall₂ SameButComma text text')
    (hcomma : ∀ c ∈ text', c ≠ ',') : text = text' :=
  eq_of_forall₂ h fun _ d hd hsame => hsame (hcomma d hd)

/-- A space between spans was one before spaces became commas. -/
theorem BetweenSpans.of_sameButComma {front' back' : List Char} (h : BetweenSpans front' back')
    (hfront : List.Forall₂ SameButComma front front')
    (hback : List.Forall₂ SameButComma back back') : BetweenSpans front back := by
  obtain ⟨⟨left', first, last, hfirst, hlast, rfl⟩, next, rest', hnext, rfl⟩ := h
  have hsolid : SolidText (first ++ '-' :: last) :=
    solid_hyphen (apart_beginningShapes.solidText (fitsAny_of_isMoment hfirst))
      (solidText_of_isMoment hlast)
  have hsolid' : SolidText next := apart_endingShapes.solidText (fitsAny_of_isMoment hnext)
  obtain ⟨left, span, -, hspan, rfl⟩ := exists_append_of_forall₂ hfront
  obtain ⟨begun, rest, hbegun, -, rfl⟩ := exists_append_of_forall₂ hback
  obtain rfl := eq_of_sameButComma hspan fun c hc => (hsolid.2 c hc).ne_comma
  obtain rfl := eq_of_sameButComma hbegun fun c hc => (hsolid'.2 c hc).ne_comma
  exact ⟨⟨left, first, last, hfirst, hlast, rfl⟩, begun, rest, hnext, rfl⟩

theorem grows_joinSpans : Grows joinSpans := by
  intro before old new rest hsome
  obtain ⟨front, back, rfl, rfl⟩ := eq_of_joinSpans hsome
  exact ⟨by simp, by simp⟩

/-! ### What the rounds come to -/

/-- The rounds of a correction end in a text in which there is nothing to correct, and in which no
place is left; it differs from the text in places of the text only. -/
structure Exchanges (correction : Correction) (old new : List Char)
    (Place : List Char → List Char → Prop) (text result : List Char) : Prop where
  endsIn : EndsIn correction text result
  eq_none : ∀ front back, result = front ++ back → correction front.getLast? back = none
  not_place : ∀ front back, result = front ++ (old ++ back) → ¬ Place front back
  rewritten : Rewritten old new Place [] text result

theorem Rewrites.exchanges {old : List Char} {Place : List Char → List Char → Prop}
    (h : Rewrites correction old new Place) (hreplaces : Replaces correction)
    (hgrows : Grows correction)
    (hstable : correct correction (correctUntilStable correction text) =
      correctUntilStable correction text)
    (hrewritten : Rewritten old new Place [] text (correctUntilStable correction text)) :
    Exchanges correction old new Place text (correctUntilStable correction text) :=
  have hnone := (correct_eq_self_iff hreplaces hgrows).1 hstable
  { endsIn := endsIn_correctTimes hstable
    eq_none := hnone
    not_place := fun _ _ => h.not_place hnone
    rewritten := hrewritten }

/-- Repeating the corrections of midnight and of spans comes to an end on every text. Then no clock
time has the beginning of the day behind its hyphen, and no two spans have a space between them;
nothing but such places has been changed. -/
theorem exchanges_untilStable (text : List Char) :
    Exchanges endAtMidnight "-00:00".toList "-24:00".toList EndsDay
      text (correctUntilStable endAtMidnight text) ∧
    Exchanges joinSpans [' '] [','] BetweenSpans text (correctUntilStable joinSpans text) := by
  constructor
  · refine rewrites_endAtMidnight.exchanges replaces_endAtMidnight grows_endAtMidnight
      (correct_endAtMidnight_untilStable text) ?_
    exact rewrites_endAtMidnight.rewritten_untilStable replaces_endAtMidnight swap_midnight .same
      recasts_midnight EndsDay.of_recasts text
  · refine rewrites_joinSpans.exchanges replaces_joinSpans grows_joinSpans
      (correct_joinSpans_untilStable text) ?_
    exact rewrites_joinSpans.rewritten_untilStable replaces_joinSpans swap_comma
      (R := SameButComma) (fun _ _ => rfl) (.cons (fun h => absurd rfl h) .nil)
      BetweenSpans.of_sameButComma text

/-- What the first round writes is found by the second one. -/
example : correctUntilStable endAtMidnight "10:00-00:00-00:00".toList =
    "10:00-24:00-24:00".toList := by decide

end Timetable.Tidy
