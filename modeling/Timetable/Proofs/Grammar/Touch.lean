import Timetable.Proofs.Grammar.Steady

/-!
A text that is changed at one place.

A `Touch` says what stands in front of such a place, what stands at it and what comes in its stead.
The characters in front of the place are the same in both texts, so that an expression reads the two
alike as long as it does not get to the place. How far away the place is is said by the characters
that still come before it (`Touch.within`): it may come next (`Touch.rewriting`), or it does not
(`Touch.inside`), all that has to stand in front of it is still to be read (`Touch.ahead`), or at
least one character that the expression does not take (`Touch.beyond`).
-/

namespace Timetable.Grammar

open Peg

/-- A change of texts at one place, outside of comments and brackets. -/
structure Touch where
  /-- What stands right in front of the place. -/
  behind : List Char → Prop
  /-- What a text is at the place, and what it becomes. -/
  place : List Char → List Char → Prop

namespace Touch

variable {touch : Touch} {far far' : List Char → Prop} {front text text' : List Char} {c : Char}

/-- The characters end like what stands in front of the place, or are the end of it. -/
def Fits (touch : Touch) (front : List Char) : Prop :=
  ∃ lead, touch.behind lead ∧ (lead <:+ front ∨ front <:+ lead)

/-- How a text and the changed text go on, where a property of the characters before the place says
how far away it is. Behind the place the texts are the same. -/
inductive Within (touch : Touch) (far : List Char → Prop) (text text' : List Char) : Prop where
  | same (h : text' = text)
  | before (front : List Char) {here here' : List Char} (hclosed : Closed front)
      (hfits : touch.Fits front) (hfar : far front) (hplace : touch.place here here')
      (htext : text = front ++ here) (htext' : text' = front ++ here')

/-- The texts are related up to the place, if it is far away. -/
def within (touch : Touch) (far : List Char → Prop) : Rewriting where
  relates := touch.Within far
  loosens := False

/-- The place may come next. -/
def rewriting (touch : Touch) : Rewriting := touch.within fun _ => True

/-- The place does not come next. -/
def inside (touch : Touch) : Rewriting := touch.within (· ≠ [])

/-- All of what stands in front of the place is still to come. -/
def ahead (touch : Touch) : Rewriting :=
  touch.within fun front => ∃ lead, touch.behind lead ∧ lead <:+ front

/-- A character of another class comes before the place. -/
def beyond (touch : Touch) (accepts : Char → Bool) : Rewriting :=
  touch.within fun front => ∃ c ∈ front, accepts c = false

/-- Neither text goes on with the character at the place. -/
def Spares (touch : Touch) (c : Char) : Prop :=
  ∀ here here', touch.place here here' → here.head? ≠ some c ∧ here'.head? ≠ some c

/-- At the place both texts are read alike. -/
def ReadsAlike {α γ : Type} (touch : Touch) (peg : Peg α) (view : α → γ) : Prop :=
  ∀ here here', touch.place here here' → ∀ offset offset' : Nat,
    Alike touch.rewriting view (fun _ => False) (peg.run ⟨here, offset⟩).result
      (peg.run ⟨here', offset'⟩).result

/-! ### Characters before the place -/

theorem fits_nil {lead : List Char} (h : touch.behind lead) : touch.Fits [] :=
  ⟨lead, h, .inr List.nil_suffix⟩

theorem Fits.of_suffix {back : List Char} (h : touch.Fits front) (hback : back <:+ front) :
    touch.Fits back := by
  obtain ⟨lead, hlead, hfront | hfront⟩ := h
  · exact ⟨lead, hlead, List.suffix_or_suffix_of_suffix hfront hback⟩
  · exact ⟨lead, hlead, .inr (hback.trans hfront)⟩

/-- Behind a character that is no part of what stands in front of the place, all of that is still to
come. -/
theorem Fits.ahead (h : touch.Fits (c :: front)) (hc : ∀ lead, touch.behind lead → c ∉ lead) :
    ∃ lead, touch.behind lead ∧ lead <:+ front := by
  obtain ⟨lead, hlead, hfront | hfront⟩ := h
  · rcases List.suffix_cons_iff.1 hfront with rfl | hfront
    · exact absurd List.mem_cons_self (hc _ hlead)
    · exact ⟨lead, hlead, hfront⟩
  · exact absurd (hfront.mem List.mem_cons_self) (hc lead hlead)

/-- Before the place, the last character is the one that has to stand there. -/
theorem Fits.mem_of_getLast {accepts : Char → Bool} (h : touch.Fits front) (hne : front ≠ [])
    (hlast : ∀ lead, touch.behind lead → ∃ init c, lead = init ++ [c] ∧ accepts c = false) :
    ∃ c ∈ front, accepts c = false := by
  obtain ⟨lead, hlead, hsuffix⟩ := h
  obtain ⟨init, c, rfl, hc⟩ := hlast lead hlead
  refine ⟨c, ?_, hc⟩
  rcases hsuffix with hsuffix | hsuffix
  · exact hsuffix.mem (by simp)
  · obtain ⟨others, d, rfl⟩ := (List.eq_nil_or_concat' front).resolve_left hne
    obtain ⟨before, heq⟩ := hsuffix
    rw [← List.append_assoc] at heq
    obtain ⟨-, heq⟩ := List.append_inj' heq rfl
    obtain rfl : d = c := (List.cons.inj heq).1
    simp

/-- Two related texts are the same, or the place comes next, or they go on with one character. -/
theorem Within.cases (h : touch.Within far text text') :
    text' = text ∨ (far [] ∧ touch.place text text') ∨
      ∃ c front here here', Closed (c :: front) ∧ touch.Fits (c :: front) ∧ far (c :: front) ∧
        touch.place here here' ∧ text = c :: (front ++ here) ∧ text' = c :: (front ++ here') := by
  cases h with
  | same h => exact .inl h
  | before front hclosed hfits hfar hplace htext htext' =>
    cases front with
    | nil =>
      subst htext htext'
      exact .inr (.inl ⟨hfar, hplace⟩)
    | cons c front =>
      exact .inr (.inr ⟨c, front, _, _, hclosed, hfits, hfar, hplace, htext, htext'⟩)

theorem Within.mono (h : touch.Within far text text')
    (hfar : ∀ front, touch.Fits front → far front → far' front) : touch.Within far' text text' := by
  cases h with
  | same h => exact .same h
  | before front hclosed hfits hfront hplace htext htext' =>
    exact .before front hclosed hfits (hfar front hfits hfront) hplace htext htext'

theorem Within.head_iff (h : touch.Within far text text') (hspares : far [] → touch.Spares c) :
    text'.head? = some c ↔ text.head? = some c := by
  rcases h.cases with rfl | ⟨hnil, hplace⟩ | ⟨d, front, here, here', -, -, -, -, rfl, rfl⟩
  · rfl
  · obtain ⟨hhere, hhere'⟩ := hspares hnil _ _ hplace
    exact ⟨fun h => absurd h hhere', fun h => absurd h hhere⟩
  · rfl

theorem Within.tail {rest rest' : List Char} (h : touch.Within far (c :: rest) (c :: rest'))
    (hopens : Enclosure.nothing.after c = .nothing) (hspares : far [] → touch.Spares c)
    (hfar : ∀ front, touch.Fits (c :: front) → far (c :: front) → far' front) :
    touch.Within far' rest rest' := by
  rcases h.cases with heq | ⟨hnil, hplace⟩ | ⟨d, front, here, here', hclosed, hfits, hfront, hplace,
    htext, htext'⟩
  · exact .same (List.cons.inj heq).2
  · exact absurd rfl (hspares hnil _ _ hplace).1
  · obtain ⟨rfl, hrest⟩ := List.cons.inj htext
    obtain ⟨-, hrest'⟩ := List.cons.inj htext'
    have hclosed' : Closed front := by
      change (Enclosure.nothing.after c).atEnd front = .nothing at hclosed
      rwa [hopens] at hclosed
    exact .before front hclosed' (hfits.of_suffix (List.suffix_cons c front))
      (hfar front hfits hfront) hplace hrest hrest'

theorem passes_within (hopens : Enclosure.nothing.after c = .nothing)
    (hspares : far [] → touch.Spares c)
    (hfar : ∀ front, touch.Fits (c :: front) → far (c :: front) → far front) :
    (touch.within far).Passes c where
  head h := Within.head_iff h hspares
  tail h := Within.tail h hopens hspares hfar

theorem passes_rewriting (hopens : Enclosure.nothing.after c = .nothing)
    (hspares : touch.Spares c) : touch.rewriting.Passes c :=
  passes_within hopens (fun _ => hspares) fun _ _ => id

/-- A character that is accepted cannot be the last one of another class. -/
theorem passes_beyond {accepts : Char → Bool} (hquote : accepts '"' = false)
    (hbracket : accepts '[' = false) (hc : accepts c = true) : (touch.beyond accepts).Passes c := by
  have hopens : Enclosure.nothing.after c = .nothing := by
    refine Enclosure.after_of_ne ?_ ?_
    · rintro rfl
      rw [hquote] at hc
      cases hc
    · rintro rfl
      rw [hbracket] at hc
      cases hc
  refine passes_within hopens (by rintro ⟨d, hd, -⟩; cases hd) fun front _ hfar => ?_
  obtain ⟨d, hd, hno⟩ := hfar
  rcases List.mem_cons.1 hd with rfl | hd
  · rw [hc] at hno
    cases hno
  · exact ⟨d, hd, hno⟩

theorem leads_token_within (hopens : Enclosure.nothing.after c = .nothing)
    (hspares : far [] → touch.Spares c)
    (hfar : ∀ front, touch.Fits (c :: front) → far (c :: front) → far' front) :
    (token [c]).Leads (touch.within far) (touch.within far') id fun _ => False :=
  leads_token (fun h => Within.head_iff h hspares) fun h => Within.tail h hopens hspares hfar

/-- Before the place any character is the same in both texts. -/
theorem leads_token_inside (hopens : Enclosure.nothing.after c = .nothing) :
    (token [c]).Leads touch.inside touch.rewriting id fun _ => False :=
  leads_token_within hopens (fun hnil => absurd rfl hnil) fun _ _ _ => trivial

/-! ### Expressions before the place -/

/-- Where the place is far away, it may come next as well. -/
theorem Within.anywhere (h : touch.Within far text text') : touch.rewriting.relates text text' :=
  h.mono fun _ _ _ => trivial

/-- Where a text is over, there is no place. -/
theorem eq_nil_of_relates (hplace : ∀ here', ¬ touch.place [] here')
    (h : touch.rewriting.relates [] text) : text = [] := by
  rcases Within.cases h with heq | ⟨-, hhere⟩ | ⟨c, front, here, here', -, -, -, -, htext, -⟩
  · exact heq
  · exact absurd hhere (hplace text)
  · cases htext

section Pegs

variable {α γ : Type} {peg : Peg α} {view : α → γ} {ends : α → Prop}

/-- Texts that are the same from some place on are related. -/
theorem alike_of_nothing {result result' : Option (α × Cursor)}
    (h : Alike .nothing view ends result result') :
    Alike touch.rewriting view ends result result' :=
  h.widen (fun heq => Within.same heq) id

theorem tolerant_of_inside (h : peg.Leads touch.inside touch.rewriting view ends)
    (hplace : touch.ReadsAlike peg view) : peg.Tolerant touch.rewriting view ends := by
  intro text text' hrelates offset offset'
  cases hrelates with
  | same heq => exact h text text' (.same heq) offset offset'
  | before front hclosed hfits hfar hhere htext htext' =>
    by_cases hnil : front = []
    · subst hnil htext htext'
      exact (hplace _ _ hhere offset offset').mono (fun _ _ => id) fun _ => False.elim
    · exact h text text' (.before front hclosed hfits hnil hhere htext htext') offset offset'

/-- If the character in front of the place is of another class, what is steady up to such a
character has to be compared at the place only. -/
theorem steady_of_beyond {accepts : Char → Bool} (h : peg.Steady (touch.beyond accepts) view)
    (hlast : ∀ lead, touch.behind lead → ∃ init c, lead = init ++ [c] ∧ accepts c = false)
    (hplace : touch.ReadsAlike peg view) : peg.Steady touch.rewriting view := by
  have hinside : peg.Leads touch.inside (touch.beyond accepts) view fun _ => False :=
    h.narrow fun hrelates => hrelates.mono fun _ hfits hne => hfits.mem_of_getLast hne hlast
  exact tolerant_of_inside (hinside.widen Within.anywhere id) hplace

theorem readsAlike_of_refuses (h : ∀ here here', touch.place here here' →
    peg.Refuses here ∧ peg.Refuses here') : touch.ReadsAlike peg view := by
  intro here here' hplace offset offset'
  obtain ⟨hhere, hhere'⟩ := h here here' hplace
  exact .of_refuses hhere hhere' offset offset'

/-- What a pair of marks encloses is read alike, unless it stands at the place. -/
theorem steady_enclosed (enclosure : Enclosure) (first last : Char) {view : List Char → γ}
    (hne : enclosure ≠ .nothing) (hfirst : Enclosure.nothing.after first = enclosure)
    (hlast : ∀ c, enclosure.after c = if c = last then .nothing else enclosure)
    (hplace : touch.ReadsAlike ((token [first]).andThen
      ((chars (· != last) 0 none).followedBy (token [last]))) view) :
    ((token [first]).andThen ((chars (· != last) 0 none).followedBy (token [last]))).Steady
      touch.rewriting view := by
  have hstays : ∀ c, c ≠ last → enclosure.after c = enclosure := fun c hc =>
    (hlast c).trans (if_neg hc)
  intro text text' hrelates offset offset'
  rcases Within.cases hrelates with rfl | ⟨-, hhere⟩ | ⟨c, front, here, here', hclosed, hfits, -,
    hhere, rfl, rfl⟩
  · have hpasses : ∀ c ∉ ([] : List Char), Rewriting.nothing.Passes c := fun c _ =>
      passes_nothing c
    have hsame : ((token [first]).andThen
        ((chars (· != last) 0 none).followedBy (token [last]))).Steady .nothing id :=
      steady_of_avoids hpasses rfl
    exact alike_of_nothing (hsame.seen _ _ rfl offset offset')
  · exact hplace _ _ hhere offset offset'
  · by_cases hc : c = first
    · subst hc
      -- What is enclosed ends before the place.
      change (Enclosure.nothing.after c).atEnd front = .nothing at hclosed
      rw [hfirst] at hclosed
      obtain ⟨body, back, rfl, hno⟩ :=
        List.eq_append_cons_of_mem (Enclosure.mem_of_atEnd hstays hne hclosed)
      have hclosed' : Closed back := by
        rw [Enclosure.atEnd_append, Enclosure.atEnd_of_not_mem hstays hno] at hclosed
        change (enclosure.after last).atEnd back = .nothing at hclosed
        rwa [hlast, if_pos rfl] at hclosed
      have hfits' : touch.Fits back := hfits.of_suffix ⟨c :: (body ++ [last]), by simp⟩
      rw [List.append_assoc, List.append_assoc]
      exact .of_reads (reads_enclosed c hno (back ++ here)) (reads_enclosed c hno (back ++ here'))
        (Within.before back hclosed' hfits' trivial hhere rfl rfl)
        (fun _ _ ha ha' => by rw [ha, ha']) offset offset'
    · have hother : ∀ rest, (token [first]).Refuses (c :: rest) := fun rest =>
        refuses_token_cons fun heq => hc heq.symm
      exact .of_refuses (Refuses.andThen (hother _)) (Refuses.andThen (hother _)) offset offset'

end Pegs

end Touch

end Timetable.Grammar
