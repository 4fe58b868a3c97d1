import Timetable.Proofs.Tidy.Recast

/-!
The hyphens of spans.

A pass over a text that was tightened finds the same spans as the pass that tightened it, even if
characters were recast between the two (`correct_tightenHyphen_of_recasts`). Spans may share a
clock time: the pass takes the first of two such spans, and the second one keeps its blanks, so that
there is more to tighten than a pass tightens. What matters is that no new span begins at a place
where none was found before: the beginning of a span holds no hyphen, and none ends with another
one.
-/

namespace Timetable.Tidy

variable {before : Option Char} {text out left right rest : List Char}

theorem replaces_tightenHyphen : Replaces tightenHyphen := by
  intro before text new rest h
  obtain ⟨left, right, ⟨-, -, blanks, blanks', -, -, rfl⟩, -⟩ := tightenHyphen_eq_some_iff.1 h
  exact ⟨left ++ (blanks ++ '-' :: (blanks' ++ right)), by simp, by simp⟩

theorem tightenHyphen_eq_none (h : ∀ left right rest, ¬ BeginsSpan text left right rest) :
    tightenHyphen before text = none := by
  refine Option.eq_none_iff_forall_not_mem.2 fun ⟨new, rest⟩ hsome => ?_
  obtain ⟨left, right, hspan, -⟩ := tightenHyphen_eq_some_iff.1 hsome
  exact h left right rest hspan

theorem not_beginsSpan (h : tightenHyphen before text = none) :
    ¬ BeginsSpan text left right rest := by
  intro hspan
  rw [tightenHyphen_eq_some_iff.2 ⟨left, right, hspan, rfl⟩] at h
  cases h

/-- Where two texts are cut at the same character, and one of them at the first place where it
stands. -/
theorem append_cons_cases {c : Char} {a b a' b' : List Char} (ha : c ∉ a)
    (h : a ++ c :: b = a' ++ c :: b') :
    a = a' ∨ ∃ between, a' = a ++ c :: between ∧ b = between ++ c :: b' := by
  rcases List.append_eq_append_iff.1 h with ⟨between, rfl, heq⟩ | ⟨between, rfl, heq⟩
  · cases between with
    | nil => exact .inl (List.append_nil a).symm
    | cons d between =>
      obtain ⟨rfl, hb⟩ := List.cons.inj heq
      exact .inr ⟨between, rfl, hb⟩
  · cases between with
    | nil => exact .inl (List.append_nil a')
    | cons d between =>
      obtain ⟨rfl, -⟩ := List.cons.inj heq
      exact absurd (List.mem_append_right a' List.mem_cons_self) ha

/-- A tightened text is the text itself, or they agree up to the hyphen of the first span that was
found. -/
theorem Scan.agree (h : Scan tightenHyphen before text out) :
    out = text ∨ ∃ kept left rest rest', FitsAny beginningShapes left ∧
      text = kept ++ (left ++ rest) ∧ out = kept ++ left ++ '-' :: rest' := by
  induction h with
  | nil => exact .inl rfl
  | @keep _ c _ _ _ _ ih =>
    rcases ih with rfl | ⟨kept, left, rest, rest', hleft, rfl, rfl⟩
    · exact .inl rfl
    · exact .inr ⟨c :: kept, left, rest, rest', hleft, rfl, rfl⟩
  | @replace _ _ _ _ out _ hsome _ _ =>
    obtain ⟨left, right, ⟨hleft, -, blanks, blanks', -, -, htext⟩, rfl⟩ :=
      tightenHyphen_eq_some_iff.1 hsome
    exact .inr ⟨[], left, _, right ++ out, hleft, htext, by simp⟩

/-- No beginning of a span ends with another one and blanks. -/
theorem eq_nil_of_append_eq {kept blanks left' : List Char} (hleft : FitsAny beginningShapes left)
    (hleft' : FitsAny beginningShapes left') (hblanks : Blanks blanks)
    (h : left ++ blanks = kept ++ left') : kept = [] := by
  -- The last character is one of a beginning, and so there are no blanks.
  have hnil : blanks = [] := by
    rcases List.eq_nil_or_concat blanks with hnil | ⟨blanks, c, rfl⟩
    · exact hnil
    · exfalso
      obtain ⟨d, left'', hlast⟩ : ∃ d front, left' = front ++ [d] := by
        rcases List.eq_nil_or_concat left' with hnil | ⟨front, d, heq⟩
        · exact absurd hnil (apart_beginningShapes.ne_nil hleft')
        · exact ⟨d, front, by rw [heq, List.concat_eq_append]⟩
      subst hlast
      rw [List.concat_eq_append] at h hblanks
      rw [← List.append_assoc, ← List.append_assoc] at h
      obtain ⟨-, hcd⟩ := List.append_inj' h rfl
      obtain ⟨rfl, -⟩ := List.cons.inj hcd
      have hsolid := (apart_beginningShapes.isSolid hleft' c (by simp)).1.isBlank
      rw [hblanks c (by simp)] at hsolid
      cases hsolid
  subst hnil
  rw [List.append_nil] at h
  have hsame := apart_beginningShapes.eq_of_ends hleft' hleft ⟨kept, h.symm⟩
  rw [hsame] at h
  exact List.append_left_eq_self.1 h.symm

/-- Tightening what follows a place makes no span begin there. -/
theorem not_beginsSpan_of_scan {c : Char} (hnone : tightenHyphen before (c :: text) = none)
    (h : Scan tightenHyphen (some c) text out) : ¬ BeginsSpan (c :: out) left right rest := by
  rintro ⟨hleft, hright, blanks, blanks', hblanks, hblanks', hout⟩
  rcases h.agree with rfl | ⟨kept, left', behind, behind', hleft', rfl, rfl⟩
  · exact not_beginsSpan hnone ⟨hleft, hright, blanks, blanks', hblanks, hblanks', hout⟩
  have hblank : ∀ {blanks}, Blanks blanks → '-' ∉ blanks :=
    fun hblanks hmem => absurd (hblanks '-' hmem) (by decide)
  have hno : '-' ∉ left ++ blanks := by
    refine List.not_mem_append (fun hmem => ?_) (hblank hblanks)
    exact (apart_beginningShapes.isSolid hleft '-' hmem).2 rfl
  have hno' : '-' ∉ blanks' ++ right := by
    refine List.not_mem_append (hblank hblanks') fun hmem => ?_
    exact (apart_endingShapes.isSolid hright '-' hmem).2 rfl
  have hcut : (left ++ blanks) ++ '-' :: (blanks' ++ (right ++ rest)) =
      (c :: kept ++ left') ++ '-' :: behind' := by
    simpa using hout.symm
  rcases append_cons_cases hno hcut with heq | ⟨between, hfront, hback⟩
  · exact List.cons_ne_nil _ _ (eq_nil_of_append_eq hleft hleft' hblanks heq)
  -- The span lies before that hyphen, and so it was there before.
  obtain ⟨more, rfl⟩ : ∃ more, between = blanks' ++ right ++ more := by
    rw [← List.append_assoc] at hback
    rcases List.append_eq_append_iff.1 hback with ⟨more, hmore, -⟩ | ⟨more, hmore, hhyphen⟩
    · exact ⟨more, hmore⟩
    · cases more with
      | nil => exact ⟨[], by simpa using hmore.symm⟩
      | cons d more =>
        obtain ⟨rfl, -⟩ := List.cons.inj hhyphen
        exact absurd (hmore ▸ List.mem_append_right between List.mem_cons_self) hno'
  have hspan : BeginsSpan (c :: (kept ++ (left' ++ behind))) left right (more ++ behind) := by
    refine ⟨hleft, hright, blanks, blanks', hblanks, hblanks', ?_⟩
    calc c :: (kept ++ (left' ++ behind))
        = (c :: kept ++ left') ++ behind := by simp
      _ = (left ++ blanks ++ '-' :: (blanks' ++ right ++ more)) ++ behind := by rw [hfront]
      _ = left ++ (blanks ++ '-' :: (blanks' ++ (right ++ (more ++ behind)))) := by simp
  exact not_beginsSpan hnone hspan

/-- A span in a recast text was one before. -/
theorem beginsSpan_of_recasts {text' left' right' rest' : List Char} (h : Recasts text text')
    (hspan : BeginsSpan text' left' right' rest') :
    ∃ left right rest, BeginsSpan text left right rest := by
  obtain ⟨hleft, hright, blanks, blanks', hblanks, hblanks', rfl⟩ := hspan
  have hsame : ∀ {blanks text}, Blanks blanks → Recasts text blanks → text = blanks := by
    intro blanks text hblanks h
    exact eq_of_forall₂ h fun c d hd hcd => hcd.isBlank_right (hblanks d hd)
  obtain ⟨left, _, hl, hback₁, rfl⟩ := h.exists_append
  obtain ⟨_, _, hb, hback₂, rfl⟩ := hback₁.exists_append
  obtain rfl := hsame hblanks hb
  obtain ⟨_, _, hhyphen, hback₃, rfl⟩ := List.forall₂_cons_right_iff.1 hback₂
  obtain rfl := hhyphen.eq_of_right (by decide) (by decide) (by decide) (by decide)
  obtain ⟨_, _, hb', hback₄, rfl⟩ := Recasts.exists_append hback₃
  obtain rfl := hsame hblanks' hb'
  obtain ⟨right, rest, hr, -, rfl⟩ := Recasts.exists_append hback₄
  exact ⟨left, right, rest, (fitsAny_iff apart_beginningShapes hl).2 hleft,
    (fitsAny_iff apart_endingShapes hr).2 hright, _, _, hblanks, hblanks', rfl⟩

theorem Scan.tight (h : Scan tightenHyphen before text out) {text' : List Char}
    (hrecasts : Recasts out text') (before' : Option Char) :
    correctFrom tightenHyphen 0 before' text' = text' := by
  induction h generalizing text' before' with
  | nil =>
    cases hrecasts
    rfl
  | @keep _ c _ out hnone hscan ih =>
    obtain ⟨c', rest', -, hrest, rfl⟩ := List.forall₂_cons_left_iff.1 hrecasts
    have hno : ∀ left right rest, ¬ BeginsSpan (c' :: rest') left right rest := by
      intro left right rest hspan
      obtain ⟨_, _, _, hspan⟩ := beginsSpan_of_recasts hrecasts hspan
      exact not_beginsSpan_of_scan hnone hscan hspan
    rw [correctFrom_of_none (tightenHyphen_eq_none hno), ih hrest]
  | replace _ hsome _ ih =>
    obtain ⟨left, right, ⟨hleft, hright, -⟩, rfl⟩ := tightenHyphen_eq_some_iff.1 hsome
    obtain ⟨_, out', hspan, hout, rfl⟩ := hrecasts.exists_append_left
    obtain ⟨left', _, hl, hback, rfl⟩ := hspan.exists_append_left
    obtain ⟨_, right', hhyphen, hr, rfl⟩ := List.forall₂_cons_left_iff.1 hback
    obtain rfl := hhyphen.eq_of_left (by decide) (by decide) (by decide)
    have hsome' : tightenHyphen before' (left' ++ '-' :: right' ++ out') =
        some (left' ++ '-' :: right', out') := by
      refine tightenHyphen_eq_some_iff.2 ⟨left', right', ⟨?_, ?_, [], [], nofun, nofun, ?_⟩, rfl⟩
      · exact (fitsAny_iff apart_beginningShapes hl).1 hleft
      · exact (fitsAny_iff apart_endingShapes hr).1 hright
      · simp
    rw [correctFrom_of_some (by simp) hsome', ih hout]

/-- A tightened text that was recast is tight. -/
theorem correct_tightenHyphen_of_recasts {text' : List Char}
    (h : Recasts (correct tightenHyphen text) text') : correct tightenHyphen text' = text' :=
  (scan_correct replaces_tightenHyphen text).tight h none

end Timetable.Tidy
