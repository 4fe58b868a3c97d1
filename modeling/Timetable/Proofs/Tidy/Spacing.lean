import Timetable.Proofs.Tidy.AlwaysOpen

/-!
Blanks at the ends of rules and within them.

A tidied rule is `Tight`: it neither begins nor ends with a blank, and blanks within it are single
spaces. That is so when blanks have been collapsed (`tight_collapseBlanks`), it stays so when the
stretches are tidied (`Tight.tidyStretches`), and of a tight rule, no blanks are cut off
(`Tight.trimBlanks_eq`) and none are collapsed (`Tight.collapseBlanks_eq`).
-/

namespace Timetable

/-! ### Trimming -/

/-- A text that neither begins nor ends with a blank. -/
def Trimmed (text : List Char) : Prop :=
  EndsRun isBlank text.head? ∧ EndsRun isBlank text.getLast?

section Trim

variable {text left right : List Char}

theorem dropWhile_eq_self {accepts : Char → Bool} (h : EndsRun accepts text.head?) :
    text.dropWhile accepts = text := by
  cases text with
  | nil => rfl
  | cons c text => exact List.dropWhile_cons_of_neg (by simp [endsRun_some.1 h])

theorem trimBlanks_eq_self (h : Trimmed text) : trimBlanks text = text := by
  have hlast : EndsRun isBlank text.reverse.head? := by
    rw [List.head?_reverse]
    exact h.2
  rw [trimBlanks, trimBy, dropWhile_eq_self h.1, dropWhile_eq_self hlast, List.reverse_reverse]

/-- What is cut off at the two ends are blanks. -/
theorem exists_trimBlanks (text : List Char) : ∃ left right, Tidy.Blanks left ∧
    Tidy.Blanks right ∧ text = left ++ (trimBlanks text ++ right) := by
  obtain ⟨left, hleft, htext, -⟩ := Tidy.exists_blanks text
  obtain ⟨right, hright, hrest, -⟩ := Tidy.exists_blanks (text.dropWhile isBlank).reverse
  refine ⟨left, right.reverse, hleft, fun c hc => hright c (List.mem_reverse.1 hc), ?_⟩
  have hback := congrArg List.reverse hrest
  rw [List.reverse_reverse, List.reverse_append] at hback
  rw [trimBlanks, trimBy, ← hback]
  exact htext

theorem trimmed_trimBlanks (text : List Char) : Trimmed (trimBlanks text) := by
  obtain ⟨left, -, -, hhead⟩ := Tidy.exists_blanks text
  obtain ⟨right, -, hrest, hlast⟩ := Tidy.exists_blanks (text.dropWhile isBlank).reverse
  have hback := congrArg List.reverse hrest
  rw [List.reverse_reverse, List.reverse_append] at hback
  constructor
  · intro c hc
    refine hhead c ?_
    obtain ⟨rest, hrest⟩ := List.head?_eq_some_iff.1 hc
    rw [hback, ← trimBy, ← trimBlanks, hrest]
    rfl
  · rw [trimBlanks, trimBy, List.getLast?_reverse]
    exact hlast

/-- A blank in front is cut off. -/
theorem trimBlanks_cons_blank {c : Char} (hc : isBlank c = true) :
    trimBlanks (c :: text) = trimBlanks text := by
  rw [trimBlanks, trimBy, List.dropWhile_cons_of_pos hc]
  rfl

end Trim

namespace Tidy

variable {before : Option Char} {text out new rest front : List Char}

/-! ### Tight texts -/

/-- Of two neighbours, one is no blank. -/
def Spaced (c d : Char) : Prop := isBlank c = false ∨ isBlank d = false

/-- A text that neither begins nor ends with a blank, and that has no blanks but single spaces. -/
structure Tight (text : List Char) : Prop where
  chain : (' ' :: (text ++ [' '])).IsChain Spaced
  spaces : ∀ c ∈ text, isBlank c = true → c = ' '

theorem not_spaced_blanks : ¬ Spaced ' ' ' ' := by
  unfold Spaced
  decide

namespace Tight

theorem ne_nil (h : Tight text) : text ≠ [] := by
  rintro rfl
  exact not_spaced_blanks ((List.isChain_cons.1 h.chain).1 ' ' rfl)

theorem trimmed (h : Tight text) : Trimmed text := by
  constructor
  · intro c hc
    refine ((List.isChain_cons.1 h.chain).1 c ?_).resolve_left (by decide)
    rwa [List.head?_append_of_ne_nil _ h.ne_nil]
  · intro c hc
    have hchain := (List.isChain_append.1 (List.isChain_cons.1 h.chain).2).2.2
    exact (hchain c hc ' ' rfl).resolve_right (by decide)

theorem trimBlanks_eq (h : Tight text) : trimBlanks text = text := trimBlanks_eq_self h.trimmed

theorem isChain (h : Tight text) : text.IsChain Spaced :=
  (List.isChain_append.1 (List.isChain_cons.1 h.chain).2).1

end Tight

theorem tight_of_isChain (hne : text ≠ []) (htrimmed : Trimmed text) (hchain : text.IsChain Spaced)
    (hspaces : ∀ c ∈ text, isBlank c = true → c = ' ') : Tight text where
  chain := by
    refine List.isChain_cons.2 ⟨fun c hc => .inr (htrimmed.1 c ?_),
      List.isChain_append.2 ⟨hchain, List.isChain_singleton _, fun c hc _ _ =>
        .inl (htrimmed.2 c hc)⟩⟩
    rwa [List.head?_append_of_ne_nil _ hne] at hc
  spaces := hspaces

theorem Neat.tight (h : Neat text) : Tight text := by
  refine tight_of_isChain h.ne_nil ⟨?_, ?_⟩ ?_ ?_
  · exact fun c hc => h.isBlank c (List.mem_of_mem_head? hc)
  · exact fun c hc => h.isBlank c (List.mem_of_getLast? hc)
  · exact (List.pairwise_of_forall_mem_list fun c hc _ _ => .inl (h.isBlank c hc)).isChain
  · exact fun c hc hblank => Bool.noConfusion ((h.isBlank c hc).symm.trans hblank)

/-! ### Collapsing blanks -/

theorem collapseBlanks_eq_some_iff : collapseBlanks before text = some (new, rest) ↔
    EndsRun isBlank rest.head? ∧ ∃ blanks, blanks ≠ [] ∧ Blanks blanks ∧ text = blanks ++ rest ∧
      new = [' '] := by
  constructor
  · intro h
    unfold collapseBlanks at h
    split at h
    · rename_i c behind
      split at h
      · rename_i hc
        obtain ⟨rfl, rfl⟩ := Prod.mk.inj (Option.some.inj h)
        obtain ⟨blanks, hblanks, hbehind, hends⟩ := exists_blanks behind
        exact ⟨hends, c :: blanks, by simp, List.forall_mem_cons.2 ⟨hc, hblanks⟩,
          congrArg (c :: ·) hbehind, rfl⟩
      · cases h
    · cases h
  · rintro ⟨hends, blanks, hne, hblanks, rfl, rfl⟩
    obtain ⟨c, blanks, rfl⟩ := List.exists_cons_of_ne_nil hne
    obtain ⟨hc, hblanks⟩ := List.forall_mem_cons.1 hblanks
    rw [List.cons_append, collapseBlanks, if_pos hc, dropWhile_run hblanks hends]

theorem replaces_collapseBlanks : Replaces collapseBlanks := by
  intro before text new rest h
  obtain ⟨-, blanks, hne, -, rfl, -⟩ := collapseBlanks_eq_some_iff.1 h
  exact ⟨blanks, hne, rfl⟩

/-- A collapsed text begins with a blank only if the text does, and it has no blanks but single
spaces. -/
theorem Scan.spaced (h : Scan collapseBlanks before text out) :
    out.IsChain Spaced ∧ (∀ c ∈ out, isBlank c = true → c = ' ') ∧
      (EndsRun isBlank text.head? → EndsRun isBlank out.head?) := by
  induction h with
  | nil => exact ⟨.nil, nofun, id⟩
  | @keep before c rest out hnone _ ih =>
    have hc : isBlank c = false := by
      refine Bool.eq_false_iff.2 fun hblank => ?_
      rw [collapseBlanks, if_pos hblank] at hnone
      cases hnone
    obtain ⟨hchain, hspaces, -⟩ := ih
    refine ⟨List.isChain_cons.2 ⟨fun _ _ => .inl hc, hchain⟩, ?_, id⟩
    exact List.forall_mem_cons.2 ⟨fun hblank => Bool.noConfusion (hc.symm.trans hblank), hspaces⟩
  | @replace before old new rest out hne hsome _ ih =>
    obtain ⟨hends, blanks, -, hblanks, heq, rfl⟩ := collapseBlanks_eq_some_iff.1 hsome
    obtain rfl := List.append_cancel_right heq
    obtain ⟨hchain, hspaces, hhead⟩ := ih
    refine ⟨List.isChain_cons.2 ⟨fun d hd => .inr (hhead hends d hd), hchain⟩,
      List.forall_mem_cons.2 ⟨fun _ => rfl, hspaces⟩, fun hends' => absurd hends' ?_⟩
    exact not_endsRun hne hblanks

theorem trimmed_collapseBlanks (hne : text ≠ []) (h : Trimmed text) :
    correct collapseBlanks text ≠ [] ∧ Trimmed (correct collapseBlanks text) := by
  let P : List Char → Prop := fun text => text ≠ [] ∧ Trimmed text
  refine keeps_correct (P := P) replaces_collapseBlanks ?_ ⟨hne, h⟩
  rintro before front old new rest hsome ⟨-, hhead, hlast⟩
  obtain ⟨-, blanks, hblanks', hblanks, heq, rfl⟩ := collapseBlanks_eq_some_iff.1 hsome
  obtain rfl := List.append_cancel_right heq
  -- The blanks are at neither end.
  have hfront : front ≠ [] := by
    rintro rfl
    exact not_endsRun hblanks' hblanks hhead
  have hrest : rest ≠ [] := by
    rintro rfl
    obtain ⟨c, hc⟩ := Option.isSome_iff_exists.1 (List.getLast?_isSome.2 hblanks')
    have hlast := hlast c (by rw [List.append_nil, List.getLast?_append, hc]; rfl)
    rw [hblanks c (List.mem_of_getLast? hc)] at hlast
    cases hlast
  refine ⟨by simp [hfront], ?_, ?_⟩
  · rwa [List.head?_append_of_ne_nil _ hfront] at hhead ⊢
  · obtain ⟨c, hc⟩ := Option.isSome_iff_exists.1 (List.getLast?_isSome.2 hrest)
    rw [List.getLast?_append, List.getLast?_append, hc] at hlast ⊢
    exact hlast

theorem tight_collapseBlanks (hne : text ≠ []) (h : Trimmed text) :
    Tight (correct collapseBlanks text) := by
  obtain ⟨hne', htrimmed⟩ := trimmed_collapseBlanks hne h
  obtain ⟨hchain, hspaces, -⟩ := (scan_correct replaces_collapseBlanks text).spaced
  exact tight_of_isChain hne' htrimmed hchain hspaces

/-- No blanks are left to collapse just where blanks are single spaces. -/
theorem collapseBlanks_eq_self_iff : correct collapseBlanks text = text ↔
    text.IsChain Spaced ∧ ∀ c ∈ text, isBlank c = true → c = ' ' := by
  constructor
  · intro hself
    obtain ⟨hchain, hspaces, -⟩ := (scan_correct replaces_collapseBlanks text).spaced
    rw [hself] at hchain hspaces
    exact ⟨hchain, hspaces⟩
  rintro ⟨hchain, hspaces⟩
  refine correct_eq_self_of_same replaces_collapseBlanks fun front back new rest htext hsome => ?_
  obtain ⟨hends, blanks, hne, hblanks, rfl, rfl⟩ := collapseBlanks_eq_some_iff.1 hsome
  obtain ⟨c, blanks, rfl⟩ := List.exists_cons_of_ne_nil hne
  obtain ⟨hc, hmore⟩ := List.forall_mem_cons.1 hblanks
  obtain rfl := hspaces c (by rw [htext]; simp) hc
  have hnil : blanks = [] := by
    cases blanks with
    | nil => rfl
    | cons d blanks =>
      have hback := (List.isChain_append.1 (htext ▸ hchain)).2.1
      have hd := ((List.isChain_cons.1 hback).1 d rfl).resolve_left (by decide)
      rw [hmore d List.mem_cons_self] at hd
      cases hd
  rw [hnil]

theorem Tight.collapseBlanks_eq (h : Tight text) : correct collapseBlanks text = text :=
  collapseBlanks_eq_self_iff.2 ⟨h.isChain, h.spaces⟩

/-! ### Tidying keeps rules tight -/

theorem Tight.replace {old : List Char} (hnew : Neat new) (h : Tight (front ++ (old ++ rest))) :
    Tight (front ++ (new ++ rest)) where
  chain := by
    have hnone : ∀ {c}, c ∈ new → isBlank c = false := fun {c} hc => hnew.isBlank c hc
    have hchain : ((' ' :: front) ++ (old ++ (rest ++ [' ']))).IsChain Spaced := by
      simpa using h.chain
    have hreplaced := isChain_replace hnew.ne_nil
      (List.pairwise_of_forall_mem_list fun c hc d _ => .inl (hnone hc)).isChain
      (fun c hc d => .inr (hnone (List.mem_of_mem_head? hc)))
      (fun c hc d => .inl (hnone (List.mem_of_getLast? hc))) hchain
    simpa using hreplaced
  spaces := by
    have hspaces := h.spaces
    simp only [List.forall_mem_append] at hspaces ⊢
    refine ⟨hspaces.1, fun c hc hblank => ?_, hspaces.2.2⟩
    exact Bool.noConfusion ((hnew.isBlank c hc).symm.trans hblank)

theorem Tight.tidyStretches (h : Tight text) : Tight (tidyStretches text) :=
  keeps_tidyStretches (P := Tight) (fun _ _ _ _ hnew _ => Tight.replace hnew) h

end Tidy

end Timetable
