import Timetable.Proofs.Tidy.Spacing

/-!
Tidying a tidied text.

The rules of a tidied text are the tidied rules of the text (`splitRules_tidyChars`), and a tidied
rule stays as it is unless an hour is left to pad in it (`tidyRule_tidyRule_iff`). So a tidied text
stays as it is just if no hour of one digit is left outside of its comments (`tidy_tidy_iff`). It is
not so for all texts, as hours are padded in a single pass.
-/

namespace Timetable.Tidy

variable {text rule : List Char}

/-! ### Rules -/

/-- A rule as a text is cut into them. -/
structure IsRule (rule : List Char) : Prop where
  ne_nil : rule ≠ []
  trimmed : Trimmed rule
  whole : Whole false rule

/-- Of some rules, only the last one leaves a quote open. -/
def ClosedBefore (rules : List (List Char)) : Prop :=
  rules.Pairwise fun rule _ => quotedAfter false rule = false

theorem Blanks.not_mem {blanks : List Char} (h : Blanks blanks) : '"' ∉ blanks :=
  fun hmem => absurd (h '"' hmem) (by decide)

theorem quotedAs_trimBlanks (text : List Char) : QuotedAs text (trimBlanks text) := by
  obtain ⟨left, right, hleft, hright, htext⟩ := exists_trimBlanks text
  generalize trimBlanks text = trimmed at htext ⊢
  subst htext
  constructor
  · rw [quotedAfter_append, quotedAfter_append, quotedAfter_of_not_mem hleft.not_mem,
      quotedAfter_of_not_mem hright.not_mem]
  · intro h
    have hback := (whole_append.1 h).2
    rw [quotedAfter_of_not_mem hleft.not_mem] at hback
    exact (whole_append.1 hback).1

theorem quotedAs_collapseBlanks (text : List Char) :
    QuotedAs text (correct collapseBlanks text) := by
  refine keeps_correct (P := QuotedAs text) replaces_collapseBlanks ?_ (.refl text)
  intro before front old new rest hsome h
  obtain ⟨-, blanks, -, hblanks, heq, rfl⟩ := collapseBlanks_eq_some_iff.1 hsome
  obtain rfl := List.append_cancel_right heq
  exact h.replace hblanks.not_mem (by decide) (by decide)

theorem isRule_of_mem_splitRules (h : rule ∈ splitRules text) : IsRule rule := by
  obtain ⟨hmem, hne⟩ := List.mem_filter.1 h
  obtain ⟨part, hpart, rfl⟩ := List.mem_map.1 hmem
  have hwhole := (whole_splitAfter text [] trivial rfl).1 part hpart
  exact ⟨by simpa using hne, trimmed_trimBlanks part, (quotedAs_trimBlanks part).whole hwhole⟩

theorem closedBefore_splitRules (text : List Char) : ClosedBefore (splitRules text) := by
  have hparts := (whole_splitAfter text [] trivial rfl).2
  refine (List.Pairwise.map trimBlanks (fun part _ hclosed => ?_) hparts).filter _
  exact (quotedAs_trimBlanks part).quotedAfter_eq.trans hclosed

/-! ### Tidied rules -/

/-- What tidying a rule comes to: it says that a place is always open, or it does not and has its
blanks collapsed and its stretches tidied. -/
theorem tidyRule_cases (h : IsRule rule) :
    tidyRule rule = "24/7".toList ∨
      ∃ collapsed, Tight collapsed ∧ QuotedAs rule collapsed ∧ saysAlwaysOpen collapsed = false ∧
        tidyRule rule = tidyStretches collapsed := by
  have htight := tight_collapseBlanks h.ne_nil h.trimmed
  by_cases hopen : saysAlwaysOpen (correct collapseBlanks rule) = true
  · exact .inl (if_pos hopen)
  · refine .inr ⟨_, htight, quotedAs_collapseBlanks rule, Bool.eq_false_iff.2 hopen, ?_⟩
    exact (if_neg hopen).trans htight.tidyStretches.trimBlanks_eq

theorem tight_tidyRule (h : IsRule rule) : Tight (tidyRule rule) := by
  rcases tidyRule_cases h with heq | ⟨collapsed, htight, -, -, heq⟩
  · rw [heq]
    exact (solidText_of_all (by decide) (by decide)).firm.tight
  · rw [heq]
    exact htight.tidyStretches

/-- Tidying brings no semicolon out of its quotes and leaves no quote open that was not. -/
theorem whole_tidyRule (h : IsRule rule) : Whole false (tidyRule rule) ∧
    (quotedAfter false rule = false → quotedAfter false (tidyRule rule) = false) := by
  rcases tidyRule_cases h with heq | ⟨collapsed, -, hquoted, -, heq⟩
  · rw [heq]
    exact ⟨whole_of_not_mem (by decide) (by decide), fun _ => rfl⟩
  · have hstretches := quotedAs_tidyStretches collapsed
    rw [heq, hstretches.quotedAfter_eq, hquoted.quotedAfter_eq]
    exact ⟨hstretches.whole (hquoted.whole h.whole), id⟩

theorem tidyRule_alwaysOpen : tidyRule "24/7".toList = "24/7".toList := by decide

/-- Plain stretches of a tidied rule are settled. -/
theorem settled_of_mem_tidyStretches {stretch : List Char}
    (h : .plain stretch ∈ piecesAfter false [] (tidyStretches text)) : Settled stretch := by
  rw [piecesAfter_tidyStretches] at h
  obtain ⟨piece, -, heq⟩ := List.mem_map.1 h
  cases piece with
  | plain text =>
    obtain rfl := Piece.plain.inj heq
    exact settled_tidyPlain text
  | quoted text => cases heq

/-- A tidied rule stays as it is just if no hour of one digit is left outside of its comments. -/
theorem tidyRule_tidyRule_iff (h : IsRule rule) :
    tidyRule (tidyRule rule) = tidyRule rule ↔
      ∀ stretch, .plain stretch ∈ piecesAfter false [] (tidyRule rule) →
        ¬ HasShortHour stretch := by
  rcases tidyRule_cases h with heq | ⟨collapsed, htight, -, hopen, heq⟩
  · rw [heq]
    refine iff_of_true tidyRule_alwaysOpen fun stretch hmem => ?_
    rw [piecesAfter_self false (by decide)] at hmem
    obtain rfl := Piece.plain.inj (List.mem_singleton.1 hmem)
    exact correct_padHour_eq_self_iff.1 (by decide)
  · rw [heq]
    have htidy := htight.tidyStretches
    have hclosed : saysAlwaysOpen (tidyStretches collapsed) = false := by
      refine Bool.eq_false_iff.2 fun hsays => ?_
      rw [saysAlwaysOpen_of_tidyStretches hsays] at hopen
      cases hopen
    have hagain : tidyRule (tidyStretches collapsed) = tidyStretches (tidyStretches collapsed) := by
      unfold tidyRule
      dsimp only
      rw [htidy.collapseBlanks_eq, if_neg (by rw [hclosed]; exact Bool.noConfusion)]
      exact htidy.tidyStretches.trimBlanks_eq
    rw [hagain, tidyStretches_eq_self_iff]
    exact forall₂_congr fun stretch hmem => (settled_of_mem_tidyStretches hmem).tidyPlain_eq_iff

/-! ### Tidied texts -/

/-- A blank in front of a part is cut off. -/
theorem map_trimBlanks_splitAfter (quoted : Bool) (current text : List Char) :
    (splitAfter quoted (current ++ [' ']) text).map trimBlanks =
      (splitAfter quoted current text).map trimBlanks := by
  have hfront : ∀ current : List Char,
      trimBlanks (current ++ [' ']).reverse = trimBlanks current.reverse := by
    intro current
    rw [List.reverse_append]
    exact trimBlanks_cons_blank (by decide)
  induction text generalizing quoted current with
  | nil => exact congrArg (fun part => [part]) (hfront current)
  | cons c text ih =>
    rw [splitAfter, splitAfter]
    split
    · exact ih (!quoted) (c :: current)
    · split
      · rw [List.map_cons, List.map_cons, hfront]
      · exact ih quoted (c :: current)

theorem splitRules_space (text : List Char) : splitRules (' ' :: text) = splitRules text := by
  have hparts := map_trimBlanks_splitAfter false [] text
  rw [splitRules, splitRules, ← hparts]
  rfl

/-- Tight rules that are put together are the rules of the whole. -/
theorem splitRules_intercalate {rules : List (List Char)}
    (hrules : ∀ rule ∈ rules, Tight rule ∧ Whole false rule) (hclosed : ClosedBefore rules) :
    splitRules (List.intercalate [';', ' '] rules) = rules := by
  have hkept : ∀ {rule : List Char} {rules}, Tight rule →
      (rule :: rules).filter (!·.isEmpty) = rule :: rules.filter (!·.isEmpty) :=
    fun h => List.filter_cons_of_pos (by simpa using h.ne_nil)
  induction rules with
  | nil => rfl
  | cons rule rules ih =>
    obtain ⟨⟨htight, hwhole⟩, hrest⟩ := List.forall_mem_cons.1 hrules
    cases rules with
    | nil =>
      have hparts : splitAfter false [] rule = [rule] := splitAfter_self hwhole []
      rw [List.intercalate_singleton, splitRules, hparts, List.map_singleton, htight.trimBlanks_eq,
        hkept htight, List.filter_nil]
    | cons rule' rules =>
      obtain ⟨hends, hclosed⟩ := List.pairwise_cons.1 hclosed
      have hends := hends rule' List.mem_cons_self
      have hparts := splitAfter_append_semicolon hwhole hends []
        (' ' :: List.intercalate [';', ' '] (rule' :: rules))
      have hjoin : List.intercalate [';', ' '] (rule :: rule' :: rules) =
          rule ++ ';' :: (' ' :: List.intercalate [';', ' '] (rule' :: rules)) := by
        rw [List.intercalate_cons_cons, List.append_assoc]
        rfl
      rw [hjoin, splitRules, hparts, List.map_cons, List.reverse_nil, List.nil_append,
        htight.trimBlanks_eq, hkept htight]
      exact congrArg (rule :: ·) ((splitRules_space _).trans (ih hrest hclosed))

/-- The rules of a tidied text are the tidied rules of the text. -/
theorem splitRules_tidyChars (text : List Char) :
    tidyChars text = List.intercalate [';', ' '] ((splitRules text).map tidyRule) ∧
      splitRules (tidyChars text) = (splitRules text).map tidyRule := by
  have hrules : ∀ rule ∈ (splitRules text).map tidyRule, Tight rule ∧ Whole false rule := by
    intro _ hmem
    obtain ⟨rule, hrule, rfl⟩ := List.mem_map.1 hmem
    have hrule := isRule_of_mem_splitRules hrule
    exact ⟨tight_tidyRule hrule, (whole_tidyRule hrule).1⟩
  have hclosed : ClosedBefore ((splitRules text).map tidyRule) := by
    refine List.pairwise_map.2 ((closedBefore_splitRules text).imp_of_mem ?_)
    exact fun hmem _ hclosed => (whole_tidyRule (isRule_of_mem_splitRules hmem)).2 hclosed
  have hall :
      ((splitRules text).map tidyRule).filter (!·.isEmpty) = (splitRules text).map tidyRule :=
    List.filter_eq_self.2 fun rule hmem => by simpa using (hrules rule hmem).1.ne_nil
  rw [tidyChars, hall]
  exact ⟨rfl, splitRules_intercalate hrules hclosed⟩

/-- A tidied text stays as it is just if each of its rules does. -/
theorem tidyChars_tidyChars_iff (text : List Char) :
    tidyChars (tidyChars text) = tidyChars text ↔
      ∀ rule ∈ splitRules (tidyChars text), tidyRule rule = rule := by
  obtain ⟨htext, hrules⟩ := splitRules_tidyChars text
  obtain ⟨htext', hrules'⟩ := splitRules_tidyChars (tidyChars text)
  constructor
  · intro heq
    rw [heq] at hrules'
    exact List.map_inj_left.1 ((List.map_id _).trans hrules').symm
  · intro hself
    rw [htext', List.map_congr_left hself, List.map_id', hrules, ← htext]

/-- Tidying a tidied text changes nothing just if no hour of one digit is left outside of its
comments. -/
theorem tidy_tidy_iff (text : String) :
    tidy (tidy text) = tidy text ↔
      ∀ rule ∈ splitRules (tidy text).toList, ∀ stretch,
        .plain stretch ∈ piecesAfter false [] rule → ¬ HasShortHour stretch := by
  have hchars : tidy (tidy text) = tidy text ↔
      tidyChars (tidyChars text.toList) = tidyChars text.toList := by
    simp only [tidy, String.toList_ofList, String.ofList_inj]
  rw [hchars, tidyChars_tidyChars_iff, tidy, String.toList_ofList, (splitRules_tidyChars _).2]
  refine List.forall_mem_map.trans (Iff.trans ?_ List.forall_mem_map.symm)
  exact forall₂_congr fun rule hmem => tidyRule_tidyRule_iff (isRule_of_mem_splitRules hmem)

/-- The hour that comes before the padded one has been passed by then. -/
theorem tidy_tidy_ne_shortHours : tidy (tidy "1:2:34") ≠ tidy "1:2:34" := by decide

end Timetable.Tidy
