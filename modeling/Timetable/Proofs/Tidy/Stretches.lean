import Timetable.Proofs.Tidy.Plain

/-!
Rules cut at their quotes, and texts cut at the semicolons between their rules.

A rule is cut into plain stretches and comments in one way (`Cut.piecesAfter_eq`), and a rule whose
plain stretches were tidied is cut where the rule was (`piecesAfter_tidyStretches`). What
`tidyPlain` keeps is kept by tidying the stretches of a rule (`keeps_tidyStretches`); among other
things, semicolons and quotes stay where they are. A text is cut into rules that have no semicolon
outside of quotes and of which only the last one may leave a quote open (`whole_splitAfter`), and
put together again, such rules are what the text is cut into (`splitAfter_append_semicolon`).
-/

namespace Timetable.Tidy

/-! ### Stretches -/

namespace Piece

/-- The text of a stretch, a comment with its quotes. -/
def contents : Piece → List Char
  | plain text => text
  | quoted text => text

/-- The stretch with its text tidied. -/
def tidied : Piece → Piece
  | plain text => plain (tidyPlain text)
  | quoted text => quoted text

@[simp] theorem contents_tidied (piece : Piece) : piece.tidied.contents = piece.tidy := by
  cases piece <;> rfl

end Piece

variable {text front back body : List Char} {pieces : List Piece} {quoted : Bool}

/-- Stretches as a rule is cut into them: plain ones, which may be empty, and between them comments
with their quotes, of which the last one may be left open. -/
inductive Cut : List Piece → Prop where
  | plain {text : List Char} : '"' ∉ text → Cut [.plain text]
  | opened {text body : List Char} : '"' ∉ text → '"' ∉ body →
      Cut [.plain text, .quoted ('"' :: body)]
  | closed {text body : List Char} {pieces : List Piece} : '"' ∉ text → '"' ∉ body → Cut pieces →
      Cut (.plain text :: .quoted ('"' :: (body ++ ['"'])) :: pieces)

theorem piecesAfter_self (quoted : Bool) (htext : '"' ∉ text) (current : List Char) :
    piecesAfter quoted current text =
      [if quoted then .quoted (current.reverse ++ text) else .plain (current.reverse ++ text)] := by
  induction text generalizing current with
  | nil => cases quoted <;> simp [piecesAfter]
  | cons c text ih =>
    obtain ⟨hc, hrest⟩ := List.ne_and_not_mem_of_not_mem_cons htext
    rw [piecesAfter, if_neg hc.symm, ih hrest]
    simp

theorem piecesAfter_quote (quoted : Bool) (hfront : '"' ∉ front) (current back : List Char) :
    piecesAfter quoted current (front ++ '"' :: back) =
      if quoted then .quoted (current.reverse ++ front ++ ['"']) :: piecesAfter false [] back
      else .plain (current.reverse ++ front) :: piecesAfter true ['"'] back := by
  induction front generalizing current with
  | nil => cases quoted <;> simp [piecesAfter]
  | cons c front ih =>
    obtain ⟨hc, hrest⟩ := List.ne_and_not_mem_of_not_mem_cons hfront
    rw [List.cons_append, piecesAfter, if_neg hc.symm, ih hrest]
    simp

/-- A rule is cut in one way. -/
theorem Cut.piecesAfter_eq (h : Cut pieces) :
    piecesAfter false [] (pieces.flatMap Piece.contents) = pieces := by
  induction h with
  | plain htext => simpa [Piece.contents] using piecesAfter_self false htext []
  | @opened text body htext hbody =>
    have hrule : [Piece.plain text, .quoted ('"' :: body)].flatMap Piece.contents =
        text ++ '"' :: body := by simp [Piece.contents]
    rw [hrule, piecesAfter_quote _ htext, if_neg nofun, piecesAfter_self _ hbody, if_pos rfl]
    rfl
  | @closed text body pieces htext hbody _ ih =>
    have hrule :
        (.plain text :: .quoted ('"' :: (body ++ ['"'])) :: pieces).flatMap Piece.contents =
          text ++ '"' :: (body ++ '"' :: pieces.flatMap Piece.contents) := by simp [Piece.contents]
    rw [hrule, piecesAfter_quote _ htext, if_neg nofun, piecesAfter_quote _ hbody, if_pos rfl, ih]
    rfl

theorem exists_cut (rule : List Char) :
    ∃ pieces, Cut pieces ∧ pieces.flatMap Piece.contents = rule := by
  induction hlength : rule.length using Nat.strongRecOn generalizing rule with
  | ind length ih =>
    by_cases hquote : '"' ∈ rule
    · obtain ⟨text, behind, rfl, htext⟩ := List.eq_append_cons_of_mem hquote
      by_cases hquote' : '"' ∈ behind
      · obtain ⟨body, rest, rfl, hbody⟩ := List.eq_append_cons_of_mem hquote'
        obtain ⟨pieces, hcut, rfl⟩ := ih rest.length (by simp [← hlength]; omega) rest rfl
        exact ⟨_, .closed htext hbody hcut, by simp [Piece.contents]⟩
      · exact ⟨_, .opened htext hquote', by simp [Piece.contents]⟩
    · exact ⟨_, .plain hquote, by simp [Piece.contents]⟩

theorem cut_piecesAfter (rule : List Char) : Cut (piecesAfter false [] rule) := by
  obtain ⟨pieces, hcut, rfl⟩ := exists_cut rule
  rwa [hcut.piecesAfter_eq]

/-- The stretches of a rule are the rule. -/
theorem flatMap_piecesAfter (rule : List Char) :
    (piecesAfter false [] rule).flatMap Piece.contents = rule := by
  obtain ⟨pieces, hcut, rfl⟩ := exists_cut rule
  rw [hcut.piecesAfter_eq]

/-- A plain stretch has no quotes. -/
theorem Cut.not_mem (h : Cut pieces) (hmem : .plain text ∈ pieces) : '"' ∉ text := by
  induction h with
  | plain htext => simp_all
  | opened htext _ => simp_all
  | closed htext _ _ ih =>
    rcases List.mem_cons.1 hmem with heq | hmem
    · exact Piece.plain.inj heq ▸ htext
    · exact ih (by simpa using hmem)

/-! ### What tidying the stretches keeps -/

/-- A rule with its plain stretches tidied. -/
def tidyStretches (rule : List Char) : List Char := (piecesAfter false [] rule).flatMap Piece.tidy

section Keeps

variable {P : List Char → Prop}
  (hstep : ∀ front old new rest, Neat new → '"' ∉ old → P (front ++ (old ++ rest)) →
    P (front ++ (new ++ rest)))

include hstep

theorem keeps_tidyPieces (hquote : ∀ text, .plain text ∈ pieces → '"' ∉ text) :
    ∀ front, P (front ++ pieces.flatMap Piece.contents) →
      P (front ++ pieces.flatMap Piece.tidy) := by
  induction pieces with
  | nil => exact fun _ h => h
  | cons piece pieces ih =>
    have ih := ih fun text hmem => hquote text (List.mem_cons_of_mem _ hmem)
    intro front h
    rw [List.flatMap_cons] at h ⊢
    rw [← List.append_assoc]
    refine ih _ ?_
    rw [List.append_assoc]
    cases piece with
    | plain text => exact (keeps_tidyPlain hstep _ _ (hquote text List.mem_cons_self) h).2
    | quoted text => exact h

/-- What is kept where a part of a text without quotes is replaced by a neat text is kept. -/
theorem keeps_tidyStretches {rule : List Char} (h : P rule) : P (tidyStretches rule) := by
  refine keeps_tidyPieces hstep (fun _ hmem => (cut_piecesAfter rule).not_mem hmem) [] ?_
  rwa [List.nil_append, flatMap_piecesAfter]

end Keeps

theorem not_mem_tidyPlain (h : '"' ∉ text) : '"' ∉ tidyPlain text :=
  (keeps_tidyPlain (P := fun _ => True) (fun _ _ _ _ _ _ h => h) [] [] h trivial).1

theorem Cut.map_tidied (h : Cut pieces) : Cut (pieces.map Piece.tidied) := by
  induction h with
  | plain htext => exact .plain (not_mem_tidyPlain htext)
  | opened htext hbody => exact .opened (not_mem_tidyPlain htext) hbody
  | closed htext hbody _ ih => exact .closed (not_mem_tidyPlain htext) hbody ih

/-- A rule whose stretches were tidied is cut where the rule was. -/
theorem piecesAfter_tidyStretches (rule : List Char) :
    piecesAfter false [] (tidyStretches rule) = (piecesAfter false [] rule).map Piece.tidied := by
  rw [← (cut_piecesAfter rule).map_tidied.piecesAfter_eq, List.flatMap_map]
  simp only [Piece.contents_tidied]
  rfl

/-- A rule stays as it is if each of its plain stretches does. -/
theorem tidyStretches_eq_self_iff (rule : List Char) :
    tidyStretches rule = rule ↔
      ∀ text, .plain text ∈ piecesAfter false [] rule → tidyPlain text = text := by
  have hmap : tidyStretches rule = rule ↔
      (piecesAfter false [] rule).map Piece.tidied = (piecesAfter false [] rule).map id := by
    rw [← piecesAfter_tidyStretches, List.map_id]
    refine ⟨fun h => by rw [h], fun h => ?_⟩
    rw [← flatMap_piecesAfter (tidyStretches rule), h, flatMap_piecesAfter]
  rw [hmap, List.map_inj_left]
  refine ⟨fun h text hmem => Piece.plain.inj (h _ hmem), fun h piece hmem => ?_⟩
  cases piece with
  | plain text => exact congrArg Piece.plain (h text hmem)
  | quoted text => rfl

/-- A rule without quotes is a single plain stretch. -/
theorem tidyStretches_plain (h : '"' ∉ text) : tidyStretches text = tidyPlain text := by
  rw [tidyStretches, piecesAfter_self _ h]
  exact List.append_nil _

/-! ### Quotes and semicolons -/

/-- Whether a text ends between quotes, given whether it begins there. -/
def quotedAfter (quoted : Bool) (text : List Char) : Bool :=
  text.foldl (fun quoted c => quoted != (c == '"')) quoted

/-- A text has no semicolon outside of quotes, given whether it begins between quotes. -/
def Whole : Bool → List Char → Prop
  | _, [] => True
  | quoted, c :: rest => (c = ';' → quoted = true) ∧ Whole (quoted != (c == '"')) rest

theorem bne_quote {c : Char} (hc : c ≠ '"') (quoted : Bool) : (quoted != (c == '"')) = quoted := by
  rw [beq_eq_false_iff_ne.2 hc]
  cases quoted <;> rfl

theorem quotedAfter_append : quotedAfter quoted (front ++ back) =
    quotedAfter (quotedAfter quoted front) back :=
  List.foldl_append

theorem whole_append : Whole quoted (front ++ back) ↔
    Whole quoted front ∧ Whole (quotedAfter quoted front) back := by
  induction front generalizing quoted with
  | nil => exact (and_iff_right trivial).symm
  | cons c front ih =>
    rw [List.cons_append, Whole, Whole, ih, and_assoc]
    rfl

theorem quotedAfter_of_not_mem (h : '"' ∉ text) : quotedAfter quoted text = quoted := by
  induction text with
  | nil => rfl
  | cons c text ih =>
    obtain ⟨hc, hrest⟩ := List.ne_and_not_mem_of_not_mem_cons h
    have hsame := bne_quote hc.symm quoted
    rw [quotedAfter, List.foldl_cons, hsame]
    exact ih hrest

theorem whole_of_not_mem (h : '"' ∉ text) (hsemicolon : ';' ∉ text) : Whole quoted text := by
  induction text with
  | nil => trivial
  | cons c text ih =>
    obtain ⟨hc, hrest⟩ := List.ne_and_not_mem_of_not_mem_cons h
    obtain ⟨hc', hrest'⟩ := List.ne_and_not_mem_of_not_mem_cons hsemicolon
    have hsame := bne_quote hc.symm quoted
    rw [Whole, hsame]
    exact ⟨fun heq => absurd heq.symm hc', ih hrest hrest'⟩

/-- A text leaves a quote open if another one does, and has no semicolons outside of quotes if that
one has none. -/
structure QuotedAs (text text' : List Char) : Prop where
  quotedAfter_eq : quotedAfter false text' = quotedAfter false text
  whole : Whole false text → Whole false text'

theorem QuotedAs.refl (text : List Char) : QuotedAs text text := ⟨rfl, id⟩

/-- A part without quotes can be replaced by one without quotes and semicolons. -/
theorem QuotedAs.replace {old new rest : List Char} (h : QuotedAs text (front ++ (old ++ rest)))
    (hold : '"' ∉ old) (hnew : '"' ∉ new) (hsemicolon : ';' ∉ new) :
    QuotedAs text (front ++ (new ++ rest)) := by
  obtain ⟨hquoted, hwhole⟩ := h
  rw [quotedAfter_append, quotedAfter_append, quotedAfter_of_not_mem hold] at hquoted
  refine ⟨?_, fun h => ?_⟩
  · rwa [quotedAfter_append, quotedAfter_append, quotedAfter_of_not_mem hnew]
  · obtain ⟨hfront, hback⟩ := whole_append.1 (hwhole h)
    have hrest := (whole_append.1 hback).2
    rw [quotedAfter_of_not_mem hold] at hrest
    refine whole_append.2 ⟨hfront, whole_append.2 ⟨whole_of_not_mem hnew hsemicolon, ?_⟩⟩
    rwa [quotedAfter_of_not_mem hnew]

theorem quotedAs_tidyStretches (text : List Char) : QuotedAs text (tidyStretches text) := by
  refine keeps_tidyStretches (P := QuotedAs text) ?_ (.refl text)
  exact fun front old new rest hnew hold h => h.replace hold
    (fun hmem => hnew.ne_quote _ hmem rfl) fun hmem => hnew.ne_semicolon _ hmem rfl

/-- A text without semicolons outside of quotes is not cut. -/
theorem splitAfter_self (h : Whole quoted text) (current : List Char) :
    splitAfter quoted current text = [current.reverse ++ text] := by
  induction text generalizing quoted current with
  | nil => simp [splitAfter]
  | cons c text ih =>
    obtain ⟨hc, hrest⟩ := h
    rw [splitAfter]
    by_cases hquote : c = '"'
    · subst hquote
      rw [if_pos rfl, ih (by simpa using hrest)]
      simp
    · have hsame := bne_quote hquote quoted
      rw [hsame] at hrest
      rw [if_neg hquote, if_neg (by simpa using hc), ih hrest]
      simp

/-- It is cut at the semicolon behind it, unless it leaves a quote open. -/
theorem splitAfter_append_semicolon (h : Whole quoted text)
    (hclosed : quotedAfter quoted text = false) (current rest : List Char) :
    splitAfter quoted current (text ++ ';' :: rest) =
      (current.reverse ++ text) :: splitAfter false [] rest := by
  induction text generalizing quoted current with
  | nil =>
    obtain rfl : quoted = false := hclosed
    simp [splitAfter]
  | cons c text ih =>
    obtain ⟨hc, hrest⟩ := h
    rw [List.cons_append, splitAfter]
    by_cases hquote : c = '"'
    · subst hquote
      have hflip : (quoted != ('"' == '"')) = !quoted := by cases quoted <;> rfl
      rw [quotedAfter, List.foldl_cons, hflip] at hclosed
      rw [hflip] at hrest
      rw [if_pos rfl, ih hrest hclosed]
      simp
    · have hsame := bne_quote hquote quoted
      rw [quotedAfter, List.foldl_cons, hsame] at hclosed
      rw [hsame] at hrest
      rw [if_neg hquote, if_neg (by simpa using hc), ih hrest hclosed]
      simp

/-- The parts of a text have no semicolon outside of quotes, and only the last one may leave a
quote open. -/
theorem whole_splitAfter (text current : List Char) (hcurrent : Whole false current.reverse)
    (hquoted : quotedAfter false current.reverse = quoted) :
    (∀ part ∈ splitAfter quoted current text, Whole false part) ∧
      (splitAfter quoted current text).Pairwise fun part _ => quotedAfter false part = false := by
  induction text generalizing quoted current with
  | nil => simpa [splitAfter] using hcurrent
  | cons c text ih =>
    have happend : quotedAfter false (c :: current).reverse = (quoted != (c == '"')) := by
      rw [List.reverse_cons, quotedAfter_append, hquoted]
      rfl
    rw [splitAfter]
    by_cases hquote : c = '"'
    · subst hquote
      rw [if_pos rfl]
      refine ih _ ?_ (happend.trans (by cases quoted <;> rfl))
      rw [List.reverse_cons, whole_append]
      exact ⟨hcurrent, nofun, trivial⟩
    · have hsame := bne_quote hquote quoted
      rw [if_neg hquote]
      split
      · rename_i hsemicolon
        obtain rfl : quoted = false := by simp_all
        obtain ⟨hparts, hpairwise⟩ := ih [] trivial (show quotedAfter false [] = false from rfl)
        exact ⟨List.forall_mem_cons.2 ⟨hcurrent, hparts⟩,
          List.pairwise_cons.2 ⟨fun _ _ => hquoted, hpairwise⟩⟩
      · rename_i hsemicolon
        refine ih _ ?_ (happend.trans hsame)
        rw [List.reverse_cons, whole_append, hquoted]
        exact ⟨hcurrent, by simpa using hsemicolon, trivial⟩

end Timetable.Tidy
