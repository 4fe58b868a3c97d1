import Timetable.Proofs.Tidy.Commas

/-!
Comments of a tidied text.

The comments of a text are the stretches between its first and second quotes, its third and fourth
ones, and so on. Cutting a text into its rules tells quotes apart in one scan, and cutting a rule
into its stretches does so in another one; a text that leaves no quote open has its own comments
before those of what stands behind it (`comments_append`), so the two scans find the same ones. What
tidying does to them is to collapse their blanks, which is done before a rule is cut at its quotes
(`comments_tidy`); they are left as they are just if their blanks are single spaces.
-/

namespace Timetable.Tidy

/-- Texts between quotes. A quote that is not closed begins none. The first argument holds, in
reverse, the text since a quote that is open. -/
def commentsAfter : Option (List Char) → List Char → List (List Char)
  | _, [] => []
  | none, c :: rest => if c = '"' then commentsAfter (some []) rest else commentsAfter none rest
  | some body, c :: rest =>
    if c = '"' then body.reverse :: commentsAfter none rest
    else commentsAfter (some (c :: body)) rest

/-- The comments of a text, without their quotes. -/
def comments (text : List Char) : List (List Char) := commentsAfter none text

variable {text front back body rest : List Char} {pieces : List Piece}

/-! ### Comments one by one -/

theorem commentsAfter_none (htext : '"' ∉ text) (rest : List Char) :
    commentsAfter none (text ++ rest) = commentsAfter none rest := by
  induction text with
  | nil => rfl
  | cons c text ih =>
    obtain ⟨hc, hmore⟩ := List.ne_and_not_mem_of_not_mem_cons htext
    rw [List.cons_append, commentsAfter, if_neg hc.symm, ih hmore]

theorem commentsAfter_some (hbody : '"' ∉ body) (begun rest : List Char) :
    commentsAfter (some begun) (body ++ rest) =
      commentsAfter (some (body.reverse ++ begun)) rest := by
  induction body generalizing begun with
  | nil => rfl
  | cons c body ih =>
    obtain ⟨hc, hmore⟩ := List.ne_and_not_mem_of_not_mem_cons hbody
    rw [List.cons_append, commentsAfter, if_neg hc.symm, ih hmore]
    simp

theorem comments_plain (htext : '"' ∉ text) : comments text = [] := by
  have hcomments := commentsAfter_none htext []
  rwa [List.append_nil] at hcomments

theorem comments_opened (htext : '"' ∉ text) (hbody : '"' ∉ body) :
    comments (text ++ '"' :: body) = [] := by
  have hopened := commentsAfter_some hbody [] []
  rw [List.append_nil] at hopened
  rw [comments, commentsAfter_none htext, commentsAfter, if_pos rfl, hopened]
  rfl

theorem comments_closed (htext : '"' ∉ text) (hbody : '"' ∉ body) (rest : List Char) :
    comments (text ++ '"' :: (body ++ '"' :: rest)) = body :: comments rest := by
  rw [comments, commentsAfter_none htext, commentsAfter, if_pos rfl, commentsAfter_some hbody,
    commentsAfter, if_pos rfl, List.append_nil, List.reverse_reverse]
  rfl

theorem closed_append (text body rest back : List Char) :
    text ++ '"' :: (body ++ '"' :: rest) ++ back =
      text ++ '"' :: (body ++ '"' :: (rest ++ back)) := by
  simp

/-- A text has no quotes, or leaves its only quote open, or begins with a comment behind text
without quotes. -/
theorem quote_induction {P : List Char → Prop} (plain : ∀ text, '"' ∉ text → P text)
    (opened : ∀ text body, '"' ∉ text → '"' ∉ body → P (text ++ '"' :: body))
    (closed : ∀ text body rest, '"' ∉ text → '"' ∉ body → P rest →
      P (text ++ '"' :: (body ++ '"' :: rest))) (text : List Char) : P text := by
  obtain ⟨pieces, hcut, rfl⟩ := exists_cut text
  induction hcut with
  | plain htext => simpa [Piece.contents] using plain _ htext
  | opened htext hbody => simpa [Piece.contents] using opened _ _ htext hbody
  | closed htext hbody _ ih => simpa [Piece.contents] using closed _ _ _ htext hbody ih

/-! ### Texts one after the other -/

/-- A text that leaves no quote open and one behind it have their own comments each. -/
theorem comments_append (hclosed : quotedAfter false front = false) (back : List Char) :
    comments (front ++ back) = comments front ++ comments back := by
  induction front using quote_induction with
  | plain text htext =>
    rw [comments_plain htext]
    exact commentsAfter_none htext back
  | opened text body htext hbody =>
    rw [quotedAfter_append, quotedAfter_of_not_mem htext] at hclosed
    have hopen : quotedAfter true body = false := hclosed
    rw [quotedAfter_of_not_mem hbody] at hopen
    cases hopen
  | closed text body rest htext hbody ih =>
    rw [quotedAfter_append, quotedAfter_of_not_mem htext] at hclosed
    have hbehind : quotedAfter true (body ++ '"' :: rest) = false := hclosed
    rw [quotedAfter_append, quotedAfter_of_not_mem hbody] at hbehind
    rw [closed_append, comments_closed htext hbody, comments_closed htext hbody, ih hbehind]
    rfl

/-- Text without quotes behind a text closes no comment of it. -/
theorem comments_append_of_not_mem (hback : '"' ∉ back) (text : List Char) :
    comments (text ++ back) = comments text := by
  induction text using quote_induction with
  | plain text htext => rw [comments_plain (List.not_mem_append htext hback), comments_plain htext]
  | opened text body htext hbody =>
    rw [List.append_assoc, List.cons_append,
      comments_opened htext (List.not_mem_append hbody hback), comments_opened htext hbody]
  | closed text body rest htext hbody ih =>
    rw [closed_append, comments_closed htext hbody, comments_closed htext hbody, ih]

theorem comments_trimBlanks (text : List Char) : comments (trimBlanks text) = comments text := by
  obtain ⟨left, right, hleft, hright, htext⟩ := exists_trimBlanks text
  have hfront := comments_append (quotedAfter_of_not_mem hleft.not_mem) (trimBlanks text ++ right)
  conv_rhs => rw [htext, hfront, comments_plain hleft.not_mem, List.nil_append,
    comments_append_of_not_mem hright.not_mem]

/-- Cutting a text at its semicolons cuts no comment. -/
theorem comments_splitAfter {quoted : Bool} (current text : List Char)
    (hquoted : quotedAfter false current.reverse = quoted) :
    (splitAfter quoted current text).flatMap comments = comments (current.reverse ++ text) := by
  induction text generalizing quoted current with
  | nil => simp [splitAfter]
  | cons c rest ih =>
    have happend : quotedAfter false (c :: current).reverse = (quoted != (c == '"')) := by
      rw [List.reverse_cons, quotedAfter_append, hquoted]
      rfl
    have hwhole : (c :: current).reverse ++ rest = current.reverse ++ c :: rest := by simp
    rw [splitAfter]
    by_cases hquote : c = '"'
    · subst hquote
      rw [if_pos rfl, ih _ (happend.trans (by cases quoted <;> rfl)), hwhole]
    · rw [if_neg hquote]
      split
      · rename_i hsemicolon
        obtain ⟨rfl, rfl⟩ : c = ';' ∧ quoted = false := by simpa using hsemicolon
        have hsplit := comments_append hquoted (';' :: rest)
        have hbehind : commentsAfter none ([';'] ++ rest) = commentsAfter none rest :=
          commentsAfter_none (by decide) rest
        rw [List.flatMap_cons, ih [] (show quotedAfter false [] = false from rfl), hsplit]
        exact congrArg (comments current.reverse ++ ·) hbehind.symm
      · rw [ih _ (happend.trans (bne_quote hquote quoted)), hwhole]

/-- The comments of a text are those of its rules. -/
theorem comments_splitRules (text : List Char) :
    (splitRules text).flatMap comments = comments text := by
  have hparts : (splitAfter false [] text).flatMap comments = comments text :=
    comments_splitAfter [] text rfl
  have hkept : ∀ rules : List (List Char),
      (rules.filter (!·.isEmpty)).flatMap comments = rules.flatMap comments := by
    intro rules
    induction rules with
    | nil => rfl
    | cons rule rules ih => cases rule <;> simpa [comments, commentsAfter] using ih
  rw [splitRules, hkept, List.flatMap_map]
  simp only [comments_trimBlanks]
  exact hparts

/-! ### What tidying does to comments -/

theorem Cut.comments_flatMap_tidy (h : Cut pieces) :
    comments (pieces.flatMap Piece.tidy) = comments (pieces.flatMap Piece.contents) := by
  induction h with
  | plain htext =>
    simp [Piece.tidy, Piece.contents, comments_plain htext,
      comments_plain (not_mem_tidyPlain htext)]
  | opened htext hbody =>
    simp [Piece.tidy, Piece.contents, comments_opened htext hbody,
      comments_opened (not_mem_tidyPlain htext) hbody]
  | closed htext hbody _ ih =>
    simp [Piece.tidy, Piece.contents, comments_closed htext hbody,
      comments_closed (not_mem_tidyPlain htext) hbody, ih]

theorem comments_tidyStretches (rule : List Char) :
    comments (tidyStretches rule) = comments rule := by
  rw [tidyStretches, (cut_piecesAfter rule).comments_flatMap_tidy, flatMap_piecesAfter]

theorem collapseBlanks_cons {c : Char} (hc : isBlank c = false) (rest : List Char) :
    correct collapseBlanks (c :: rest) = c :: correct collapseBlanks rest := by
  have hnone : collapseBlanks none (c :: rest) = none := if_neg (by simp [hc])
  refine (correctFrom_of_none hnone).trans ?_
  cases rest <;> rfl

theorem collapseBlanks_run {blanks : List Char} (hne : blanks ≠ []) (hblanks : Blanks blanks)
    (hrest : EndsRun isBlank rest.head?) :
    correct collapseBlanks (blanks ++ rest) = ' ' :: correct collapseBlanks rest := by
  have hsome : collapseBlanks none (blanks ++ rest) = some ([' '], rest) :=
    collapseBlanks_eq_some_iff.2 ⟨hrest, blanks, hne, hblanks, rfl, rfl⟩
  refine (correctFrom_of_some hne hsome).trans ?_
  cases rest <;> rfl

/-- Where no blank comes next, the two parts of a text are collapsed one by one. -/
theorem collapseBlanks_append (hback : EndsRun isBlank back.head?) (front : List Char) :
    correct collapseBlanks (front ++ back) =
      correct collapseBlanks front ++ correct collapseBlanks back := by
  induction front using run_induction isBlank with
  | nil => rfl
  | other c rest hc ih =>
    rw [List.cons_append, collapseBlanks_cons hc, collapseBlanks_cons hc, ih]
    rfl
  | run blanks rest hne hblanks hrest ih =>
    have hbehind : EndsRun isBlank (rest ++ back).head? := by
      cases rest with
      | nil => exact hback
      | cons c rest => exact hrest
    rw [List.append_assoc, collapseBlanks_run hne hblanks hbehind,
      collapseBlanks_run hne hblanks hrest, ih]
    rfl

theorem collapseBlanks_quote (front back : List Char) :
    correct collapseBlanks (front ++ '"' :: back) =
      correct collapseBlanks front ++ '"' :: correct collapseBlanks back := by
  have hmark : isBlank '"' = false := by decide
  have hbehind : EndsRun isBlank ('"' :: back).head? := endsRun_some.2 hmark
  rw [collapseBlanks_append hbehind, collapseBlanks_cons hmark]

theorem not_mem_collapseBlanks (h : '"' ∉ text) : '"' ∉ correct collapseBlanks text := by
  induction text using run_induction isBlank with
  | nil => exact h
  | other c rest hc ih =>
    obtain ⟨hne, hrest⟩ := List.ne_and_not_mem_of_not_mem_cons h
    rw [collapseBlanks_cons hc]
    exact List.not_mem_cons_of_ne_of_not_mem hne (ih hrest)
  | run blanks rest hne hblanks hrest ih =>
    rw [collapseBlanks_run hne hblanks hrest]
    refine List.not_mem_cons_of_ne_of_not_mem (by decide) (ih ?_)
    exact fun hmem => h (List.mem_append_right _ hmem)

/-- The blanks of each comment are collapsed by themselves. -/
theorem comments_collapseBlanks (text : List Char) :
    comments (correct collapseBlanks text) = (comments text).map (correct collapseBlanks) := by
  induction text using quote_induction with
  | plain text htext =>
    rw [comments_plain htext, comments_plain (not_mem_collapseBlanks htext)]
    rfl
  | opened text body htext hbody =>
    rw [collapseBlanks_quote, comments_opened htext hbody,
      comments_opened (not_mem_collapseBlanks htext) (not_mem_collapseBlanks hbody)]
    rfl
  | closed text body rest htext hbody ih =>
    rw [collapseBlanks_quote, collapseBlanks_quote, comments_closed htext hbody,
      comments_closed (not_mem_collapseBlanks htext) (not_mem_collapseBlanks hbody), ih]
    rfl

theorem comments_tidyRule (rule : List Char) :
    comments (tidyRule rule) = (comments rule).map (correct collapseBlanks) := by
  rw [← comments_collapseBlanks, tidyRule]
  split
  · rename_i hopen
    rw [comments_plain (by decide), comments_plain (not_mem_of_saysAlwaysOpen hopen (by decide))]
  · exact (comments_trimBlanks _).trans (comments_tidyStretches _)

theorem comments_tidyChars (text : List Char) :
    comments (tidyChars text) = (comments text).map (correct collapseBlanks) := by
  rw [← comments_splitRules, (splitRules_tidyChars text).2, List.flatMap_map,
    ← comments_splitRules text, List.map_flatMap]
  simp only [comments_tidyRule]

/-- The comments of a tidied text are those of the text, each with its blanks collapsed. So tidying
leaves the comments untouched just if their blanks are single spaces. -/
theorem comments_tidy (text : String) :
    comments (tidy text).toList = (comments text.toList).map (correct collapseBlanks) ∧
      (comments (tidy text).toList = comments text.toList ↔
        ∀ comment ∈ comments text.toList, SingleSpaced comment) := by
  have hcomments := comments_tidyChars text.toList
  rw [tidy, String.toList_ofList, hcomments]
  refine ⟨rfl, ?_⟩
  conv_lhs => rhs; rw [← List.map_id (comments text.toList)]
  rw [List.map_inj_left]
  exact forall₂_congr fun comment _ => collapseBlanks_eq_self_iff.trans singleSpaced_iff.symm

/-- The second space of the comment is dropped. -/
theorem comments_tidy_ne_twoSpaces : comments (tidy "Mo \"call  first\"").toList ≠
    comments "Mo \"call  first\"".toList := by decide

end Timetable.Tidy
