import Timetable.Proofs.Grammar.Confined

/-!
Texts whose blanks are moved.

`squeeze` leaves no blank beside a comma, one behind a semicolon and one wherever several stood.
Comments and the numbers of a weekday stay as they are. All that is said of a squeezed text is said
of the place at which it begins: which character comes first, what is left without the blanks, and
which characters come first that stay where they are.
-/

namespace Timetable.Grammar

/-! ### Squeezed texts -/

/-- Whether blanks beside the character are moved. -/
def isGap (c : Char) : Bool := c == ' ' || c == ',' || c == ';'

/-- A character before a squeezed text. -/
def squeezeBefore (c : Char) (text : List Char) : List Char :=
  if c = ' ' then if text.head?.all isGap then text else ' ' :: text
  else if c = ',' then ',' :: text.dropWhile (· == ' ')
  else if c = ';' then
    if text.dropWhile (· == ' ') = [] then [] else ';' :: ' ' :: text.dropWhile (· == ' ')
  else c :: text

/-- The text without blanks beside commas and at its end, with one blank where there are several and
behind each semicolon, and without a semicolon at its end. What is enclosed stays as it is. -/
def squeeze : Enclosure → List Char → List Char
  | _, [] => []
  | .nothing, c :: text => squeezeBefore c (squeeze (Enclosure.nothing.after c) text)
  | enclosure, c :: text => c :: squeeze (enclosure.after c) text

/-- Whether the character stays where it is, and encloses nothing. -/
def isPlain (c : Char) : Bool := !isGap c && c != '"' && c != '['

variable {c : Char} {text : List Char}

theorem isGap_eq_false : isGap c = false ↔ c ≠ ' ' ∧ c ≠ ',' ∧ c ≠ ';' := by
  simp [isGap, and_assoc]

theorem squeeze_other (h : isGap c = false) (text : List Char) :
    squeeze .nothing (c :: text) = c :: squeeze (Enclosure.nothing.after c) text := by
  obtain ⟨hblank, hcomma, hsemicolon⟩ := isGap_eq_false.1 h
  rw [squeeze, squeezeBefore, if_neg hblank, if_neg hcomma, if_neg hsemicolon]

theorem squeeze_plain (h : isPlain c = true) (text : List Char) :
    squeeze .nothing (c :: text) = c :: squeeze .nothing text := by
  simp only [isPlain, Bool.and_eq_true, Bool.not_eq_true', bne_iff_ne] at h
  rw [squeeze_other h.1.1, Enclosure.after_of_ne h.1.2 h.2]

/-- The characters that stay come first in the squeezed text just if they do in the text. -/
theorem head?_squeeze (h : isGap c = false) (text : List Char) :
    (squeeze .nothing text).head? = some c ↔ text.head? = some c := by
  induction text with
  | nil => rfl
  | cons d text ih =>
    by_cases hd : isGap d = true
    · have hne : ∀ d, isGap d = true → some d ≠ some c := by
        rintro _ hd ⟨⟩
        rw [h] at hd
        cases hd
      refine iff_of_false ?_ (hne d hd)
      simp only [isGap, Bool.or_eq_true, beq_iff_eq] at hd
      rcases hd with (rfl | rfl) | rfl
      · change (squeezeBefore ' ' (squeeze .nothing text)).head? ≠ some c
        rw [squeezeBefore, if_pos rfl]
        split
        · rename_i hall
          intro heq
          rw [heq] at hall
          exact hne c hall rfl
        · exact hne ' ' rfl
      · exact hne ',' rfl
      · change (squeezeBefore ';' (squeeze .nothing text)).head? ≠ some c
        rw [squeezeBefore, if_neg (by decide), if_neg (by decide), if_pos rfl]
        split
        · exact nofun
        · exact hne ';' rfl
    · rw [squeeze_other (by simpa using hd)]
      rfl

/-- A blank before a squeezed text stays, or is dropped. -/
theorem dropWhile_squeezeBefore (text : List Char) :
    (squeezeBefore ' ' text).dropWhile (· == ' ') = text.dropWhile (· == ' ') := by
  rw [squeezeBefore, if_pos rfl]
  split <;> rfl

/-- Without the blanks before it, the squeezed text is the text without the blanks before it. -/
theorem dropWhile_squeeze (text : List Char) :
    (squeeze .nothing text).dropWhile (· == ' ') =
      squeeze .nothing (text.dropWhile (· == ' ')) := by
  induction text with
  | nil => rfl
  | cons d text ih =>
    by_cases hd : d = ' '
    · subst hd
      exact (dropWhile_squeezeBefore _).trans ih
    · rw [List.dropWhile_cons_of_neg (by simpa using hd)]
      by_cases hcomma : d = ','
      · subst hcomma
        rfl
      by_cases hsemicolon : d = ';'
      · subst hsemicolon
        change (squeezeBefore ';' (squeeze .nothing text)).dropWhile _ =
          squeezeBefore ';' (squeeze .nothing text)
        rw [squeezeBefore, if_neg (by decide), if_neg (by decide), if_pos rfl]
        split <;> rfl
      · rw [squeeze_other (isGap_eq_false.2 ⟨hd, hcomma, hsemicolon⟩),
          List.dropWhile_cons_of_neg (by simpa using hd)]

/-- A blank stays before a character that stays. -/
theorem head?_squeeze_blank (hblank : text.head? = some ' ')
    (hnext : ∃ c ∈ (text.dropWhile (· == ' ')).head?, isGap c = false) :
    (squeeze .nothing text).head? = some ' ' := by
  induction text with
  | nil => cases hblank
  | cons d text ih =>
    obtain rfl := Option.some.inj hblank
    obtain ⟨c, hc, hgap⟩ := hnext
    change (squeezeBefore ' ' (squeeze .nothing text)).head? = some ' '
    rw [squeezeBefore, if_pos rfl]
    split
    · rename_i hall
      cases text with
      | nil => cases hc
      | cons d text =>
        by_cases hd : d = ' '
        · subst hd
          exact ih rfl ⟨c, hc, hgap⟩
        · have hhead : (squeeze .nothing (d :: text)).head? = some c :=
            (head?_squeeze hgap _).2 (by
              have := hc
              rwa [List.dropWhile_cons_of_pos (by decide),
                List.dropWhile_cons_of_neg (by simpa using hd)] at this)
          rw [hhead] at hall
          exact absurd (hall.symm.trans hgap) nofun
    · rfl

theorem dropWhile_eq_self_of_head (h : text.head? ≠ some ' ') :
    text.dropWhile (· == ' ') = text := by
  cases text with
  | nil => rfl
  | cons c text =>
    exact List.dropWhile_cons_of_neg (by simpa using fun heq => h (congrArg some heq))

theorem head?_dropWhile_space (text : List Char) :
    (text.dropWhile (· == ' ')).head? ≠ some ' ' := by
  intro heq
  have := List.head?_dropWhile_not (· == ' ') text
  rw [heq] at this
  cases this

/-- Blanks and semicolons are the only characters that do not always stay at the beginning. -/
theorem head?_squeeze_eq (hblank : text.head? ≠ some ' ') (hsemicolon : text.head? ≠ some ';') :
    (squeeze .nothing text).head? = text.head? := by
  cases text with
  | nil => rfl
  | cons c text =>
    by_cases hcomma : c = ','
    · subst hcomma
      rfl
    · rw [squeeze_other (isGap_eq_false.2 ⟨fun heq => hblank (congrArg some heq), hcomma,
        fun heq => hsemicolon (congrArg some heq)⟩)]
      rfl

theorem squeeze_semicolon (text : List Char) :
    squeeze .nothing (';' :: text) =
      if squeeze .nothing (text.dropWhile (· == ' ')) = [] then []
      else ';' :: ' ' :: squeeze .nothing (text.dropWhile (· == ' ')) := by
  rw [← dropWhile_squeeze]
  rfl

/-- Behind the blanks, a comma comes first in the squeezed text just if it does in the text. -/
theorem head?_squeeze_comma (h : text.head? ≠ some ' ') :
    (squeeze .nothing text).head? = some ',' ↔ text.head? = some ',' := by
  by_cases hsemicolon : text.head? = some ';'
  · obtain ⟨rest, rfl⟩ := List.head?_eq_some_iff.1 hsemicolon
    have hne : some ';' ≠ some ',' := by decide
    refine iff_of_false ?_ hne
    rw [squeeze_semicolon]
    split
    · exact nofun
    · exact hne
  · rw [head?_squeeze_eq h hsemicolon]

theorem squeeze_comma (text : List Char) :
    squeeze .nothing (',' :: text) = ',' :: squeeze .nothing (text.dropWhile (· == ' ')) := by
  rw [← dropWhile_squeeze]
  rfl

theorem squeeze_nil (enclosure : Enclosure) : squeeze enclosure [] = [] := by
  cases enclosure <;> rfl

theorem squeeze_inside {enclosure : Enclosure} (h : enclosure ≠ .nothing) (c : Char)
    (text : List Char) :
    squeeze enclosure (c :: text) = c :: squeeze (enclosure.after c) text := by
  cases enclosure with
  | nothing => exact absurd rfl h
  | quotes => rfl
  | brackets => rfl

/-- What is enclosed stays as it is up to its end. -/
theorem squeeze_enclosed {enclosure : Enclosure} (hne : enclosure ≠ .nothing) {body : List Char}
    (hbody : ∀ c ∈ body, enclosure.after c = enclosure) (rest : List Char) :
    squeeze enclosure (body ++ rest) = body ++ squeeze enclosure rest := by
  induction body with
  | nil => rfl
  | cons c body ih =>
    obtain ⟨hc, hbody⟩ := List.forall_mem_cons.1 hbody
    rw [List.cons_append, squeeze_inside hne, hc, ih hbody]
    rfl

theorem isGap_of_isPlain (h : isPlain c = true) : isGap c = false := by
  simp only [isPlain, Bool.and_eq_true, Bool.not_eq_true'] at h
  exact h.1.1

end Timetable.Grammar
