import Timetable.Proofs.Failure
import Timetable.Proofs.Grammar.Reads

/-!
Lists that are written with a mark between their elements.

What is written for a list is read as that list, if each element is read as itself and nothing more
can be read behind the last one (`reads_separatedBy`). If some element is not read as itself, then
the list is not either (`yields_separatedBy`), as the elements before it are read as far as they go.
-/

namespace Timetable

/-- Words with a mark before each of them. -/
def trail (mark : String) (words : List String) : List Char :=
  words.flatMap fun word => mark.toList ++ word.toList

theorem trail_cons (mark word : String) (words : List String) :
    trail mark (word :: words) = mark.toList ++ (word.toList ++ trail mark words) := by
  rw [trail, List.flatMap_cons, List.append_assoc]
  rfl

theorem trail_append (mark : String) (words others : List String) :
    trail mark (words ++ others) = trail mark words ++ trail mark others :=
  List.flatMap_append

theorem toList_intercalate_cons (mark word : String) (words : List String) :
    (String.intercalate mark (word :: words)).toList = word.toList ++ trail mark words := by
  induction words generalizing word with
  | nil => simp [trail]
  | cons next words ih =>
    rw [String.intercalate_cons_of_ne_nil (List.cons_ne_nil _ _), String.toList_append,
      String.toList_append, ih, trail_cons, List.append_assoc]

/-- What is written behind something with a mark between them. -/
theorem trail_eq (mark : String) {words : List String} (hne : words ≠ []) :
    trail mark words = mark.toList ++ (String.intercalate mark words).toList := by
  obtain ⟨word, words, rfl⟩ := List.exists_cons_of_ne_nil hne
  rw [trail_cons, toList_intercalate_cons]

theorem toList_intercalate_append (mark : String) {words : List String} (others : List String)
    (h : words ≠ []) : (String.intercalate mark (words ++ others)).toList =
      (String.intercalate mark words).toList ++ trail mark others := by
  obtain ⟨word, words, rfl⟩ := List.exists_cons_of_ne_nil h
  rw [List.cons_append, toList_intercalate_cons, toList_intercalate_cons, trail_append,
    List.append_assoc]

namespace Grammar

open Peg

variable {α β γ ε : Type} {item : Peg α} {separator : Peg γ} {interpret : α → Except ε β}
  {text : β → String} {follows : List Char → Prop} {rest : List Char}

/-- After an element comes another one, or what comes after the list. -/
theorem follows_trail (hcomma : ∀ source, follows (',' :: source)) (hrest : follows rest)
    (items : List β) : follows (trail "," (items.map text) ++ rest) := by
  cases items with
  | nil => exact hrest
  | cons item items =>
    rw [List.map_cons, trail_cons]
    exact hcomma _

section

variable (hconsumes : separator.Consumes)
  (hseparator : ∀ b source, separator.Reads (',' :: ((text b).toList ++ source))
    ((text b).toList ++ source) fun _ => True)
  (hcomma : ∀ source, follows (',' :: source)) (hrest : follows rest)

include hconsumes hseparator hcomma hrest

theorem reads_many_items {items : List β}
    (hitem : ∀ b ∈ items, ∀ rest, follows rest →
      item.Reads ((text b).toList ++ rest) rest fun a => interpret a = .ok b)
    (hstop : (separator.andThen item).Refuses rest) :
    (many (separator.andThen item)).Reads (trail "," (items.map text) ++ rest) rest
      fun forms => forms.mapM interpret = .ok items := by
  induction items with
  | nil => exact reads_many_stop hconsumes.andThen hstop (mapM_nil_eq_ok.2 rfl)
  | cons b items ih =>
    have hfollows := @follows_trail β text follows rest hcomma hrest items
    have hfirst := hitem b List.mem_cons_self _ hfollows
    have hmany := ih fun b' hb' => hitem b' (List.mem_cons_of_mem b hb')
    rw [List.map_cons, trail_cons, List.append_assoc, List.append_assoc]
    refine Ends.mono (Ends.many_step hconsumes.andThen
      (Ends.andThen (hseparator b _) hfirst) hmany) ?_
    rintro _ ⟨form, forms, rfl, hform, hforms⟩
    exact mapM_cons_eq_ok.2 ⟨b, items, hform, hforms, rfl⟩

/-- A list is read as it is written. -/
theorem reads_separatedBy {items : List β} (hne : items ≠ [])
    (hitem : ∀ b ∈ items, ∀ rest, follows rest →
      item.Reads ((text b).toList ++ rest) rest fun a => interpret a = .ok b)
    (hstop : (separator.andThen item).Refuses rest) :
    (separatedBy item separator).Reads
      ((String.intercalate "," (items.map text)).toList ++ rest) rest
      fun forms => forms.mapM interpret = .ok items := by
  obtain ⟨b, items, rfl⟩ := List.exists_cons_of_ne_nil hne
  rw [List.map_cons, toList_intercalate_cons, List.append_assoc]
  refine Ends.map (Ends.seq (hitem b List.mem_cons_self _ (follows_trail hcomma hrest items))
    (reads_many_items hconsumes hseparator hcomma hrest
      (fun b' hb' => hitem b' (List.mem_cons_of_mem b hb')) hstop)) ?_
  rintro ⟨form, forms⟩ ⟨hform, hforms⟩
  exact mapM_cons_eq_ok.2 ⟨b, items, hform, hforms, rfl⟩

theorem yields_many_items {items : List β} {good : β → Prop}
    (hitem : ∀ b ∈ items, good b → ∀ rest, follows rest →
      item.Reads ((text b).toList ++ rest) rest fun a => interpret a = .ok b)
    (hbad : ∀ b ∈ items, ¬ good b → ∀ rest, follows rest →
      item.Yields ((text b).toList ++ rest) fun a => interpret a ≠ .ok b)
    (h : ∃ b ∈ items, ¬ good b) :
    (many (separator.andThen item)).Yields (trail "," (items.map text) ++ rest)
      fun forms => forms.mapM interpret ≠ .ok items := by
  induction items with
  | nil => exact absurd h (by rintro ⟨_, hb, _⟩; cases hb)
  | cons b items ih =>
    have hfollows := @follows_trail β text follows rest hcomma hrest items
    rw [List.map_cons, trail_cons, List.append_assoc, List.append_assoc]
    by_cases hb : good b
    · obtain ⟨b', hb', hbad'⟩ := h
      rcases List.mem_cons.1 hb' with rfl | hb'
      · exact absurd hb hbad'
      · have hmany := ih (fun c hc => hitem c (List.mem_cons_of_mem b hc))
          (fun c hc => hbad c (List.mem_cons_of_mem b hc)) ⟨b', hb', hbad'⟩
        refine Yields.mono (Yields.many_step hconsumes.andThen
          (Ends.andThen (hseparator b _) (hitem b List.mem_cons_self hb _ hfollows)) hmany) ?_
        rintro _ ⟨form, forms, rfl, -, hforms⟩ heq
        obtain ⟨_, _, -, htail, heq⟩ := mapM_cons_eq_ok.1 heq
        obtain ⟨-, rfl⟩ := List.cons.inj heq
        exact hforms htail
    · refine Yields.mono (Yields.many_first hconsumes.andThen
        (Yields.andThen_right (hseparator b _) (hbad b List.mem_cons_self hb _ hfollows))) ?_
      rintro _ (rfl | ⟨form, forms, rfl, hform⟩) heq
      · cases mapM_nil_eq_ok.1 heq
      · obtain ⟨_, _, hfirst, -, heq⟩ := mapM_cons_eq_ok.1 heq
        obtain ⟨rfl, -⟩ := List.cons.inj heq
        exact hform hfirst

/-- A list with an element that is not read as itself is not read as it is written. -/
theorem yields_separatedBy {items : List β} {good : β → Prop}
    (hitem : ∀ b ∈ items, good b → ∀ rest, follows rest →
      item.Reads ((text b).toList ++ rest) rest fun a => interpret a = .ok b)
    (hbad : ∀ b ∈ items, ¬ good b → ∀ rest, follows rest →
      item.Yields ((text b).toList ++ rest) fun a => interpret a ≠ .ok b)
    (h : ∃ b ∈ items, ¬ good b) :
    (separatedBy item separator).Yields
      ((String.intercalate "," (items.map text)).toList ++ rest)
      fun forms => forms.mapM interpret ≠ .ok items := by
  obtain ⟨b', hb', hbad'⟩ := h
  cases items with
  | nil => cases hb'
  | cons b items =>
    have hfollows := @follows_trail β text follows rest hcomma hrest items
    rw [List.map_cons, toList_intercalate_cons, List.append_assoc]
    by_cases hb : good b
    · rcases List.mem_cons.1 hb' with rfl | hb'
      · exact absurd hb hbad'
      · have hmany := yields_many_items hconsumes hseparator hcomma hrest
          (fun c hc => hitem c (List.mem_cons_of_mem b hc))
          (fun c hc => hbad c (List.mem_cons_of_mem b hc)) ⟨b', hb', hbad'⟩
        refine Yields.map (Yields.seq_right (hitem b List.mem_cons_self hb _ hfollows) hmany) ?_
        rintro ⟨form, forms⟩ ⟨-, hforms⟩ heq
        obtain ⟨_, _, -, htail, heq⟩ := mapM_cons_eq_ok.1 heq
        obtain ⟨-, rfl⟩ := List.cons.inj heq
        exact hforms htail
    · refine Yields.map (Yields.seq_left (hbad b List.mem_cons_self hb _ hfollows)) ?_
      rintro ⟨form, forms⟩ hform heq
      obtain ⟨_, _, hfirst, -, heq⟩ := mapM_cons_eq_ok.1 heq
      obtain ⟨rfl, -⟩ := List.cons.inj heq
      exact hform hfirst

end

/-! ### Commas without blanks -/

theorem consumes_comma : (token [',']).Consumes := consumes_token (List.cons_ne_nil _ _)

end Grammar

end Timetable
