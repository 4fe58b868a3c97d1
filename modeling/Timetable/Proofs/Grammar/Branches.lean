import Timetable.Proofs.Grammar.Mirror
import Timetable.Proofs.Grammar.Tree

/-!
How trees mirror forms.

The trees that are read in one place mirror the forms that are read there. What the two have to do
with each other is said of the list of trees: for parts one after the other it is split in two
(`Both`), for repeated parts it is the trees of all of them (`Each`), for a named part it is a
single tree (`Named`), and for the parts of a named part it is what they make of its tree
(`Within`).
-/

namespace Timetable.Grammar.Tree

open Peg

variable {α β γ : Type} {R : List Tree → α → Prop} {S : List Tree → β → Prop}

/-- The trees of one part, and then those of another. -/
def Both (R : List Tree → α → Prop) (S : List Tree → β → Prop) (trees : List Tree)
    (values : α × β) : Prop :=
  ∃ front back, trees = front ++ back ∧ R front values.1 ∧ S back values.2

/-- The trees of a part that may be missing. -/
def Maybe (R : List Tree → α → Prop) (trees : List Tree) : Option α → Prop
  | some value => R trees value
  | none => trees = []

/-- The trees of repeated parts. -/
def Each (R : List Tree → α → Prop) (trees : List Tree) (values : List α) : Prop :=
  ∃ rows, trees = rows.flatten ∧ List.Forall₂ R rows values

/-- A tree with a name, and what is known of it. -/
def Named (symbol : Symbol) (R : Tree → α → Prop) (trees : List Tree) (value : α) : Prop :=
  ∃ tree, trees = [tree] ∧ tree.symbol = symbol ∧ R tree value

/-- What is known of a tree with a name as soon as the trees within it are known. -/
def Within (symbol : Symbol) (R : Tree → α → Prop) (trees : List Tree) (value : α) : Prop :=
  ∀ tree : Tree, tree.symbol = symbol → tree.children = trees → R tree value

section Rules

variable {trees : Peg (List Tree)} {peg : Peg α} {second : Peg (List Tree)} {peg' : Peg β}

theorem mirrors_silent (peg : Peg α) : (silent peg).Mirrors (fun trees _ => trees = []) peg :=
  (mirrors_self peg).map_left fun _ _ _ => rfl

theorem mirrors_both (h : trees.Mirrors R peg) (h' : second.Mirrors S peg') :
    (both trees second).Mirrors (Both R S) (seq peg peg') :=
  (h.seq h').map_left fun p _ hvalues => ⟨p.1, p.2, rfl, hvalues.1, hvalues.2⟩

theorem mirrors_behind (mark : Peg γ) (h : trees.Mirrors R peg) :
    (behind mark trees).Mirrors R (mark.andThen peg) := by
  refine (mirrors_both (mirrors_silent mark) h).map_right ?_
  rintro _ _ ⟨_, _, rfl, rfl, hvalue⟩
  exact hvalue

theorem mirrors_before (h : trees.Mirrors R peg) (mark : Peg γ) :
    (before trees mark).Mirrors R (peg.followedBy mark) := by
  refine (mirrors_both h (mirrors_silent mark)).map_right ?_
  rintro _ _ ⟨_, _, rfl, hvalue, rfl⟩
  rw [List.append_nil]
  exact hvalue

theorem mirrors_maybe (h : trees.Mirrors R peg) :
    (maybe trees).Mirrors (Maybe R) (optional peg) := by
  have hsome : trees.Mirrors (Maybe R) (map some peg) := h.map_right fun _ _ hvalue => hvalue
  exact hsome.choice (mirrors_pure rfl)

theorem mirrors_repeated (h : trees.Mirrors R peg) :
    (repeated trees).Mirrors (Each R) (many peg) :=
  h.many.map_left fun rows _ hrows => ⟨rows, rfl, hrows⟩

theorem mirrors_listOf (h : trees.Mirrors R peg) (mark : Peg γ) :
    (listOf trees mark).Mirrors (Each R) (separatedBy peg mark) := by
  refine (mirrors_both h (mirrors_repeated (mirrors_behind mark h))).map_right ?_
  rintro _ _ ⟨first, _, rfl, hfirst, rows, rfl, hrows⟩
  exact ⟨first :: rows, rfl, .cons hfirst hrows⟩

/-- More is known of a named part. -/
theorem mirrors_mono {symbol : Symbol} {R S : Tree → α → Prop}
    (h : trees.Mirrors (Named symbol R) peg)
    (hmono : ∀ tree value, tree.symbol = symbol → R tree value → S tree value) :
    trees.Mirrors (Named symbol S) peg :=
  h.mono fun _ value ⟨tree, heq, hsymbol, hvalue⟩ =>
    ⟨tree, heq, hsymbol, hmono tree value hsymbol hvalue⟩

/-- A named part, whose text may matter. -/
theorem mirrors_branch_located {R : List Tree × Fragment → α → Prop} (symbol : Symbol)
    (h : (located trees).Mirrors R peg) : (branch symbol trees).Mirrors
      (Named symbol fun tree value => R (tree.children, tree.whole) value) (named peg) :=
  (h.map_left fun _ _ hvalue => ⟨_, rfl, rfl, hvalue⟩).named

theorem mirrors_branch (symbol : Symbol) (h : trees.Mirrors R peg) :
    (branch symbol trees).Mirrors (Named symbol fun tree value => R tree.children value)
      (named peg) :=
  mirrors_branch_located symbol h.located_left

/-- A named part that may be read in several ways, each of which settles the whole part. -/
theorem mirrors_within {symbol : Symbol} {R : Tree → α → Prop}
    (h : trees.Mirrors (Within symbol R) peg) :
    (branch symbol trees).Mirrors (Named symbol R) (named peg) :=
  mirrors_mono (mirrors_branch symbol h) fun tree _ hsymbol hwithin => hwithin tree hsymbol rfl

/-- A named part whose value is made from those of the parts within. -/
theorem mirrors_map {symbol : Symbol} {f : α → β} {S : Tree → β → Prop} (h : trees.Mirrors R peg)
    (hvalue : ∀ tree value, tree.symbol = symbol → R tree.children value → S tree (f value)) :
    (branch symbol trees).Mirrors (Named symbol S) (named (map f peg)) := by
  have hchildren : trees.Mirrors (fun trees made => ∃ value, made = f value ∧ R trees value)
      (map f peg) := h.map_right fun _ value hvalue => ⟨value, rfl, hvalue⟩
  refine mirrors_mono (mirrors_branch symbol hchildren) ?_
  rintro tree _ hsymbol ⟨value, rfl, hrelated⟩
  exact hvalue tree value hsymbol hrelated

/-- The same where the text of the part is kept. -/
theorem mirrors_map_located {symbol : Symbol} {f : α × Fragment → β} {S : Tree → β → Prop}
    (h : trees.Mirrors R peg) (hvalue : ∀ tree value, tree.symbol = symbol →
      R tree.children value → S tree (f (value, tree.whole))) :
    (branch symbol trees).Mirrors (Named symbol S) (named (map f (located peg))) := by
  have hchildren : (located trees).Mirrors (fun read made => ∃ value, made = f (value, read.2) ∧
      R read.1 value) (map f (located peg)) :=
    h.located.map_right fun _ value hvalue => ⟨value.1, hvalue.2 ▸ rfl, hvalue.1⟩
  refine mirrors_mono (mirrors_branch_located symbol hchildren) ?_
  rintro tree _ hsymbol ⟨value, rfl, hrelated⟩
  exact hvalue tree value hsymbol hrelated

/-- Where the text and the place of a named part are kept, they are those of the tree. -/
theorem mirrors_kept {symbol : Symbol} {R : Tree → α → Prop}
    (h : (branch symbol trees).Mirrors (Named symbol R) (named peg)) :
    (branch symbol trees).Mirrors
      (Named symbol fun tree value => R tree value.1 ∧ tree.whole = value.2)
      (located (named peg)) := by
  refine h.located_right ?_
  rintro cursor _ value stop hresult ⟨tree, rfl, hsymbol, hvalue⟩
  rw [branch, result_named, result_map, result_located] at hresult
  simp only [Option.map_map, Option.map_eq_some_iff, Function.comp_apply, Prod.mk.injEq,
    List.cons.injEq, and_true] at hresult
  obtain ⟨read, -, rfl, rfl⟩ := hresult
  exact ⟨_, rfl, hsymbol, hvalue, rfl⟩

/-- A named part of which nothing but its name matters. -/
theorem mirrors_mark (symbol : Symbol) (peg : Peg α) :
    (leaf symbol peg).Mirrors (Named symbol fun _ _ => True) (named peg) :=
  mirrors_mono (mirrors_branch symbol (mirrors_silent peg)) fun _ _ _ _ => trivial

/-- A named part in which nothing is named; its text is the one that is spelled. -/
theorem mirrors_leaf {P : List Char → α → Prop} {inner : Peg γ} (symbol : Symbol)
    (h : inner.Mirrors (fun _ _ => True) peg) (hspells : peg.Spells P) :
    (leaf symbol inner).Mirrors
      (Named symbol fun tree value => tree.children = [] ∧ P tree.text value) (named peg) := by
  have hsilent : (silent inner).Mirrors (fun trees _ => trees = []) peg :=
    h.map_left fun _ _ _ => rfl
  exact mirrors_branch_located symbol (hsilent.located_spells hspells)

/-- A part whose characters are kept. -/
theorem mirrors_leaf_self {P : List Char → α → Prop} (symbol : Symbol) (hspells : peg.Spells P) :
    (leaf symbol peg).Mirrors
      (Named symbol fun tree value => tree.children = [] ∧ P tree.text value) (named peg) :=
  mirrors_leaf symbol ((mirrors_self peg).mono fun _ _ _ => trivial) hspells

theorem mirrors_word (text : String) (value : α) :
    (token text.toList).Mirrors (fun _ value' => value' = value) (word text value) :=
  (mirrors_self _).map_right fun _ _ _ => rfl

/-- A named part that stands for a value. -/
theorem mirrors_leaf_value (symbol : Symbol) {inner : Peg γ} {value : α}
    (h : inner.Mirrors (fun _ value' => value' = value) peg) :
    (leaf symbol inner).Mirrors (Named symbol fun _ value' => value' = value) (named peg) := by
  have hsilent : (silent inner).Mirrors (fun _ value' => value' = value) peg :=
    h.map_left fun _ _ hvalue => hvalue
  exact mirrors_branch symbol hsilent

theorem mirrors_leaf_word (symbol : Symbol) (text : String) (value : α) :
    (leaf symbol (token text.toList)).Mirrors (Named symbol fun _ value' => value' = value)
      (named (word text value)) :=
  mirrors_leaf_value symbol (mirrors_word text value)

/-- One of several words, each with its value. -/
theorem mirrors_leaf_words (symbol : Symbol) (entries : List (String × α)) :
    (leaf symbol (oneOf (entries.map Prod.fst))).Mirrors
      (Named symbol fun tree value => (String.ofList tree.text, value) ∈ entries)
      (named (firstOf (entries.map fun entry => word entry.1 entry.2))) := by
  have hwords : ∀ entries : List (String × α),
      (oneOf (entries.map Prod.fst)).Mirrors (fun _ _ => True)
          (firstOf (entries.map fun entry => word entry.1 entry.2)) ∧
        (firstOf (entries.map fun entry => word entry.1 entry.2)).Spells
          fun text value => (String.ofList text, value) ∈ entries := by
    intro entries
    induction entries with
    | nil => exact ⟨mirrors_fail, spells_fail⟩
    | cons entry entries ih =>
      refine ⟨((mirrors_word _ _).mono fun _ _ _ => trivial).choice ih.1,
        (spells_word.mono ?_).choice (ih.2.mono fun _ _ => List.mem_cons_of_mem _)⟩
      rintro _ _ ⟨rfl, rfl⟩
      rw [String.ofList_toList]
      exact List.mem_cons_self
  refine (mirrors_leaf symbol (hwords entries).1 (hwords entries).2).mono ?_
  rintro _ _ ⟨tree, rfl, hsymbol, -, hmem⟩
  exact ⟨tree, rfl, hsymbol, hmem⟩

/-- Repeated parts of which each is a single tree. -/
theorem Each.of_named {symbol : Symbol} {R : Tree → α → Prop} {trees : List Tree}
    {values : List α} (h : Each (Named symbol R) trees values) :
    List.Forall₂ (fun tree value => tree.symbol = symbol ∧ R tree value) trees values := by
  obtain ⟨rows, rfl, hrows⟩ := h
  induction hrows with
  | nil => exact .nil
  | cons hfirst _ ih =>
    obtain ⟨tree, rfl, htree⟩ := hfirst
    exact .cons htree ih

end Rules

end Timetable.Grammar.Tree
