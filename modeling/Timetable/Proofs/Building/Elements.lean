import Timetable.Proofs.Building.Basic
import Timetable.Proofs.Grammar.Branches
import Timetable.Proofs.Reading.Years

/-!
What is built from a tree is what the form means: numbers, names and lists.

The trees of a part mirror its forms, and `Builds` says for each tree that its builder comes to the
meaning of its form, or to the error that the meaning is refused with. A builder that does so has no
assumption left that could be broken, as `refusing` never gives one.
-/

namespace Timetable.Grammar

variable {α β : Type}

open Peg

/-- A refusal, among the faults. -/
def refusing (outcome : Except ReadError α) : Except Fault α := outcome.mapError .refused

@[simp] theorem refusing_ok (value : α) : refusing (.ok value) = .ok value := rfl

@[simp] theorem refusing_pure (value : α) : refusing (pure value) = .ok value := rfl

@[simp] theorem refusing_error (error : ReadError) :
    refusing (.error error : Except ReadError α) = .error (.refused error) := rfl

/-- A refusal breaks no assumption. -/
theorem refusing_ne_broken (outcome : Except ReadError α) (assertion : Assertion) :
    refusing outcome ≠ .error (.broken assertion) := by
  cases outcome <;> nofun

theorem refusing_bind (first : Except ReadError α) (next : α → Except ReadError β) :
    refusing (first >>= next) = refusing first >>= fun value => refusing (next value) := by
  cases first <;> rfl

/-- What is built from the tree is the meaning of the form. -/
def Builds (build : Tree → Except Fault β) (meaning : α → Except ReadError β) (tree : Tree)
    (form : α) : Prop :=
  build tree = refusing (meaning form)

theorem Builds.out {build : Tree → Except Fault β} {meaning : α → Except ReadError β} {tree : Tree}
    {form : α} (h : Builds build meaning tree form) : build tree = refusing (meaning form) := h

/-- If each part of a list is built as its meaning, so is the list. -/
theorem mapM_eq_refusing {build : Tree → Except Fault β} {meaning : α → Except ReadError β}
    {trees : List Tree} {forms : List α}
    (h : List.Forall₂ (Builds build meaning) trees forms) :
    trees.mapM build = refusing (forms.mapM meaning) := by
  induction h with
  | nil => rfl
  | cons hfirst _ ih =>
    rw [List.mapM_cons, List.mapM_cons, hfirst, ih, refusing_bind]
    congr 1
    funext value
    rw [refusing_bind]
    rfl

open Peg

/-! ### Numbers -/

/-- A row of a few digits, at least one. -/
def DigitRow (most : Nat) (row : List Char) : Prop :=
  (∀ c ∈ row, c.isDigit = true) ∧ 1 ≤ row.length ∧ row.length ≤ most

/-- A row of digits is a number of so many bits just if its value is small enough. -/
theorem unsigned?_eq {row : List Char} (hdigits : ∀ c ∈ row, c.isDigit = true)
    (hleast : 1 ≤ row.length) (bits : Nat) : Build.unsigned? bits row =
      if Decimal.value row < 2 ^ bits then some (Decimal.value row) else none := by
  obtain ⟨c, row, rfl⟩ := List.exists_cons_of_length_pos hleast
  have hplus : (c :: row).head? ≠ some '+' := fun heq =>
    absurd (hdigits c List.mem_cons_self) (Option.some.inj heq ▸ by decide)
  have hall : (c :: row).all Char.isDigit = true := List.all_eq_true.2 hdigits
  rw [Build.unsigned?, if_neg hplus, hall]
  simp

/-- A few digits fit their bits. -/
theorem DigitRow.numeral_eq {most bits : Nat} {tree : Tree} (h : DigitRow most tree.text)
    (hbits : 10 ^ most ≤ 2 ^ bits) :
    Build.numeral bits tree = .ok (Decimal.value tree.text) := by
  have hlt : Decimal.value tree.text < 2 ^ bits := calc
    Decimal.value tree.text < 10 ^ tree.text.length := Decimal.value_lt h.1
    _ ≤ 10 ^ most := Nat.pow_le_pow_right (by decide) h.2.2
    _ ≤ 2 ^ bits := hbits
  rw [Build.numeral, unsigned?_eq h.1 h.2.1, if_pos hlt]

theorem spells_row {peg : Peg (List Char)} {P : List Char → Prop}
    (h : peg.Spells fun text row => text = row) (hrow : ∀ source, peg.Yields source P) :
    peg.Spells fun text row => text = row ∧ P row := by
  intro cursor row stop hresult
  obtain ⟨text, hrest, rfl⟩ := h cursor row stop hresult
  exact ⟨text, hrest, rfl, hrow cursor.rest cursor.offset text stop hresult⟩

theorem spells_digits (least most : Nat) (hleast : 1 ≤ least) :
    (digits least most).Spells fun text row => text = row ∧ DigitRow most row :=
  spells_row spells_chars fun _ => Yields.mono yields_chars fun _ h =>
    ⟨h.1, Nat.le_trans hleast h.2.1, h.2.2 most rfl⟩

/-- A part in which a row of a few digits is kept. -/
def Row (most : Nat) (tree : Tree) (row : List Char) : Prop :=
  tree.text = row ∧ DigitRow most row

theorem mirrors_digits (symbol : Symbol) {least most : Nat} (hleast : 1 ≤ least) :
    (Tree.leaf symbol (digits least most)).Mirrors (Tree.Named symbol (Row most))
      (named (digits least most)) :=
  Tree.mirrors_mono (Tree.mirrors_leaf_self symbol (spells_digits least most hleast))
    fun _ _ _ h => h.2

theorem mirrors_digits_notNext (symbol : Symbol) {least most : Nat} (hleast : 1 ≤ least)
    (forbids : Char → Bool) :
    (Tree.leaf symbol ((digits least most).followedBy (notNext forbids))).Mirrors
      (Tree.Named symbol (Row most)) (named ((digits least most).followedBy (notNext forbids))) :=
  Tree.mirrors_mono (Tree.mirrors_leaf_self symbol (spells_digits least most hleast).notNext)
    fun _ _ _ h => h.2

theorem expect_eq {tree : Tree} {symbol : Symbol} (h : tree.symbol = symbol) :
    Build.expect tree symbol = .ok () := if_pos h

/-- A year has four digits, so that it fits 16 bits. -/
theorem mirrors_year : Tree.year.Mirrors (Tree.Named .year fun tree row =>
    Build.year tree = .ok (Decimal.value row) ∧ Decimal.value row ≤ 9999) year := by
  refine Tree.mirrors_mono (mirrors_digits_notNext .year (by decide) _) ?_
  rintro tree _ hsymbol ⟨rfl, hrow⟩
  have hlt := Decimal.value_lt hrow.1
  have hle : 10 ^ tree.text.length ≤ 10 ^ 4 := Nat.pow_le_pow_right (by decide) hrow.2.2
  refine ⟨?_, by omega⟩
  rw [Build.year, expect_eq hsymbol, hrow.numeral_eq (by decide)]
  rfl

/-- Two digits fit eight bits; a week that no year has is refused. -/
theorem mirrors_weekNumber :
    Tree.weekNumber.Mirrors (Tree.Named .weekNumber (Builds Build.weekNumber interpretWeekNumber))
      weekNumber := by
  refine Tree.mirrors_mono (mirrors_digits_notNext .weekNumber (by decide) _) ?_
  rintro tree _ hsymbol ⟨rfl, hrow⟩
  rw [Builds, Build.weekNumber, expect_eq hsymbol, hrow.numeral_eq (by decide),
    interpretWeekNumber]
  simp only [ok_bind]
  split <;> rfl

/-- Two digits fit eight bits; a day that no month has is moved, not refused. -/
theorem mirrors_dayNumber : Tree.dayNumber.Mirrors (Tree.Named .dayNumber fun tree row =>
    tree.text = row ∧ Build.dayNumber tree = .ok (interpretDayNumber row)) dayNumber := by
  refine Tree.mirrors_mono (mirrors_digits_notNext .dayNumber (by decide) _) ?_
  rintro tree _ hsymbol ⟨rfl, hrow⟩
  refine ⟨rfl, ?_⟩
  rw [Build.dayNumber, expect_eq hsymbol, hrow.numeral_eq (by decide), interpretDayNumber]
  simp only [ok_bind]
  refine congrArg Except.ok ?_
  generalize Decimal.value tree.text = day
  split
  · omega
  · split <;> omega

/-- A number of any length, which may be refused. -/
def IsNumber (tree : Tree) (row : List Char) : Prop :=
  Build.number tree =
    if UInt64.size ≤ Decimal.value row then
      .error (.refused (.overflow (String.ofList row) .number))
    else .ok (Decimal.value row)

theorem IsNumber.out {tree : Tree} {row : List Char} (h : IsNumber tree row) :
    Build.number tree =
      if UInt64.size ≤ Decimal.value row then
        .error (.refused (.overflow (String.ofList row) .number))
      else .ok (Decimal.value row) := h

/-- A number of any length that does not fit 64 bits is refused; it breaks no assumption. -/
theorem mirrors_number : Tree.number.Mirrors (Tree.Named .number IsNumber) number := by
  have hspells : (chars Char.isDigit 1 none).Spells fun text row =>
      text = row ∧ (∀ c ∈ row, c.isDigit = true) ∧ 1 ≤ row.length :=
    spells_row spells_chars fun _ => Yields.mono yields_chars fun _ h => ⟨h.1, h.2.1⟩
  refine Tree.mirrors_mono (Tree.mirrors_leaf_self .number hspells) ?_
  rintro tree _ hsymbol ⟨-, rfl, hdigits, hleast⟩
  rw [IsNumber, Build.number, expect_eq hsymbol, unsigned?_eq hdigits hleast,
    show UInt64.size = 2 ^ 64 from rfl]
  by_cases hlt : Decimal.value tree.text < 2 ^ 64
  · rw [if_pos hlt, if_neg (Nat.not_le.2 hlt)]
    rfl
  · rw [if_neg hlt, if_pos (Nat.not_lt.1 hlt)]
    rfl

/-- The step of a range; a number that is too large for it is refused in one way or another. -/
theorem step_eq {bits greatest : Nat} (hbits : 2 ^ bits = greatest + 1) (hgreatest : 1 ≤ greatest)
    (limit : Limit) {trees : List Tree} {row? : Option (List Char)}
    (h : Tree.Maybe (Tree.Named .number IsNumber) trees row?) :
    (Build.number? trees >>= Build.step bits limit) =
      refusing (interpretStep row? greatest limit) := by
  cases row? with
  | none =>
    obtain rfl : trees = [] := h
    change Build.step bits limit none = _
    rw [Build.step, hbits, Option.getD_none, if_pos (by omega)]
    rfl
  | some row =>
    obtain ⟨tree, rfl, -, hnumber⟩ := h
    simp only [Build.number?, hnumber.out, interpretStep]
    generalize Decimal.value row = value
    by_cases hwide : UInt64.size ≤ value
    · rw [if_pos hwide, if_pos hwide]
      rfl
    · rw [if_neg hwide, if_neg hwide]
      simp only [ok_bind, pure_bind]
      rw [Build.step, hbits, Option.getD_some]
      by_cases hfits : 1 ≤ value ∧ value ≤ greatest
      · rw [if_pos hfits, if_pos (by omega)]
        rfl
      · rw [if_neg hfits, if_neg (by omega)]
        rfl

/-- The same in the middle of a range. -/
theorem step_bind_eq {bits greatest : Nat} (hbits : 2 ^ bits = greatest + 1)
    (hgreatest : 1 ≤ greatest) (limit : Limit) {trees : List Tree} {row? : Option (List Char)}
    (h : Tree.Maybe (Tree.Named .number IsNumber) trees row?) (next : Nat → Except Fault β) :
    (do next (← Build.step bits limit (← Build.number? trees))) =
      refusing (interpretStep row? greatest limit) >>= next := by
  rw [← step_eq hbits hgreatest limit h, bind_assoc]

/-- Only names are read as months that the months have. -/
theorem mirrors_month :
    Tree.month.Mirrors (Tree.Named .month fun tree name => Build.month tree = .ok name) month := by
  refine Tree.mirrors_mono (Tree.mirrors_leaf_words .month
    [("Jan", Month.january), ("Feb", .february), ("Mar", .march), ("Apr", .april), ("May", .may),
      ("Jun", .june), ("Jul", .july), ("Aug", .august), ("Sep", .september), ("Oct", .october),
      ("Nov", .november), ("Dec", .december)]) ?_
  intro tree name hsymbol hmem
  have hname : String.ofList tree.text = name.abbreviation := by
    simp only [List.mem_cons, Prod.mk.injEq, List.not_mem_nil, or_false] at hmem
    rcases hmem with h | h | h | h | h | h | h | h | h | h | h | h <;>
      exact h.1.trans (h.2 ▸ rfl)
  rw [Build.month, expect_eq hsymbol, hname, Month.ofAbbreviation?_abbreviation]
  rfl

theorem mirrors_weekday :
    Tree.weekday.Mirrors (Tree.Named .weekday fun tree day => Build.weekday tree = .ok day)
      weekday := by
  refine Tree.mirrors_mono (Tree.mirrors_leaf_words .weekday
    [("Mo", Weekday.monday), ("Tu", .tuesday), ("We", .wednesday), ("Th", .thursday),
      ("Fr", .friday), ("Sa", .saturday), ("Su", .sunday)]) ?_
  intro tree day hsymbol hmem
  have hname : String.ofList tree.text = day.abbreviation := by
    simp only [List.mem_cons, Prod.mk.injEq, List.not_mem_nil, or_false] at hmem
    rcases hmem with h | h | h | h | h | h | h <;> exact h.1.trans (h.2 ▸ rfl)
  rw [Build.weekday, expect_eq hsymbol, hname, Weekday.ofAbbreviation?_abbreviation]
  rfl

theorem mirrors_sign : Tree.sign.Mirrors (Tree.Named .sign fun tree later =>
    Build.sign tree = .ok (if later then 1 else -1)) sign := by
  have hinner : (choice (token ['+']) (token ['-'])).Mirrors (fun _ _ => True)
      (choice (word "+" true) (word "-" false)) :=
    Mirrors.choice ((Tree.mirrors_word "+" _).mono fun _ _ _ => trivial)
      ((Tree.mirrors_word "-" _).mono fun _ _ _ => trivial)
  have hspells : (choice (word "+" true) (word "-" false)).Spells fun text later =>
      text = if later then ['+'] else ['-'] := by
    refine (spells_word.mono ?_).choice (spells_word.mono ?_) <;> rintro _ _ ⟨rfl, rfl⟩ <;> rfl
  refine Tree.mirrors_mono (Tree.mirrors_leaf .sign hinner hspells) ?_
  rintro tree later hsymbol ⟨-, htext⟩
  rw [Build.sign, expect_eq hsymbol, htext]
  cases later <;> rfl

/-! ### Lists -/

/-- A list of parts, each of which is built as its meaning. -/
theorem mirrors_list {symbol symbol' : Symbol} {trees : Peg (List Tree)} {peg : Peg (List α)}
    {item : Tree → Except Fault β} {meaning : α → Except ReadError β}
    (h : trees.Mirrors (Tree.Each (Tree.Named symbol' (Builds item meaning))) peg) :
    (Tree.branch symbol trees).Mirrors
      (Tree.Named symbol (Builds (Build.listOf symbol item) fun forms => forms.mapM meaning))
        (named peg) := by
  refine Tree.mirrors_mono (Tree.mirrors_branch symbol h) fun tree forms hsymbol hparts => ?_
  have hitems := hparts.of_named.imp fun _ _ hitem => hitem.2
  rw [Builds, Build.listOf, expect_eq hsymbol, ok_bind]
  exact mapM_eq_refusing hitems

end Timetable.Grammar
