import Mathlib.Data.List.Chain
import Timetable.Tidy.Pattern

/-!
How the classes of characters lie to each other.

Decimal digits and letters are word characters, blanks are none, and no letter is a digit. For the
classes of Unicode this is read off their tables; a letter is one of ASCII, so there are few.
-/

namespace Timetable

/-! ### Ranges -/

theorem inRanges_iff {code : Nat} {ranges : List (Nat × Nat)}
    (hsorted : ranges.IsChain fun a b => a.1 ≤ b.1) :
    inRanges code ranges = true ↔ ∃ range ∈ ranges, range.1 ≤ code ∧ code ≤ range.2 := by
  refine ⟨inRanges_sound, ?_⟩
  have hpairwise : ranges.Pairwise fun a b => a.1 ≤ b.1 := by
    let le : Nat × Nat → Nat × Nat → Prop := fun a b => a.1 ≤ b.1
    have : Trans le le le := ⟨Nat.le_trans⟩
    exact (List.isChain_iff_pairwise (R := le)).1 hsorted
  clear hsorted
  induction ranges with
  | nil => exact fun ⟨_, hmem, _⟩ => absurd hmem List.not_mem_nil
  | cons first ranges ih =>
    obtain ⟨hfirst, hrest⟩ := List.pairwise_cons.1 hpairwise
    rintro ⟨range, hmem, hle, hle'⟩
    simp only [inRanges, Bool.and_eq_true, Bool.or_eq_true, decide_eq_true_eq]
    rcases List.mem_cons.1 hmem with rfl | hmem
    · exact ⟨hle, .inl hle'⟩
    · exact ⟨Nat.le_trans (hfirst range hmem) hle, .inr (ih hrest ⟨range, hmem, hle, hle'⟩)⟩

/-- The ranges of a table that are left when the ranges of another one, in order, have each taken
those from its front that lie in them. -/
def leftBy (inner outer : List (Nat × Nat)) : List (Nat × Nat) :=
  outer.foldl (fun left b => left.dropWhile fun a => b.1 ≤ a.1 && a.2 ≤ b.2) inner

theorem exists_outer_of_leftBy {inner outer : List (Nat × Nat)} (h : leftBy inner outer = []) :
    ∀ a ∈ inner, ∃ b ∈ outer, b.1 ≤ a.1 ∧ a.2 ≤ b.2 := by
  induction outer generalizing inner with
  | nil =>
    rw [show inner = [] from h]
    exact fun _ hmem => absurd hmem List.not_mem_nil
  | cons b outer ih =>
    intro a ha
    rw [← List.takeWhile_append_dropWhile (p := fun a => b.1 ≤ a.1 && a.2 ≤ b.2) (l := inner)] at ha
    rcases List.mem_append.1 ha with htake | hdrop
    · have hin := List.all_eq_true.1 List.all_takeWhile a htake
      simp only [Bool.and_eq_true, decide_eq_true_eq] at hin
      exact ⟨b, List.mem_cons_self, hin⟩
    · obtain ⟨b', hmem, hin⟩ := ih h a hdrop
      exact ⟨b', List.mem_cons_of_mem _ hmem, hin⟩

theorem inRanges_of_leftBy {code : Nat} {inner outer : List (Nat × Nat)}
    (hsorted : outer.IsChain fun a b => a.1 ≤ b.1) (h : leftBy inner outer = [])
    (hcode : inRanges code inner = true) : inRanges code outer = true := by
  obtain ⟨a, ha, hle, hle'⟩ := inRanges_sound hcode
  obtain ⟨b, hb, hbounds⟩ := exists_outer_of_leftBy h a ha
  exact (inRanges_iff hsorted).2 ⟨b, hb, by omega, by omega⟩

/-- No range of the one table meets a range of the other one. -/
theorem inRanges_eq_false_of_all_all {code : Nat} {left right : List (Nat × Nat)}
    (h : (left.all fun a => right.all fun b => a.2 < b.1 || b.2 < a.1) = true)
    (hcode : inRanges code left = true) : inRanges code right = false := by
  refine Bool.eq_false_iff.2 fun hright => ?_
  obtain ⟨a, ha, hle, hle'⟩ := inRanges_sound hcode
  obtain ⟨b, hb, hle'', hle'''⟩ := inRanges_sound hright
  have hapart := List.all_eq_true.1 (List.all_eq_true.1 h a ha) b hb
  simp only [Bool.or_eq_true, decide_eq_true_eq] at hapart
  omega

/-! ### Digits, words and blanks -/

theorem sorted_wordRanges : wordRanges.IsChain fun a b => a.1 ≤ b.1 := by decide +kernel

variable {c d : Char}

theorem isWordChar_of_isDecimalDigit (h : isDecimalDigit c = true) : isWordChar c = true :=
  inRanges_of_leftBy sorted_wordRanges (by decide +kernel) h

theorem isWordChar_of_isBlank (h : isBlank c = true) : isWordChar c = false :=
  inRanges_eq_false_of_all_all (by decide +kernel) h

theorem isBlank_of_isWordChar (h : isWordChar c = true) : isBlank c = false := by
  refine Bool.eq_false_iff.2 fun hblank => ?_
  rw [isWordChar_of_isBlank hblank] at h
  cases h

theorem isBlank_of_isDecimalDigit (h : isDecimalDigit c = true) : isBlank c = false :=
  isBlank_of_isWordChar (isWordChar_of_isDecimalDigit h)

theorem ne_of_class {accepts : Char → Bool} (hc : accepts c = true) (hd : accepts d = false) :
    c ≠ d := by
  rintro rfl
  exact Bool.noConfusion (hc.symm.trans hd)

namespace Tidy

/-- Whether a character is none of those that stand between the parts of a text. -/
structure IsSolid (c : Char) : Prop where
  isBlank : isBlank c = false
  ne_comma : c ≠ ','
  ne_semicolon : c ≠ ';'
  ne_quote : c ≠ '"'

instance (c : Char) : Decidable (IsSolid c) :=
  decidable_of_iff (Timetable.isBlank c = false ∧ c ≠ ',' ∧ c ≠ ';' ∧ c ≠ '"')
    ⟨fun ⟨hblank, hcomma, hsemicolon, hquote⟩ => ⟨hblank, hcomma, hsemicolon, hquote⟩,
      fun h => ⟨h.isBlank, h.ne_comma, h.ne_semicolon, h.ne_quote⟩⟩

/-! ### Letters -/

/-- The code points of letters. -/
def letterRanges : List (Nat × Nat) := [(0x41, 0x5A), (0x61, 0x7A)]

theorem isLetter_eq_inRanges (c : Char) : isLetter c = inRanges c.toNat letterRanges := by
  have hiff : isLetter c = true ↔ inRanges c.toNat letterRanges = true := by
    rw [inRanges_iff (by decide)]
    simp only [isLetter, isSmallLetter, Bool.or_eq_true, Bool.and_eq_true, decide_eq_true_eq,
      letterRanges, List.mem_cons, List.not_mem_nil, or_false, exists_eq_or_imp, exists_eq_left]
    exact or_comm
  exact Bool.eq_iff_iff.2 hiff

theorem isWordChar_of_isLetter (h : isLetter c = true) : isWordChar c = true := by
  rw [isLetter_eq_inRanges] at h
  exact inRanges_of_leftBy sorted_wordRanges (by decide +kernel) h

theorem isDecimalDigit_of_isLetter (h : isLetter c = true) : isDecimalDigit c = false := by
  rw [isLetter_eq_inRanges] at h
  exact inRanges_eq_false_of_all_all (by decide) h

theorem isSolid_of_isDecimalDigit (h : isDecimalDigit c = true) : IsSolid c :=
  ⟨isBlank_of_isDecimalDigit h, ne_of_class h (by decide), ne_of_class h (by decide),
    ne_of_class h (by decide)⟩

theorem isSolid_of_isLetter (h : isLetter c = true) : IsSolid c :=
  ⟨isBlank_of_isWordChar (isWordChar_of_isLetter h), ne_of_class h (by decide),
    ne_of_class h (by decide), ne_of_class h (by decide)⟩

theorem isLetter_of_isSmallLetter_toLower (h : isSmallLetter c.toLower = true) :
    isLetter c = true := by
  unfold Char.toLower at h
  split at h
  · rename_i hcapital
    simp only [isLetter, Bool.or_eq_true, Bool.and_eq_true, decide_eq_true_eq]
    exact .inr hcapital
  · simp [isLetter, h]

/-- The code points of the cases of small letters: letters, the long s and the Kelvin sign. -/
def foldedRanges : List (Nat × Nat) := letterRanges ++ [(0x17F, 0x17F), (0x212A, 0x212A)]

theorem foldsTo_iff (h : isSmallLetter c = true) :
    foldsTo c d = true ↔
      isLetter d = true ∧ d.toLower = c ∨ c = 's' ∧ d = 'ſ' ∨ c = 'k' ∧ d.toNat = 0x212A := by
  simp only [foldsTo, Bool.or_eq_true, Bool.and_eq_true, beq_iff_eq, or_assoc]
  refine or_congr_left ⟨?_, And.right⟩
  rintro rfl
  exact ⟨isLetter_of_isSmallLetter_toLower h, rfl⟩

theorem inRanges_foldedRanges (hc : isSmallLetter c = true) (h : foldsTo c d = true) :
    inRanges d.toNat foldedRanges = true := by
  rw [inRanges_iff (by decide)]
  rcases (foldsTo_iff hc).1 h with ⟨hletter, -⟩ | ⟨-, rfl⟩ | ⟨-, hkelvin⟩
  · rw [isLetter_eq_inRanges] at hletter
    obtain ⟨range, hmem, hin⟩ := inRanges_sound hletter
    exact ⟨range, List.mem_append_left _ hmem, hin⟩
  · exact ⟨(0x17F, 0x17F), by decide, by decide⟩
  · exact ⟨(0x212A, 0x212A), by decide, by omega⟩

theorem foldsTo_iff_of_isLetter (hd : isLetter d = true) :
    foldsTo c d = true ↔ d.toLower = c := by
  have hlong : (d == 'ſ') = false := beq_eq_false_iff_ne.2 (ne_of_class hd (by decide))
  have hkelvin : (d.toNat == 0x212A) = false := by
    refine beq_eq_false_iff_ne.2 fun hcode => ?_
    rw [isLetter_eq_inRanges, hcode] at hd
    exact absurd hd (by decide)
  simp [foldsTo, hlong, hkelvin]

theorem foldsTo_eq_false (hc : isSmallLetter c = true)
    (hd : inRanges d.toNat foldedRanges = false) : foldsTo c d = false := by
  refine Bool.eq_false_iff.2 fun h => ?_
  rw [inRanges_foldedRanges hc h] at hd
  cases hd

/-- No character is a case of two small letters. -/
theorem eq_of_foldsTo {c' : Char} (hc : isSmallLetter c = true) (hc' : isSmallLetter c' = true)
    (h : foldsTo c d = true) (h' : foldsTo c' d = true) : c = c' := by
  rcases (foldsTo_iff hc).1 h with ⟨hletter, rfl⟩ | ⟨rfl, rfl⟩ | ⟨rfl, hd⟩
  · exact (foldsTo_iff_of_isLetter hletter).1 h'
  · rcases (foldsTo_iff hc').1 h' with ⟨hletter, -⟩ | ⟨rfl, -⟩ | ⟨-, hd⟩
    · exact absurd hletter (by decide)
    · rfl
    · exact absurd hd (by decide)
  · rcases (foldsTo_iff hc').1 h' with ⟨hletter, -⟩ | ⟨-, rfl⟩ | ⟨rfl, -⟩
    · rw [isLetter_eq_inRanges, hd] at hletter
      exact absurd hletter (by decide)
    · exact absurd hd (by decide)
    · rfl

/-- The letter for hours has two cases. -/
theorem isHourLetter_eq_of_isLetter (h : isLetter c = true) :
    isHourLetter c = (c.toLower == 'h') := by
  have hletters : ∀ code < 123, isLetter (Char.ofNat code) = true →
      isHourLetter (Char.ofNat code) = ((Char.ofNat code).toLower == 'h') := by decide +kernel
  have hcode : c.toNat < 123 := by
    rw [isLetter_eq_inRanges] at h
    obtain ⟨range, hmem, -, hle⟩ := inRanges_sound h
    have hbound : ∀ range ∈ letterRanges, range.2 < 123 := by decide
    exact Nat.lt_of_le_of_lt hle (hbound range hmem)
  have hself := hletters c.toNat hcode
  rw [Char.ofNat_toNat] at hself
  exact hself h

end Tidy

end Timetable
