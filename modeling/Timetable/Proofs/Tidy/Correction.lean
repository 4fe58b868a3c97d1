import Mathlib.Data.List.Chain
import Timetable.Tidy.Correction

/-!
What a pass over a text keeps.

`Scan` says how a pass goes on from a place: it keeps a character, or it replaces some of them and
goes on behind. By induction on it, whatever each single replacement keeps is kept by the pass.
Where no replacement takes characters away, a pass that changes nothing has found nothing
(`correct_eq_self_iff`). Passes that are repeated come to an end if each of them leaves more
characters of some class, while the length stays the same (`correct_correctUntilStable`).
-/

namespace Timetable.Tidy

/-- A replacement stands for some characters at the place. -/
def Replaces (correction : Correction) : Prop :=
  ∀ before text new rest, correction before text = some (new, rest) →
    ∃ old, old ≠ [] ∧ text = old ++ rest

/-- How a pass goes on from a place, given the character before it. -/
inductive Scan (correction : Correction) : Option Char → List Char → List Char → Prop where
  | nil {before : Option Char} : Scan correction before [] []
  | keep {before : Option Char} {c : Char} {rest out : List Char} :
      correction before (c :: rest) = none → Scan correction (some c) rest out →
      Scan correction before (c :: rest) (c :: out)
  | replace {before : Option Char} {old new rest out : List Char} : old ≠ [] →
      correction before (old ++ rest) = some (new, rest) →
      Scan correction old.getLast? rest out → Scan correction before (old ++ rest) (new ++ out)

variable {correction : Correction} {before : Option Char} {text out : List Char}

/-- The last character of a text, or else the one before it. -/
theorem getLast?_append_or {old : List Char} (hne : old ≠ []) (front : List Char)
    (before : Option Char) :
    (old ++ front).getLast?.or before = front.getLast?.or old.getLast? := by
  rw [List.getLast?_append, Option.or_assoc, List.getLast?_eq_some_getLast hne]
  rfl

/-- The characters that a replacement stands for are skipped. -/
theorem correctFrom_skip (correction : Correction) (before : Option Char)
    (skipped rest : List Char) :
    correctFrom correction skipped.length before (skipped ++ rest) =
      correctFrom correction 0 (skipped.getLast?.or before) rest := by
  induction skipped generalizing before with
  | nil => rfl
  | cons c skipped ih =>
    rw [List.length_cons, List.cons_append, correctFrom, ih]
    cases skipped with
    | nil => rfl
    | cons d skipped => simp [List.getLast?_cons]

theorem correctFrom_of_some {old new rest : List Char} (hne : old ≠ [])
    (h : correction before (old ++ rest) = some (new, rest)) :
    correctFrom correction 0 before (old ++ rest) =
      new ++ correctFrom correction 0 old.getLast? rest := by
  cases old with
  | nil => exact absurd rfl hne
  | cons c old =>
    rw [List.cons_append] at h ⊢
    simp only [correctFrom, h, List.length_append, Nat.add_sub_cancel, correctFrom_skip]
    cases old <;> simp [List.getLast?_cons]

theorem correctFrom_of_none {c : Char} {rest : List Char}
    (h : correction before (c :: rest) = none) :
    correctFrom correction 0 before (c :: rest) = c :: correctFrom correction 0 (some c) rest := by
  simp only [correctFrom, h]

theorem scan_correctFrom (hreplaces : Replaces correction) (before : Option Char)
    (text : List Char) : Scan correction before text (correctFrom correction 0 before text) := by
  induction hlength : text.length using Nat.strongRecOn generalizing before text with
  | ind length ih =>
    cases text with
    | nil => exact .nil
    | cons c rest =>
      cases h : correction before (c :: rest) with
      | none =>
        rw [correctFrom_of_none h]
        exact .keep h (ih rest.length (by simp [← hlength]) _ _ rfl)
      | some result =>
        obtain ⟨new, remaining⟩ := result
        obtain ⟨old, hne, htext⟩ := hreplaces _ _ _ _ h
        rw [htext] at h ⊢
        rw [correctFrom_of_some hne h]
        refine .replace hne h (ih remaining.length ?_ _ _ rfl)
        have := List.length_pos_iff.2 hne
        rw [← hlength, htext, List.length_append]
        omega

theorem scan_correct (hreplaces : Replaces correction) (text : List Char) :
    Scan correction none text (correct correction text) :=
  scan_correctFrom hreplaces none text

/-! ### What each replacement keeps -/

section Keeps

variable {P : List Char → Prop}

theorem Scan.keeps (h : Scan correction before text out)
    (hstep : ∀ before front old new rest, correction before (old ++ rest) = some (new, rest) →
      P (front ++ (old ++ rest)) → P (front ++ (new ++ rest))) :
    ∀ front, P (front ++ text) → P (front ++ out) := by
  induction h with
  | nil => exact fun _ hP => hP
  | @keep _ c _ _ _ _ ih =>
    intro front hP
    rw [List.append_cons] at hP ⊢
    exact ih (front ++ [c]) hP
  | @replace _ old new _ _ _ hsome _ ih =>
    intro front hP
    have hnew := hstep _ front _ _ _ hsome hP
    rw [← List.append_assoc] at hnew ⊢
    exact ih (front ++ new) hnew

/-- Where a replacement ends in the character that it took away, the character before a place is
the last one that was written. -/
theorem Scan.keeps_behind (h : Scan correction before text out)
    (hlast : ∀ before old new rest, correction before (old ++ rest) = some (new, rest) →
      new.getLast? = old.getLast?)
    (hstep : ∀ front old new rest, correction front.getLast? (old ++ rest) = some (new, rest) →
      P (front ++ (old ++ rest)) → P (front ++ (new ++ rest))) :
    ∀ front : List Char, front.getLast? = before → P (front ++ text) → P (front ++ out) := by
  induction h with
  | nil => exact fun _ _ hP => hP
  | @keep _ c _ _ _ _ ih =>
    intro front _ hP
    rw [List.append_cons] at hP ⊢
    exact ih (front ++ [c]) List.getLast?_concat hP
  | @replace _ old new _ _ hne hsome _ ih =>
    rintro front rfl hP
    have hnew := hstep front _ _ _ hsome hP
    rw [← List.append_assoc] at hnew ⊢
    refine ih (front ++ new) ?_ hnew
    rw [List.getLast?_append, hlast _ _ _ _ hsome]
    cases hold : old.getLast? with
    | none => exact absurd (List.getLast?_eq_none_iff.1 hold) hne
    | some c => rfl

theorem keeps_correct (hreplaces : Replaces correction)
    (hstep : ∀ before front old new rest, correction before (old ++ rest) = some (new, rest) →
      P (front ++ (old ++ rest)) → P (front ++ (new ++ rest))) (h : P text) :
    P (correct correction text) :=
  (scan_correct hreplaces text).keeps hstep [] h

theorem keeps_correctTimes (hstep : ∀ text, P text → P (correct correction text)) (h : P text)
    (count : Nat) : P (correctTimes correction count text) := by
  induction count generalizing text with
  | zero => exact h
  | succ count ih =>
    unfold correctTimes
    dsimp only
    split
    · exact h
    · exact ih (hstep text h)

end Keeps

/-! ### Neighbours -/

section Neighbours

variable {Q : Char → Char → Prop}

/-- A text in which any two neighbours agree stays so if a part of it is replaced by one whose ends
agree with everything. -/
theorem isChain_replace {front old new rest : List Char} (hne : new ≠ []) (hnew : new.IsChain Q)
    (hhead : ∀ c ∈ new.head?, ∀ d, Q d c) (hlast : ∀ c ∈ new.getLast?, ∀ d, Q c d)
    (h : (front ++ (old ++ rest)).IsChain Q) : (front ++ (new ++ rest)).IsChain Q := by
  obtain ⟨hfront, hback, -⟩ := List.isChain_append.1 h
  obtain ⟨-, hrest, -⟩ := List.isChain_append.1 hback
  refine List.isChain_append.2 ⟨hfront, List.isChain_append.2 ⟨hnew, hrest, ?_⟩, ?_⟩
  · exact fun c hc d _ => hlast c hc d
  · intro d _ c hc
    rw [List.head?_append_of_ne_nil _ hne] at hc
    exact hhead c hc d

end Neighbours

/-! ### Characters one by one -/

/-- Where each replacement has a character for each one that it took away, so has the whole. -/
theorem Scan.forall₂ {R : Char → Char → Prop} (h : Scan correction before text out)
    (hrefl : ∀ c, R c c)
    (hstep : ∀ before old new rest, correction before (old ++ rest) = some (new, rest) →
      List.Forall₂ R old new) : List.Forall₂ R text out := by
  induction h with
  | nil => exact .nil
  | keep _ _ ih => exact .cons (hrefl _) ih
  | replace _ hsome _ ih => exact List.rel_append (hstep _ _ _ _ hsome) ih

/-- Where each replacement has more characters of a class, a text has more of them as well, unless
nothing was replaced. -/
theorem Scan.countP_lt_or_eq {p : Char → Bool} (h : Scan correction before text out)
    (hstep : ∀ before old new rest, correction before (old ++ rest) = some (new, rest) →
      old.countP p < new.countP p) : out = text ∨ text.countP p < out.countP p := by
  induction h with
  | nil => exact .inl rfl
  | keep _ _ ih =>
    rcases ih with rfl | hlt
    · exact .inl rfl
    · rw [List.countP_cons, List.countP_cons]
      exact .inr (by omega)
  | replace _ hsome _ ih =>
    have hlt := hstep _ _ _ _ hsome
    rw [List.countP_append, List.countP_append]
    rcases ih with rfl | hlt'
    · exact .inr (by omega)
    · exact .inr (by omega)

/-! ### Texts that stay as they are -/

/-- A text stays as it is if each replacement in it is the text that it replaces. -/
theorem Scan.eq_self (h : Scan correction before text out)
    (hsame : ∀ front back new rest, text = front ++ back →
      correction (front.getLast?.or before) back = some (new, rest) → new ++ rest = back) :
    out = text := by
  induction h with
  | nil => rfl
  | @keep _ c _ _ _ _ ih =>
    rw [ih fun front back new rest heq hsome =>
      hsame (c :: front) back new rest (congrArg (c :: ·) heq)
        (by rwa [← List.singleton_append, getLast?_append_or (List.cons_ne_nil c [])])]
  | @replace _ old new _ _ hne hsome _ ih =>
    have hnew := List.append_cancel_right (hsame [] _ _ _ rfl hsome)
    rw [hnew, ih fun front back new rest heq hsome' =>
      hsame (old ++ front) back new rest (by rw [heq, List.append_assoc])
        (by rwa [getLast?_append_or hne])]

theorem correct_eq_self_of_same (hreplaces : Replaces correction)
    (hsame : ∀ front back new rest, text = front ++ back →
      correction front.getLast? back = some (new, rest) → new ++ rest = back) :
    correct correction text = text :=
  (scan_correct hreplaces text).eq_self fun front back new rest heq hsome =>
    hsame front back new rest heq (by rwa [Option.or_none] at hsome)

/-- A replacement is not shorter than what it stands for, and differs from it. -/
def Grows (correction : Correction) : Prop :=
  ∀ before old new rest, correction before (old ++ rest) = some (new, rest) →
    old.length ≤ new.length ∧ new ≠ old

theorem Scan.length_le (h : Scan correction before text out) (hgrows : Grows correction) :
    text.length ≤ out.length := by
  induction h with
  | nil => exact Nat.le_refl _
  | keep _ _ ih => exact Nat.succ_le_succ ih
  | replace _ hsome _ ih =>
    have hle := (hgrows _ _ _ _ hsome).1
    rw [List.length_append, List.length_append]
    omega

/-- A pass that leaves a text as it is has found nothing to replace. -/
theorem Scan.eq_none (h : Scan correction before text out) (hgrows : Grows correction)
    (heq : out = text) : ∀ front c back, text = front ++ c :: back →
      correction (front.getLast?.or before) (c :: back) = none := by
  induction h with
  | nil =>
    intro front c back htext
    cases front <;> cases htext
  | @keep _ c _ _ hnone _ ih =>
    intro front d back htext
    cases front with
    | nil =>
      obtain ⟨rfl, rfl⟩ := List.cons.inj htext
      exact hnone
    | cons e front =>
      obtain ⟨rfl, hrest⟩ := List.cons.inj htext
      rw [← List.singleton_append, getLast?_append_or (List.cons_ne_nil c [])]
      exact ih (List.cons.inj heq).2 front d back hrest
  | replace _ hsome hscan _ =>
    obtain ⟨hle, hne⟩ := hgrows _ _ _ _ hsome
    have hrest := hscan.length_le hgrows
    have hlength := congrArg List.length heq
    rw [List.length_append, List.length_append] at hlength
    exact absurd (List.append_inj heq (by omega)).1 hne

/-- Where replacements are not shorter than what they stand for and differ from it, a text stays as
it is just if there is nothing to replace at any place. -/
theorem correct_eq_self_iff (hreplaces : Replaces correction) (hgrows : Grows correction) :
    correct correction text = text ↔
      ∀ front back, text = front ++ back → correction front.getLast? back = none := by
  constructor
  · intro heq front back htext
    cases back with
    | nil =>
      refine Option.eq_none_iff_forall_not_mem.2 fun result hsome => ?_
      obtain ⟨old, hne, hold⟩ := hreplaces _ _ _ _ hsome
      exact hne (List.append_eq_nil_iff.1 hold.symm).1
    | cons c back =>
      have hnone := (scan_correct hreplaces text).eq_none hgrows heq front c back htext
      rwa [Option.or_none] at hnone
  · intro hnone
    refine correct_eq_self_of_same hreplaces fun front back new rest htext hsome => ?_
    rw [hnone front back htext] at hsome
    cases hsome

/-! ### Passes that are repeated -/

theorem correctTimes_eq_self (h : correct correction text = text) (count : Nat) :
    correctTimes correction count text = text := by
  cases count with
  | zero => rfl
  | succ count => exact if_pos h

theorem correctUntilStable_eq_self (h : correct correction text = text) :
    correctUntilStable correction text = text :=
  correctTimes_eq_self h _

/-- Rounds that change a text leave more and more characters of a class, so that there is a round
that changes nothing. -/
theorem correct_correctTimes {p : Char → Bool}
    (hlength : ∀ text, (correct correction text).length = text.length)
    (hcount : ∀ text, correct correction text = text ∨
      text.countP p < (correct correction text).countP p) {count : Nat}
    (h : text.length ≤ count + text.countP p) :
    correct correction (correctTimes correction count text) =
      correctTimes correction count text := by
  induction count generalizing text with
  | zero =>
    refine (hcount text).resolve_right fun hlt => ?_
    have hle := (correct correction text).countP_le_length (p := p)
    rw [hlength] at hle
    omega
  | succ count ih =>
    unfold correctTimes
    dsimp only
    split
    · assumption
    · rename_i hne
      have hlt := (hcount text).resolve_left hne
      refine ih ?_
      rw [hlength]
      omega

theorem correct_correctUntilStable {p : Char → Bool}
    (hlength : ∀ text, (correct correction text).length = text.length)
    (hcount : ∀ text, correct correction text = text ∨
      text.countP p < (correct correction text).countP p) (text : List Char) :
    correct correction (correctUntilStable correction text) = correctUntilStable correction text :=
  correct_correctTimes hlength hcount (Nat.le_add_right _ _)

end Timetable.Tidy
