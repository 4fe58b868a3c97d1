import Timetable.Proofs.Tidy.Characters

/-!
What recognisers recognise.

A clock time, an event and a parenthesis each have a shape: a list of marks, of which each stands
for some characters. No character has two marks, so that a text has at most one shape, and of two
texts with a shape, at the beginning or at the end of the same text, the shorter one has a shape
that the shape of the longer one begins or ends with. As there are few shapes, it is decided that
they do not do so.
-/

namespace Timetable.Tidy

/-! ### Shapes -/

/-- What stands for a character. -/
inductive Mark where
  | digit
  /-- A small letter, for any of its cases. -/
  | letter (letter : Char)
  | sign (sign : Char)
  deriving DecidableEq

namespace Mark

/-- Whether a mark stands for a character. -/
def accepts : Mark → Char → Bool
  | digit, c => isDecimalDigit c
  | letter l, c => foldsTo l c
  | sign s, c => c == s

/-- Whether a mark is one of those that clock times and events are made of. -/
def isProper : Mark → Bool
  | digit => true
  | letter l => isSmallLetter l
  | sign s => s == ':' || s == '(' || s == ')'

theorem sign_cases {s : Char} (h : (sign s).isProper = true) : s = ':' ∨ s = '(' ∨ s = ')' := by
  simpa only [isProper, Bool.or_eq_true, beq_iff_eq, or_assoc] using h

/-- No character has two marks. -/
theorem eq_of_accepts {mark mark' : Mark} {c : Char} (hmark : mark.isProper = true)
    (hmark' : mark'.isProper = true) (h : mark.accepts c = true) (h' : mark'.accepts c = true) :
    mark = mark' := by
  have hdigit : ∀ {l}, isSmallLetter l = true → foldsTo l c = true → isDecimalDigit c ≠ true := by
    intro l hl hc
    rw [isDecimalDigit, inRanges_eq_false_of_all_all (by decide) (inRanges_foldedRanges hl hc)]
    exact Bool.noConfusion
  have hsign : ∀ {s}, (sign s).isProper = true → (sign s).accepts c = true →
      isDecimalDigit c = false ∧ inRanges c.toNat foldedRanges = false := by
    intro s hs hc
    obtain rfl := beq_iff_eq.1 hc
    rcases sign_cases hs with rfl | rfl | rfl <;> decide
  match mark, mark' with
  | digit, digit => rfl
  | digit, letter _ => exact absurd h (hdigit hmark' h')
  | digit, sign _ => exact Bool.noConfusion (h.symm.trans (hsign hmark' h').1)
  | letter _, digit => exact absurd h' (hdigit hmark h)
  | letter _, letter _ => exact congrArg letter (eq_of_foldsTo hmark hmark' h h')
  | letter _, sign _ =>
    exact Bool.noConfusion ((inRanges_foldedRanges hmark h).symm.trans (hsign hmark' h').2)
  | sign _, digit => exact Bool.noConfusion (h'.symm.trans (hsign hmark h).1)
  | sign _, letter _ =>
    exact Bool.noConfusion ((inRanges_foldedRanges hmark' h').symm.trans (hsign hmark h).2)
  | sign _, sign _ => exact congrArg sign ((beq_iff_eq.1 h).symm.trans (beq_iff_eq.1 h'))

/-- The characters of clock times and events are none of those that stand between them. -/
theorem isSolid_of_accepts {mark : Mark} {c : Char} (hmark : mark.isProper = true)
    (h : mark.accepts c = true) : IsSolid c ∧ c ≠ '-' := by
  match mark with
  | digit =>
    exact ⟨isSolid_of_isDecimalDigit h, ne_of_class h (by decide)⟩
  | letter _ =>
    have hc := inRanges_foldedRanges hmark h
    have hne : ∀ d : Char, inRanges d.toNat foldedRanges = false → c ≠ d := by
      rintro _ hd rfl
      exact Bool.noConfusion (hc.symm.trans hd)
    exact ⟨⟨inRanges_eq_false_of_all_all (by decide) hc, hne _ (by decide), hne _ (by decide),
      hne _ (by decide)⟩, hne _ (by decide)⟩
  | sign _ =>
    obtain rfl := beq_iff_eq.1 h
    rcases sign_cases hmark with rfl | rfl | rfl <;> decide

end Mark

/-- A text has a character for each mark of a shape. -/
def Fits (shape : List Mark) (text : List Char) : Prop :=
  List.Forall₂ (fun mark c => mark.accepts c = true) shape text

section Fits

variable {shape shape' : List Mark} {text text' : List Char}

theorem Fits.length_eq (h : Fits shape text) : text.length = shape.length :=
  (List.Forall₂.length_eq h).symm

theorem fits_append : Fits (shape ++ shape') text ↔
    ∃ front back, Fits shape front ∧ Fits shape' back ∧ text = front ++ back := by
  constructor
  · intro h
    have htake := List.forall₂_take shape.length h
    have hdrop := List.forall₂_drop shape.length h
    rw [List.take_left] at htake
    rw [List.drop_left] at hdrop
    exact ⟨_, _, htake, hdrop, (List.take_append_drop _ _).symm⟩
  · rintro ⟨front, back, hfront, hback, rfl⟩
    exact List.rel_append hfront hback

theorem fits_singleton {mark : Mark} :
    Fits [mark] text ↔ ∃ c, mark.accepts c = true ∧ text = [c] := by
  constructor
  · rintro (_ | ⟨hc, _ | _⟩)
    exact ⟨_, hc, rfl⟩
  · rintro ⟨c, hc, rfl⟩
    exact .cons hc .nil

theorem fits_digits (count : Nat) :
    Fits (List.replicate count .digit) text ↔
      text.length = count ∧ ∀ c ∈ text, isDecimalDigit c = true := by
  induction count generalizing text with
  | zero =>
    simp only [Fits, List.replicate_zero, List.forall₂_nil_left_iff, List.length_eq_zero_iff]
    exact ⟨fun h => ⟨h, by simp [h]⟩, And.left⟩
  | succ count ih =>
    cases text with
    | nil => simp [Fits, List.replicate_succ]
    | cons c text =>
      simp only [Fits, List.replicate_succ, List.forall₂_cons] at ih ⊢
      rw [ih, List.length_cons, Nat.add_right_cancel_iff, List.forall_mem_cons]
      exact and_left_comm

/-- A text has at most one shape. -/
theorem Fits.unique (hshape : ∀ mark ∈ shape, mark.isProper = true)
    (hshape' : ∀ mark ∈ shape', mark.isProper = true) (h : Fits shape text)
    (h' : Fits shape' text) : shape = shape' := by
  induction h generalizing shape' with
  | nil =>
    cases h'
    rfl
  | cons hc _ ih =>
    obtain ⟨hmark, hrest⟩ := List.forall_mem_cons.1 hshape
    cases h' with
    | cons hc' hback =>
      obtain ⟨hmark', hrest'⟩ := List.forall_mem_cons.1 hshape'
      rw [Mark.eq_of_accepts hmark hmark' hc hc', ih hrest hrest' hback]

end Fits

theorem exists_of_mem_left {α β : Type} {R : α → β → Prop} {as : List α} {bs : List β}
    (h : List.Forall₂ R as bs) {a : α} (ha : a ∈ as) : ∃ b ∈ bs, R a b := by
  induction h with
  | nil => cases ha
  | cons hab _ ih =>
    rcases List.mem_cons.1 ha with rfl | ha
    · exact ⟨_, List.mem_cons_self, hab⟩
    · obtain ⟨b, hb, hab⟩ := ih ha
      exact ⟨b, List.mem_cons_of_mem _ hb, hab⟩

theorem eq_of_forall₂ {α : Type} {R : α → α → Prop} {as bs : List α} (h : List.Forall₂ R as bs)
    (hsame : ∀ a, ∀ b ∈ bs, R a b → a = b) : as = bs := by
  induction h with
  | nil => rfl
  | cons hab _ ih =>
    rw [hsame _ _ List.mem_cons_self hab,
      ih fun a b hb => hsame a b (List.mem_cons_of_mem _ hb)]

/-! ### Shapes of which none begins or ends with another one -/

/-- A text has one of the shapes. -/
def FitsAny (shapes : List (List Mark)) (text : List Char) : Prop :=
  ∃ shape ∈ shapes, Fits shape text

/-- No shape begins or ends with another one. -/
structure Apart (shapes : List (List Mark)) : Prop where
  nonempty : ∀ shape ∈ shapes, shape ≠ []
  proper : ∀ shape ∈ shapes, ∀ mark ∈ shape, mark.isProper = true
  prefixes : ∀ shape ∈ shapes, ∀ shape' ∈ shapes, shape <+: shape' → shape = shape'
  suffixes : ∀ shape ∈ shapes, ∀ shape' ∈ shapes, shape <:+ shape' → shape = shape'

namespace Apart

variable {shapes : List (List Mark)} {text text' rest rest' : List Char}

/-- A text with a shape that is the beginning of another one is the whole of it. -/
theorem eq_of_begins (h : Apart shapes) (htext : FitsAny shapes text)
    (htext' : FitsAny shapes text') (hbegins : text <+: text') : text = text' := by
  obtain ⟨shape, hmem, hfits⟩ := htext
  obtain ⟨shape', hmem', hfits'⟩ := htext'
  obtain ⟨rest, rfl⟩ := hbegins
  have htake : Fits (shape'.take text.length) text := by
    have := List.forall₂_take text.length hfits'
    rwa [List.take_left] at this
  have hshape := htake.unique
    (fun mark hmark => h.proper shape' hmem' mark (List.mem_of_mem_take hmark))
    (h.proper shape hmem) hfits
  obtain rfl := h.prefixes shape hmem shape' hmem' (hshape ▸ List.take_prefix _ _)
  have hlength := hfits.length_eq.trans hfits'.length_eq.symm
  exact List.prefix_append text rest |>.eq_of_length hlength

/-- A text with a shape that is the end of another one is the whole of it. -/
theorem eq_of_ends (h : Apart shapes) (htext : FitsAny shapes text)
    (htext' : FitsAny shapes text') (hends : text <:+ text') : text = text' := by
  obtain ⟨shape, hmem, hfits⟩ := htext
  obtain ⟨shape', hmem', hfits'⟩ := htext'
  obtain ⟨front, rfl⟩ := hends
  have hdrop : Fits (shape'.drop front.length) text := by
    have := List.forall₂_drop front.length hfits'
    rwa [List.drop_left] at this
  have hshape := hdrop.unique
    (fun mark hmark => h.proper shape' hmem' mark (List.mem_of_mem_drop hmark))
    (h.proper shape hmem) hfits
  obtain rfl := h.suffixes shape hmem shape' hmem' (hshape ▸ List.drop_suffix _ _)
  have hlength := hfits.length_eq.trans hfits'.length_eq.symm
  exact List.suffix_append front text |>.eq_of_length hlength

/-- What a text with a shape is followed by is determined by the whole. -/
theorem append_inj (h : Apart shapes) (htext : FitsAny shapes text)
    (htext' : FitsAny shapes text') (heq : text ++ rest = text' ++ rest') :
    text = text' ∧ rest = rest' := by
  have hsame : text = text' := by
    rcases List.prefix_or_prefix_of_prefix (List.prefix_append text rest)
      (heq ▸ List.prefix_append text' rest') with hbegins | hbegins
    · exact h.eq_of_begins htext htext' hbegins
    · exact (h.eq_of_begins htext' htext hbegins).symm
  subst hsame
  exact ⟨rfl, List.append_cancel_left heq⟩

theorem ne_nil (h : Apart shapes) (htext : FitsAny shapes text) : text ≠ [] := by
  obtain ⟨shape, hmem, hfits⟩ := htext
  rintro rfl
  cases hfits
  exact h.nonempty [] hmem rfl

theorem isSolid (h : Apart shapes) (htext : FitsAny shapes text) :
    ∀ c ∈ text, IsSolid c ∧ c ≠ '-' := by
  obtain ⟨shape, hmem, hfits⟩ := htext
  intro c hc
  obtain ⟨mark, hmark, haccepts⟩ := exists_of_mem_left hfits.flip hc
  exact Mark.isSolid_of_accepts (h.proper shape hmem mark hmark) haccepts

end Apart

/-! ### Recognisers -/

namespace Recogniser

variable {first second : Recogniser} {L M : List Char → Prop}

/-- A recogniser answers only with texts of a language and with what is left behind them. -/
def Sound (recogniser : Recogniser) (L : List Char → Prop) : Prop :=
  ∀ text part rest, recogniser text = some (part, rest) → L part ∧ text = part ++ rest

/-- A recogniser answers just where a text begins with one of a language. -/
def Exactly (recogniser : Recogniser) (L : List Char → Prop) : Prop :=
  ∀ text part rest, recogniser text = some (part, rest) ↔ L part ∧ text = part ++ rest

theorem Exactly.sound (h : first.Exactly L) : first.Sound L :=
  fun text part rest => (h text part rest).1

theorem Sound.mono (h : first.Sound L) (hwider : ∀ part, L part → M part) : first.Sound M :=
  fun text part rest hsome => (h text part rest hsome).imp_left (hwider part)

theorem Exactly.congr (h : first.Exactly L) (hiff : ∀ part, L part ↔ M part) : first.Exactly M :=
  fun text part rest => (h text part rest).trans (and_congr_left fun _ => hiff part)

theorem Exactly.of_append (h : first.Exactly L) {part : List Char} (hpart : L part)
    (rest : List Char) : first (part ++ rest) = some (part, rest) :=
  (h _ _ _).2 ⟨hpart, rfl⟩

theorem exactly_charOf (accepts : Char → Bool) :
    Exactly (charOf? accepts) fun part => ∃ c, accepts c = true ∧ part = [c] := by
  intro text part rest
  cases text with
  | nil =>
    refine iff_of_false nofun ?_
    rintro ⟨⟨_, -, rfl⟩, ⟨⟩⟩
  | cons c text =>
    change (if accepts c then some ([c], text) else none) = some (part, rest) ↔ _
    constructor
    · intro h
      split at h
      · rename_i hc
        obtain ⟨rfl, rfl⟩ := Prod.mk.inj (Option.some.inj h)
        exact ⟨⟨c, hc, rfl⟩, rfl⟩
      · cases h
    · rintro ⟨⟨d, hd, rfl⟩, heq⟩
      obtain ⟨rfl, rfl⟩ := List.cons.inj heq
      exact if_pos hd

theorem exactly_digits (count : Nat) :
    Exactly (digits? count) (Fits (List.replicate count .digit)) := by
  intro text part rest
  rw [fits_digits, digits?]
  constructor
  · intro h
    split at h
    · rename_i hdigits
      obtain ⟨rfl, rfl⟩ := Prod.mk.inj (Option.some.inj h)
      exact ⟨⟨hdigits.1, List.all_eq_true.1 hdigits.2⟩, (List.take_append_drop _ _).symm⟩
    · cases h
  · rintro ⟨⟨rfl, hdigits⟩, rfl⟩
    rw [List.take_left, List.drop_left]
    exact if_pos ⟨rfl, List.all_eq_true.2 hdigits⟩

theorem exactly_word (word : String) : Exactly (word? word) (· = word.toList) := by
  intro text part rest
  rw [word?]
  constructor
  · intro h
    split at h
    · rename_i hbegins
      obtain ⟨rfl, rfl⟩ := Prod.mk.inj (Option.some.inj h)
      obtain ⟨rest, rfl⟩ := List.isPrefixOf_iff_prefix.1 hbegins
      rw [← String.length_toList, List.drop_left]
      exact ⟨rfl, rfl⟩
    · cases h
  · rintro ⟨rfl, rfl⟩
    rw [if_pos (List.isPrefixOf_iff_prefix.2 (List.prefix_append _ _)), ← String.length_toList,
      List.drop_left]

theorem exactly_foldedWord (word : String) :
    Exactly (foldedWord? word) (Fits (word.toList.map .letter)) := by
  intro text part rest
  have hfits : ∀ front : List Char, Fits (word.toList.map .letter) front ↔
      front.length = word.length ∧
        (word.toList.zip front).all (fun pair => foldsTo pair.1 pair.2) = true := by
    intro front
    rw [Fits, List.forall₂_map_left_iff, List.forall₂_iff_zip, List.all_eq_true,
      String.length_toList]
    exact and_congr eq_comm ⟨fun h pair hmem => h hmem, fun h _ _ hmem => h _ hmem⟩
  rw [hfits, foldedWord?]
  constructor
  · intro h
    split at h
    · rename_i hfront
      obtain ⟨rfl, rfl⟩ := Prod.mk.inj (Option.some.inj h)
      exact ⟨hfront, (List.take_append_drop _ _).symm⟩
    · cases h
  · rintro ⟨hpart, rfl⟩
    rw [← hpart.1, List.take_left, List.drop_left]
    exact if_pos ⟨rfl, hpart.2⟩

theorem both_eq_some {text part rest : List Char} :
    both? first second text = some (part, rest) ↔
      ∃ x between y, first text = some (x, between) ∧ second between = some (y, rest) ∧
        part = x ++ y := by
  simp only [both?, Option.bind_eq_bind, Option.bind_eq_some_iff, Option.pure_def,
    Option.some.injEq, Prod.mk.injEq, Prod.exists]
  constructor
  · rintro ⟨x, between, hx, y, _, hy, rfl, rfl⟩
    exact ⟨x, between, y, hx, hy, rfl⟩
  · rintro ⟨x, between, y, hx, hy, rfl⟩
    exact ⟨x, between, hx, y, _, hy, rfl, rfl⟩

theorem Sound.both (h : first.Sound L) (h' : second.Sound M) :
    Sound (both? first second) fun part => ∃ x y, L x ∧ M y ∧ part = x ++ y := by
  intro text part rest hsome
  obtain ⟨x, between, y, hx, hy, rfl⟩ := both_eq_some.1 hsome
  obtain ⟨hL, rfl⟩ := h _ _ _ hx
  obtain ⟨hM, rfl⟩ := h' _ _ _ hy
  exact ⟨⟨x, y, hL, hM, rfl⟩, (List.append_assoc ..).symm⟩

theorem Exactly.both (h : first.Exactly L) (h' : second.Exactly M) :
    Exactly (both? first second) fun part => ∃ x y, L x ∧ M y ∧ part = x ++ y := by
  intro text part rest
  refine ⟨h.sound.both h'.sound text part rest, ?_⟩
  rintro ⟨⟨x, y, hx, hy, rfl⟩, rfl⟩
  rw [List.append_assoc]
  exact both_eq_some.2 ⟨x, y ++ rest, y, h.of_append hx _, h'.of_append hy _, rfl⟩

theorem sound_anyOf {recognisers : List Recogniser} (h : ∀ r ∈ recognisers, Sound r L) :
    Sound (anyOf? recognisers) L := by
  intro text part rest hsome
  obtain ⟨r, hmem, hr⟩ := List.exists_of_findSome?_eq_some hsome
  exact h r hmem text part rest hr

/-- Where a text begins with one text of some languages at most, it does not matter which of their
recognisers is tried first. -/
theorem exactly_anyOf {recognisers : List Recogniser} {languages : List (List Char → Prop)}
    (h : List.Forall₂ Exactly recognisers languages)
    (hone : ∀ {part part' rest rest'}, (∃ L ∈ languages, L part) → (∃ L ∈ languages, L part') →
      part ++ rest = part' ++ rest' → part = part') :
    Exactly (anyOf? recognisers) fun part => ∃ L ∈ languages, L part := by
  intro text part rest
  have hsound : Sound (anyOf? recognisers) fun part => ∃ L ∈ languages, L part := by
    refine sound_anyOf fun r hr => ?_
    obtain ⟨L, hmem, hexactly⟩ := exists_of_mem_left h hr
    exact hexactly.sound.mono fun _ hpart => ⟨L, hmem, hpart⟩
  refine ⟨hsound text part rest, ?_⟩
  rintro ⟨⟨L, hmem, hpart⟩, rfl⟩
  obtain ⟨r, hr, hexactly⟩ := exists_of_mem_left h.flip hmem
  have hsome : (anyOf? recognisers (part ++ rest)).isSome = true :=
    List.findSome?_isSome_iff.2 ⟨r, hr, by rw [Exactly.of_append hexactly hpart rest]; rfl⟩
  obtain ⟨⟨part', rest'⟩, hresult⟩ := Option.isSome_iff_exists.1 hsome
  obtain ⟨hpart', heq⟩ := hsound _ _ _ hresult
  obtain rfl := hone ⟨L, hmem, hpart⟩ hpart' heq
  obtain rfl := List.append_cancel_left heq
  exact hresult

/-- No text with one of the shapes begins with another one. -/
theorem exactly_anyShape {recognisers : List Recogniser} {shapes : List (List Mark)}
    (hshapes : Apart shapes)
    (h : List.Forall₂ (fun r shape => Exactly r (Fits shape)) recognisers shapes) :
    Exactly (anyOf? recognisers) (FitsAny shapes) := by
  have hany : ∀ part, (∃ L ∈ shapes.map Fits, L part) ↔ FitsAny shapes part := by
    simp [FitsAny]
  refine (exactly_anyOf (List.forall₂_map_right_iff.2 h) ?_).congr hany
  intro part part' rest rest' hpart hpart' heq
  exact (hshapes.append_inj ((hany part).1 hpart) ((hany part').1 hpart') heq).1

end Recogniser

end Timetable.Tidy
