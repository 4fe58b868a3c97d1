import Timetable.Proofs.Tidy.Idempotence
import Timetable.Proofs.Tidy.Written

/-!
Tidying rules that are joined by commas.

A text `Neatens` to another one if nothing is left to tidy in it but the spaces behind some commas:
each of its plain stretches becomes orderly once its commas are tightened. Words that are orderly do
(`neatens_plain`), and so do rules behind a comma and a space (`Neatens.comma`) and comments with a
rule before them (`Neatens.quoted`). Such texts with semicolons between them are tidied one by one
(`tidyChars_intercalate`).
-/

namespace Timetable

/-- Blanks are single spaces. -/
structure SingleSpaced (text : List Char) : Prop where
  space : ∀ c ∈ text, isBlank c = true → c = ' '
  single : text.IsChain fun c d => isBlank c = true → isBlank d = false

instance (text : List Char) : Decidable (SingleSpaced text) :=
  have : Decidable (∀ c ∈ text, isBlank c = true → c = ' ') := List.decidableBAll _ text
  decidable_of_iff (_ ∧ _) ⟨fun h => ⟨h.1, h.2⟩, fun h => ⟨h.space, h.single⟩⟩

namespace Tidy

open Grammar

variable {text text' front rest rest' body loose tight : List Char}

theorem spaced_iff {c d : Char} : Spaced c d ↔ (isBlank c = true → isBlank d = false) := by
  unfold Spaced
  cases isBlank c <;> simp

theorem singleSpaced_iff : SingleSpaced text ↔
    text.IsChain Spaced ∧ ∀ c ∈ text, isBlank c = true → c = ' ' :=
  ⟨fun h => ⟨h.single.imp fun _ _ => spaced_iff.2, h.space⟩,
    fun h => ⟨h.2, h.1.imp fun _ _ => spaced_iff.1⟩⟩

/-! ### Commas between rules -/

/-- What comes before a place does not matter. -/
theorem correctFrom_tightenComma (before : Option Char) (text : List Char) :
    correctFrom tightenComma 0 before text = correct tightenComma text := by
  cases text <;> rfl

/-- Before the first blank next to a comma, only commas are looked at. -/
theorem tightenComma_eq_none {before : Option Char} {c : Char} (hc : c ≠ ',')
    (hfront : (c :: front ++ [',']).IsChain Parted) (rest : List Char) :
    tightenComma before (c :: front ++ ',' :: rest) = none := by
  refine Option.eq_none_iff_forall_not_mem.2 fun ⟨new, behind⟩ hsome => ?_
  obtain ⟨-, left, right, hleft, -, heq, -⟩ := tightenComma_eq_some_iff.1 hsome
  have hcomma : ',' ∉ left := fun hmem => absurd (hleft ',' hmem) (by decide)
  have hprefix : left ++ [','] <+: c :: front ++ [','] := by
    rcases append_cons_cases hcomma heq.symm with rfl | ⟨between, hbetween, -⟩
    · exact List.prefix_rfl
    · rw [hbetween]
      exact ⟨between ++ [','], by simp⟩
  have hchain := List.IsChain.prefix hfront hprefix
  obtain ⟨-, -, hends⟩ := List.isChain_append.1 hchain
  rcases List.eq_nil_or_concat left with rfl | ⟨left, d, rfl⟩
  · exact hc (List.cons.inj heq).1
  · rw [List.concat_eq_append] at hleft hends
    exact (hends d List.getLast?_concat ',' rfl).1 ⟨hleft d (by simp), rfl⟩

/-- A blank behind a comma is dropped. -/
theorem correct_tightenComma_append (hfront : (front ++ [',']).IsChain Parted)
    (htext : EndsRun isBlank text.head?) :
    correct tightenComma (front ++ ',' :: ' ' :: text) =
      front ++ ',' :: correct tightenComma text := by
  induction front with
  | nil =>
    have hsome : tightenComma none ([',', ' '] ++ text) = some ([','], text) :=
      tightenComma_eq_some_iff.2 ⟨htext, [], [' '], nofun,
        List.forall_mem_singleton.2 (by decide), rfl, rfl⟩
    refine (correctFrom_of_some (List.cons_ne_nil _ _) hsome).trans ?_
    rw [correctFrom_tightenComma]
    rfl
  | cons c front ih =>
    obtain ⟨hhead, hchain⟩ := List.isChain_cons.1 hfront
    have ih := ih hchain
    by_cases hc : c = ','
    · subst hc
      have hends : EndsRun isBlank (front ++ ',' :: ' ' :: text).head? := by
        intro d hd
        have hd : d ∈ (front ++ [',']).head? := by
          cases front <;> exact hd
        exact Bool.eq_false_iff.2 fun hblank => (hhead d hd).2 ⟨rfl, hblank⟩
      have hsome : tightenComma none ([','] ++ (front ++ ',' :: ' ' :: text)) =
          some ([','], front ++ ',' :: ' ' :: text) :=
        tightenComma_eq_some_iff.2 ⟨hends, [], [], nofun, nofun, rfl, rfl⟩
      refine (correctFrom_of_some (List.cons_ne_nil _ _) hsome).trans ?_
      rw [correctFrom_tightenComma, ih]
      rfl
    · refine (correctFrom_of_none (tightenComma_eq_none hc hfront _)).trans ?_
      exact congrArg (c :: ·) ((correctFrom_tightenComma _ _).trans ih)

/-- Tightening its commas makes a text orderly. -/
structure Tightens (text text' : List Char) : Prop where
  quote : '"' ∉ text
  tighten : correct tightenComma text = text'
  orderly : Orderly text'

theorem Orderly.tightens (h : Orderly text) : Tightens text text :=
  ⟨h.quote_not_mem, correct_tightenComma_eq_self h.isChain_parted, h⟩

theorem Tightens.tidyPlain_eq (h : Tightens text text') : tidyPlain text = text' := by
  have hself := correct_tightenComma_eq_self h.orderly.isChain_parted
  have htidy : tidyPlain text = tidyPlain text' := by
    unfold tidyPlain
    rw [h.tighten, hself]
  rw [htidy, h.orderly.tidyPlain_eq]

theorem endsRun_isBlank_of_noSeparator (h : NoSeparator text) : EndsRun isBlank text.head? :=
  fun c hc => (h c hc).1.isBlank

/-- A comma with a space before something that can be tightened. -/
theorem Tightens.comma (h : Tightens text text') (hhead : NoSeparator text)
    (hhead' : NoSeparator text') (hfront : ∀ rest, GoesOn rest → Orderly (front ++ rest)) :
    Tightens (front ++ ',' :: ' ' :: text) (front ++ ',' :: text') where
  quote := by
    have hquote := (hfront [] goesOn_nil).quote_not_mem
    rw [List.append_nil] at hquote
    refine List.not_mem_append hquote ?_
    simp [h.quote]
  tighten := by
    have hchain := (hfront _ (goesOn_comma ⟨.nil, nofun⟩)).isChain_parted
    rw [correct_tightenComma_append hchain (endsRun_isBlank_of_noSeparator hhead), h.tighten]
  orderly := hfront _ (goesOn_comma ⟨h.orderly, hhead'⟩)

/-! ### Stretches -/

/-- Tightening its commas makes the plain stretches of a text orderly. -/
inductive Tidies : List Char → List Char → Prop
  | plain {text text' : List Char} : Tightens text text' → Tidies text text'
  | quoted {text text' body rest rest' : List Char} : Tightens text text' → '"' ∉ body →
      Tidies rest rest' →
      Tidies (text ++ '"' :: (body ++ '"' :: rest)) (text' ++ '"' :: (body ++ '"' :: rest'))

/-- What an orderly text, or a comment, may begin with. -/
def Opens (text : List Char) : Prop := ∀ c ∈ text.head?, IsInner c ∨ c = '"'

theorem Opens.noSeparator (h : Opens (text ++ rest)) (hquote : '"' ∉ text) : NoSeparator text := by
  intro c hc
  have hopens : c ∈ (text ++ rest).head? := by
    rw [List.head?_append, hc]
    rfl
  refine (h c hopens).resolve_right ?_
  rintro rfl
  exact hquote (List.mem_of_mem_head? hc)

theorem Tidies.tidyStretches_eq (h : Tidies text text') : tidyStretches text = text' := by
  induction h with
  | plain h => rw [tidyStretches_plain h.quote, h.tidyPlain_eq]
  | @quoted text text' body rest rest' h hbody _ ih =>
    rw [tidyStretches, piecesAfter_quote _ h.quote, if_neg Bool.noConfusion,
      piecesAfter_quote _ hbody, if_pos rfl, List.flatMap_cons, List.flatMap_cons]
    change tidyPlain text ++ ('"' :: (body ++ ['"']) ++ tidyStretches rest) = _
    rw [h.tidyPlain_eq, ih]
    simp

/-- A comma with a space before a rule. -/
theorem Tidies.comma (h : Tidies loose tight) (hloose : Opens loose) (htight : Opens tight)
    (hfront : ∀ rest, GoesOn rest → Orderly (front ++ rest)) :
    Tidies (front ++ ',' :: ' ' :: loose) (front ++ ',' :: tight) := by
  cases h with
  | plain h =>
    rw [← List.append_nil loose] at hloose
    rw [← List.append_nil tight] at htight
    exact .plain (h.comma (hloose.noSeparator h.quote)
      (htight.noSeparator h.orderly.quote_not_mem) hfront)
  | quoted h hbody hrest =>
    have hcomma := h.comma (hloose.noSeparator h.quote)
      (htight.noSeparator h.orderly.quote_not_mem) hfront
    have hquoted := Tidies.quoted hcomma hbody hrest
    rwa [List.append_assoc, List.append_assoc] at hquoted

/-! ### Runs of rules -/

/-- A text is orderly with whatever may come behind a rule. -/
def OrderlyBefore (front : List Char) : Prop := ∀ rest, GoesOn rest → Orderly (front ++ rest)

theorem OrderlyBefore.orderly (h : OrderlyBefore front) : Orderly front := by
  have horderly := h [] goesOn_nil
  rwa [List.append_nil] at horderly

theorem Orderly.spaced (h : Orderly text) : text.IsChain Spaced :=
  h.isChain.imp fun _ _ hdivided => hdivided.imp (fun hc => hc.1.isBlank) fun hd => hd.1.isBlank

theorem Orderly.whole (h : Orderly text) : Whole false text ∧ quotedAfter false text = false :=
  ⟨whole_of_not_mem h.quote_not_mem h.semicolon_not_mem, quotedAfter_of_not_mem h.quote_not_mem⟩

/-- Between quotes, semicolons do not count. -/
theorem whole_quoted (h : '"' ∉ body) : Whole true body := by
  induction body with
  | nil => trivial
  | cons c body ih =>
    obtain ⟨hc, hrest⟩ := List.ne_and_not_mem_of_not_mem_cons h
    have hsame := bne_quote hc.symm true
    rw [Whole, hsame]
    exact ⟨fun _ => rfl, ih hrest⟩

/-- A text is one rule to tidy, its blanks are single spaces, and tidying its stretches makes
another text of it. -/
structure Neatens (loose tight : List Char) : Prop where
  tidies : Tidies loose tight
  spaced : (loose ++ [' ']).IsChain Spaced
  spaces : ∀ c ∈ loose, isBlank c = true → c = ' '
  whole : Whole false loose
  closed : quotedAfter false loose = false

theorem neatens_plain (h : OrderlyBefore front) : Neatens front front where
  tidies := .plain h.orderly.tightens
  spaced := (h _ goesOn_space).spaced
  spaces := h.orderly.eq_space
  whole := h.orderly.whole.1
  closed := h.orderly.whole.2

/-- A rule behind a comma. -/
theorem Neatens.comma (h : Neatens loose tight) (hne : loose ≠ []) (hloose : Opens loose)
    (htight : Opens tight) (hfront : OrderlyBefore front) :
    Neatens (front ++ ',' :: ' ' :: loose) (front ++ ',' :: tight) where
  tidies := h.tidies.comma hloose htight hfront
  spaced := by
    have hcomma : (front ++ [',']).IsChain Spaced :=
      (hfront _ (goesOn_comma ⟨.nil, nofun⟩)).spaced
    have hbehind : (' ' :: (loose ++ [' '])).IsChain Spaced := by
      refine List.isChain_cons.2 ⟨fun c hc => .inr ?_, h.spaced⟩
      rw [List.head?_append_of_ne_nil _ hne] at hc
      rcases hloose c hc with hinner | rfl
      · exact hinner.1.isBlank
      · decide
    have hjoined := List.isChain_append.2 ⟨hcomma, hbehind, fun c hc _ _ => .inl (by
      rw [List.getLast?_concat] at hc
      obtain rfl := Option.some.inj hc
      decide)⟩
    rw [List.append_assoc] at hjoined ⊢
    exact hjoined
  spaces := by
    have hspaces := hfront.orderly.eq_space
    refine List.forall_mem_append.2 ⟨hspaces, List.forall_mem_cons.2
      ⟨by decide, List.forall_mem_cons.2 ⟨fun _ => rfl, h.spaces⟩⟩⟩
  whole := by
    obtain ⟨hwhole, hclosed⟩ := hfront.orderly.whole
    rw [whole_append, hclosed]
    exact ⟨hwhole, fun heq => absurd heq (by decide), fun heq => absurd heq (by decide), h.whole⟩
  closed := by
    rw [quotedAfter_append, hfront.orderly.whole.2]
    exact h.closed

/-- A comment, with the words of its rule before it. -/
theorem Neatens.quoted (h : Neatens loose tight) (htext : Orderly text)
    (hquote : '"' ∉ body) (hbody : SingleSpaced body) :
    Neatens (text ++ '"' :: (body ++ '"' :: loose)) (text ++ '"' :: (body ++ '"' :: tight)) where
  tidies := .quoted htext.tightens hquote h.tidies
  spaced := by
    have hinside := (singleSpaced_iff.1 hbody).1
    have hmark : isBlank '"' = false := by decide
    have hchain := List.isChain_append.2 ⟨htext.spaced,
      List.isChain_cons.2 ⟨fun _ _ => .inl hmark, List.isChain_append.2 ⟨hinside,
        List.isChain_cons.2 ⟨fun _ _ => .inl hmark, h.spaced⟩, fun _ _ _ hd =>
          .inr (Option.some.inj hd ▸ hmark)⟩⟩, fun _ _ _ hd => .inr (Option.some.inj hd ▸ hmark)⟩
    simpa using hchain
  spaces := by
    refine List.forall_mem_append.2 ⟨htext.eq_space, List.forall_mem_cons.2
      ⟨by decide, List.forall_mem_append.2 ⟨hbody.space, List.forall_mem_cons.2
        ⟨by decide, h.spaces⟩⟩⟩⟩
  whole := by
    obtain ⟨hwhole, hclosed⟩ := htext.whole
    rw [whole_append, hclosed]
    refine ⟨hwhole, fun heq => absurd heq (by decide), ?_⟩
    change Whole true (body ++ '"' :: loose)
    rw [whole_append, quotedAfter_of_not_mem hquote]
    exact ⟨whole_quoted hquote, fun _ => rfl, h.whole⟩
  closed := by
    rw [quotedAfter_append, htext.whole.2]
    change quotedAfter true (body ++ '"' :: loose) = false
    rw [quotedAfter_append, quotedAfter_of_not_mem hquote]
    exact h.closed

/-- A text is one rule to tidy, and tidying it makes another text of it. -/
structure BecomesTidy (loose tight : List Char) : Prop where
  isTight : Tight loose
  whole : Whole false loose
  closed : quotedAfter false loose = false
  tidyRule_eq : tidyRule loose = tight

/-- A text that neatens is tidied so, if it says in no other way that a place is always open. -/
theorem Neatens.becomesTidy (h : Neatens loose tight) (hne : loose ≠ []) (hopens : Opens loose)
    (halways : saysAlwaysOpen loose = true → loose = "24/7".toList) : BecomesTidy loose tight := by
  have htight : Tight loose := by
    refine ⟨List.isChain_cons.2 ⟨fun c hc => .inr ?_, h.spaced⟩, h.spaces⟩
    rw [List.head?_append_of_ne_nil _ hne] at hc
    rcases hopens c hc with hinner | rfl
    · exact hinner.1.isBlank
    · decide
  refine ⟨htight, h.whole, h.closed, ?_⟩
  by_cases hopen : saysAlwaysOpen loose = true
  · obtain rfl := halways hopen
    have hstretches : tidyStretches "24/7".toList = "24/7".toList := by decide
    exact tidyRule_alwaysOpen.trans (hstretches.symm.trans h.tidies.tidyStretches_eq)
  · unfold tidyRule
    dsimp only
    rw [htight.collapseBlanks_eq, if_neg hopen]
    exact htight.tidyStretches.trimBlanks_eq.trans h.tidies.tidyStretches_eq

/-- Texts that are tidied one by one where semicolons stand between them. -/
theorem tidyChars_intercalate {runs runs' : List (List Char)}
    (h : List.Forall₂ BecomesTidy runs runs') :
    tidyChars (List.intercalate [';', ' '] runs) = List.intercalate [';', ' '] runs' := by
  have hruns : ∀ run ∈ runs, (Tight run ∧ Whole false run) ∧ quotedAfter false run = false := by
    intro run hmem
    obtain ⟨tight, -, htidy⟩ := exists_of_mem_left h hmem
    exact ⟨⟨htidy.isTight, htidy.whole⟩, htidy.closed⟩
  have hsplit : splitRules (List.intercalate [';', ' '] runs) = runs :=
    splitRules_intercalate (fun run hmem => (hruns run hmem).1)
      (List.pairwise_of_forall_mem_list fun run hmem _ _ => (hruns run hmem).2)
  have hmap : runs.map tidyRule = runs' := by
    refine List.forall₂_eq_eq_eq ▸ List.forall₂_map_left_iff.2 (h.imp fun _ _ htidy => ?_)
    exact htidy.tidyRule_eq
  rw [(splitRules_tidyChars _).1, hsplit, hmap]

end Tidy

end Timetable
