import Timetable.Proofs.Grammar.Lists
import Timetable.Proofs.Grammar.Words

/-!
Expressions that do not look beyond a semicolon.

`Peg.Confined` says that an expression reads a text in front of a semicolon as if the text were over
there: it fits just where it did and leaves the rest that it left, now with the semicolon behind it.
A comment or a row of numbers between brackets may hold a semicolon, so this is asked of texts only
in which none of them stays open (`Closed`), and the expression has to take as much that what it
leaves is closed again.

`confined_rule` says that the part of the grammar for one rule is confined. It follows the grammar
from the marks and words up, one lemma a part.
-/

namespace Timetable.Grammar

/-! ### Closed texts -/

/-- What a place of a text is enclosed by. -/
inductive Enclosure where
  | nothing
  | quotes
  | brackets
  deriving DecidableEq

namespace Enclosure

/-- What the place after a character is enclosed by. -/
def after : Enclosure → Char → Enclosure
  | nothing, c => if c = '"' then quotes else if c = '[' then brackets else nothing
  | quotes, c => if c = '"' then nothing else quotes
  | brackets, c => if c = ']' then nothing else brackets

theorem after_of_ne {c : Char} (hquote : c ≠ '"') (hbracket : c ≠ '[') :
    nothing.after c = nothing :=
  (if_neg hquote).trans (if_neg hbracket)

/-- What the end of a text is enclosed by. -/
def atEnd (enclosure : Enclosure) (text : List Char) : Enclosure := text.foldl after enclosure

theorem atEnd_append (enclosure : Enclosure) (front back : List Char) :
    enclosure.atEnd (front ++ back) = (enclosure.atEnd front).atEnd back := List.foldl_append

end Enclosure

/-- Whether a character begins a comment or a row of numbers, or is a semicolon. -/
def isMark (c : Char) : Bool := c == ';' || c == '"' || c == '['

/-- Each comment and each row of numbers of the text ends. -/
def Closed (text : List Char) : Prop := Enclosure.nothing.atEnd text = .nothing

theorem Enclosure.atEnd_of_not_isMark {text : List Char} (h : ∀ c ∈ text, isMark c = false) :
    nothing.atEnd text = nothing := by
  induction text with
  | nil => rfl
  | cons c text ih =>
    obtain ⟨hc, htext⟩ := List.forall_mem_cons.1 h
    simp only [isMark, Bool.or_eq_false_iff, beq_eq_false_iff_ne] at hc
    change (nothing.after c).atEnd text = nothing
    rw [after_of_ne hc.1.2 hc.2]
    exact ih htext

/-- The place in the same text, if it goes on with a semicolon. -/
def Cursor.before (cursor : Cursor) (more : List Char) : Cursor :=
  ⟨cursor.rest ++ ';' :: more, cursor.offset⟩

theorem Cursor.drop_before (cursor : Cursor) (more : List Char) {count : Nat}
    (h : count ≤ cursor.rest.length) :
    (cursor.before more).drop count = (cursor.drop count).before more := by
  simp only [before, drop, List.drop_append_of_le_length h, List.take_append_of_le_length h]

namespace Peg

variable {α β : Type}

/-- What the expression takes from a text is closed, so that what it leaves is closed just if the
text is. -/
def Balanced (peg : Peg α) : Prop :=
  ∀ cursor value next, (peg.run cursor).result = some (value, next) →
    Enclosure.nothing.atEnd cursor.rest = Enclosure.nothing.atEnd next.rest

/-- In front of a semicolon, the expression reads a closed text as if the text were over there; and
what it leaves of a closed text is closed. -/
structure Confined (peg : Peg α) : Prop where
  balanced : peg.Balanced
  steady : ∀ (cursor : Cursor) (more : List Char), Closed cursor.rest →
    (peg.run (cursor.before more)).result =
      (peg.run cursor).result.map fun r => (r.1, r.2.before more)

theorem Balanced.closed {peg : Peg α} (h : peg.Balanced) {cursor next : Cursor} {value : α}
    (hresult : (peg.run cursor).result = some (value, next)) (hclosed : Closed cursor.rest) :
    Closed next.rest :=
  (h _ _ _ hresult).symm.trans hclosed

/-! ### Expressions that take closed parts of a text -/

theorem balanced_fail : (fail : Peg α).Balanced := by
  intro cursor value next hresult
  cases hresult

theorem balanced_pure (value : α) : (pure value).Balanced := by
  intro cursor value next hresult
  obtain ⟨-, rfl⟩ := Prod.mk.inj (Option.some.inj hresult)
  rfl

theorem balanced_token {text : List Char} (h : Closed text) : (token text).Balanced := by
  intro cursor value next hresult
  rw [rest_of_token hresult, Enclosure.atEnd_append, h]

section Balanced

variable {peg other : Peg α} {first : Peg α} {second : Peg β}

theorem Balanced.map {f : α → β} (h : peg.Balanced) : (map f peg).Balanced := by
  intro cursor value next hresult
  rw [result_map] at hresult
  obtain ⟨r, hr, heq⟩ := Option.map_eq_some_iff.1 hresult
  obtain ⟨-, rfl⟩ := Prod.mk.inj heq
  exact h _ _ _ hr

theorem Balanced.seq (h : first.Balanced) (h' : second.Balanced) :
    (seq first second).Balanced := by
  intro cursor value next hresult
  rw [result_seq] at hresult
  obtain ⟨r, hr, hresult⟩ := Option.bind_eq_some_iff.1 hresult
  obtain ⟨s, hs, heq⟩ := Option.map_eq_some_iff.1 hresult
  obtain ⟨-, rfl⟩ := Prod.mk.inj heq
  exact (h _ _ _ hr).trans (h' _ _ _ hs)

theorem Balanced.choice (h : peg.Balanced) (h' : other.Balanced) :
    (choice peg other).Balanced := by
  intro cursor value next hresult
  rw [result_choice] at hresult
  rcases Option.or_eq_some_iff.1 hresult with hresult | ⟨-, hresult⟩
  · exact h _ _ _ hresult
  · exact h' _ _ _ hresult

theorem Balanced.named (h : peg.Balanced) : (named peg).Balanced := by
  intro cursor value next hresult
  rw [result_named] at hresult
  exact h _ _ _ hresult

theorem Balanced.located (h : peg.Balanced) : (located peg).Balanced := by
  intro cursor value next hresult
  rw [result_located] at hresult
  obtain ⟨r, hr, heq⟩ := Option.map_eq_some_iff.1 hresult
  obtain ⟨-, rfl⟩ := Prod.mk.inj heq
  exact h _ _ _ hr

theorem Balanced.many (hconsumes : peg.Consumes) (h : peg.Balanced) : (many peg).Balanced := by
  intro cursor values next hresult
  induction hlength : cursor.rest.length using Nat.strongRecOn
    generalizing cursor values next with
  | ind length ih =>
    rw [result_many hconsumes] at hresult
    cases hstep : (peg.run cursor).result with
    | none =>
      rw [hstep] at hresult
      obtain ⟨-, rfl⟩ := Prod.mk.inj (Option.some.inj hresult)
      rfl
    | some r =>
      rw [hstep] at hresult
      obtain ⟨others, hothers, heq⟩ := Option.map_eq_some_iff.1 hresult
      obtain ⟨-, rfl⟩ := Prod.mk.inj heq
      have hlt := hconsumes cursor r.1 r.2 hstep
      exact (h _ _ _ hstep).trans (ih _ (hlength ▸ hlt) _ _ _ hothers rfl)

end Balanced

/-! ### Expressions that stop at a semicolon -/

theorem confined_pure (value : α) : (pure value).Confined := ⟨balanced_pure value, fun _ _ _ => rfl⟩

theorem confined_fail : (fail : Peg α).Confined := ⟨balanced_fail, fun _ _ _ => rfl⟩

theorem isPrefixOf_append_semicolon {text : List Char} (h : ';' ∉ text) :
    ∀ (rest more : List Char), text.isPrefixOf (rest ++ ';' :: more) = text.isPrefixOf rest := by
  induction text with
  | nil => intro rest more; simp
  | cons c text ih =>
    obtain ⟨hc, htext⟩ := not_or.1 (mt List.mem_cons.2 h)
    have hne : (c == ';') = false := beq_eq_false_iff_ne.2 (Ne.symm hc)
    intro rest more
    cases rest with
    | nil => simp [List.isPrefixOf, hne]
    | cons d rest => simp [List.isPrefixOf, ih htext]

/-- Whether given characters come next does not depend on what stands after a semicolon. -/
theorem result_token_before {text : List Char} (h : ';' ∉ text) (cursor : Cursor)
    (more : List Char) :
    ((token text).run (cursor.before more)).result =
      ((token text).run cursor).result.map fun r => (r.1, r.2.before more) := by
  rw [result_token, result_token, Cursor.before, isPrefixOf_append_semicolon h]
  split
  · rename_i hprefix
    have hle := (List.isPrefixOf_iff_prefix.1 hprefix).length_le
    exact congrArg (fun next => some ((), next)) (cursor.drop_before more hle)
  · rfl

theorem confined_token {text : List Char} (h : text.any isMark = false) :
    (token text).Confined where
  balanced := balanced_token (Enclosure.atEnd_of_not_isMark (by simpa using h))
  steady cursor more _ := by
    refine result_token_before (fun hmem => ?_) cursor more
    exact List.any_eq_false.1 h ';' hmem rfl

theorem takeWhile_append_semicolon {accepts : Char → Bool} (h : accepts ';' = false)
    (most : Option Nat) (rest more : List Char) :
    (most.elim (rest ++ ';' :: more) (rest ++ ';' :: more).take).takeWhile accepts =
      (most.elim rest rest.take).takeWhile accepts := by
  cases most with
  | none =>
    induction rest with
    | nil => simp [h]
    | cons c rest ih =>
      simp only [Option.elim, List.cons_append, List.takeWhile_cons] at ih ⊢
      rw [ih]
  | some limit =>
    induction rest generalizing limit with
    | nil => cases limit <;> simp [h]
    | cons c rest ih =>
      cases limit with
      | zero => rfl
      | succ limit =>
        simp only [Option.elim, List.cons_append, List.take_succ_cons, List.takeWhile_cons] at ih ⊢
        rw [ih]

theorem confined_chars {accepts : Char → Bool} (h : ∀ c, isMark c = true → accepts c = false)
    (least : Nat) (most : Option Nat) : (chars accepts least most).Confined where
  balanced := by
    intro cursor value next hresult
    rw [result_chars] at hresult
    dsimp only at hresult
    split at hresult
    · obtain ⟨-, rfl⟩ := Prod.mk.inj (Option.some.inj hresult)
      obtain ⟨rest, hrest⟩ := taken_prefix_rest accepts most cursor.rest
      have hplain : ∀ c ∈ (most.elim cursor.rest cursor.rest.take).takeWhile accepts,
          isMark c = false := by
        intro c hc
        have haccepts : accepts c = true := List.all_eq_true.1 List.all_takeWhile c hc
        cases hmark : isMark c with
        | false => rfl
        | true => rw [h c hmark] at haccepts; cases haccepts
      generalize (most.elim cursor.rest cursor.rest.take).takeWhile accepts = taken at *
      rw [Cursor.drop, ← hrest, List.drop_left, Enclosure.atEnd_append,
        Enclosure.atEnd_of_not_isMark hplain]
    · cases hresult
  steady cursor more _ := by
    rw [result_chars, result_chars, Cursor.before, takeWhile_append_semicolon (h ';' (by decide))]
    dsimp only
    split
    · have hle := (taken_prefix_rest accepts most cursor.rest).length_le
      exact congrArg (fun next => some (_, next)) (cursor.drop_before more hle)
    · rfl

theorem confined_notNext {forbids : Char → Bool} (h : forbids ';' = false) :
    (notNext forbids).Confined where
  balanced := by
    intro cursor value next hresult
    rw [result_notNext] at hresult
    split at hresult
    · cases hresult
    · obtain ⟨-, rfl⟩ := Prod.mk.inj (Option.some.inj hresult)
      rfl
  steady cursor more _ := by
    have hnext : (cursor.before more).rest.head?.any forbids = cursor.rest.head?.any forbids := by
      rw [Cursor.before]
      cases cursor.rest with
      | nil => exact h
      | cons c rest => rfl
    rw [result_notNext, result_notNext, hnext]
    split <;> rfl

section Combinators

variable {peg other : Peg α} {first : Peg α} {second : Peg β}

theorem Confined.map {f : α → β} (h : peg.Confined) : (map f peg).Confined where
  balanced := h.balanced.map
  steady cursor more hclosed := by
    rw [result_map, result_map, h.steady cursor more hclosed]
    cases (peg.run cursor).result <;> rfl

theorem Confined.seq (h : first.Confined) (h' : second.Confined) :
    (seq first second).Confined where
  balanced := h.balanced.seq h'.balanced
  steady cursor more hclosed := by
    rw [result_seq, result_seq, h.steady cursor more hclosed]
    cases hr : (first.run cursor).result with
    | none => rfl
    | some r =>
      have hrest := h'.steady r.2 more (h.balanced.closed hr hclosed)
      simp only [Option.map_some, Option.bind_some, hrest]
      cases (second.run r.2).result <;> rfl

theorem Confined.choice (h : peg.Confined) (h' : other.Confined) :
    (choice peg other).Confined where
  balanced := h.balanced.choice h'.balanced
  steady cursor more hclosed := by
    rw [result_choice, result_choice, h.steady cursor more hclosed,
      h'.steady cursor more hclosed]
    cases (peg.run cursor).result <;> rfl

theorem Confined.named (h : peg.Confined) : (named peg).Confined where
  balanced := h.balanced.named
  steady cursor more hclosed := by
    rw [result_named, result_named]
    exact h.steady cursor more hclosed

theorem Confined.located (h : peg.Confined) : (located peg).Confined where
  balanced := h.balanced.located
  steady cursor more hclosed := by
    rw [result_located, result_located, h.steady cursor more hclosed]
    cases hr : (peg.run cursor).result with
    | none => rfl
    | some r =>
      -- The part of the text that was read is the same one, as the semicolon stands after it.
      have hfragment : (cursor.before more).fragmentTo (r.2.before more) =
          cursor.fragmentTo r.2 := by
        have hle := (suffix_of_result hr).length_le
        simp only [Cursor.fragmentTo, Cursor.before, List.length_append, List.length_cons,
          Fragment.mk.injEq, true_and]
        rw [Nat.add_sub_add_right, List.take_append_of_le_length (Nat.sub_le _ _)]
      simp only [Option.map_some, hfragment]

theorem Confined.many (hconsumes : peg.Consumes) (h : peg.Confined) : (many peg).Confined where
  balanced := h.balanced.many hconsumes
  steady := by
    intro cursor more hclosed
    induction hlength : cursor.rest.length using Nat.strongRecOn generalizing cursor with
    | ind length ih =>
      rw [result_many hconsumes, result_many hconsumes, h.steady cursor more hclosed]
      cases hstep : (peg.run cursor).result with
      | none => rfl
      | some r =>
        have hlt := hconsumes cursor r.1 r.2 hstep
        have hrest := ih _ (hlength ▸ hlt) r.2 (h.balanced.closed hstep hclosed) rfl
        simp only [Option.map_some, hrest]
        cases ((Peg.many peg).run r.2).result <;> rfl

theorem Confined.followedBy (h : first.Confined) (h' : second.Confined) :
    (first.followedBy second).Confined :=
  (h.seq h').map

theorem Confined.andThen (h : first.Confined) (h' : second.Confined) :
    (first.andThen second).Confined :=
  (h.seq h').map

theorem Confined.optional (h : peg.Confined) : (optional peg).Confined :=
  h.map.choice (confined_pure none)

theorem Confined.separatedBy (hconsumes : second.Consumes) (h : first.Confined)
    (h' : second.Confined) : (separatedBy first second).Confined :=
  (h.seq (Confined.many hconsumes.andThen (h'.andThen h))).map

theorem confined_firstOf {alternatives : List (Peg α)} (h : ∀ peg ∈ alternatives, peg.Confined) :
    (firstOf alternatives).Confined := by
  induction alternatives with
  | nil => exact confined_fail
  | cons peg alternatives ih =>
    obtain ⟨hpeg, halternatives⟩ := List.forall_mem_cons.1 h
    exact hpeg.choice (ih halternatives)

theorem confined_word {text : String} (h : text.toList.any isMark = false) (value : α) :
    (word text value).Confined :=
  (confined_token h).map

end Combinators

/-! ### Comments and numbers of weekdays -/

section Enclosed

variable {opening closing : Char} {enclosure : Enclosure}

theorem Enclosure.mem_of_atEnd (hstays : ∀ c, c ≠ closing → enclosure.after c = enclosure)
    (hne : enclosure ≠ .nothing) {text : List Char} (h : enclosure.atEnd text = .nothing) :
    closing ∈ text := by
  induction text with
  | nil => exact absurd h hne
  | cons c text ih =>
    by_cases hc : c = closing
    · exact hc ▸ List.mem_cons_self
    · change (enclosure.after c).atEnd text = .nothing at h
      rw [hstays c hc] at h
      exact List.mem_cons_of_mem _ (ih h)

theorem Enclosure.atEnd_of_not_mem (hstays : ∀ c, c ≠ closing → enclosure.after c = enclosure)
    {text : List Char} (h : closing ∉ text) : enclosure.atEnd text = enclosure := by
  induction text with
  | nil => rfl
  | cons c text ih =>
    obtain ⟨hc, htext⟩ := not_or.1 (mt List.mem_cons.2 h)
    change (enclosure.after c).atEnd text = enclosure
    rw [hstays c (Ne.symm hc)]
    exact ih htext

theorem takeWhile_append_of_mem {text : List Char} (h : closing ∈ text) (more : List Char) :
    (text ++ more).takeWhile (· != closing) = text.takeWhile (· != closing) := by
  induction text with
  | nil => cases h
  | cons c text ih =>
    rw [List.cons_append, List.takeWhile_cons, List.takeWhile_cons]
    split
    · rename_i hc
      have hmem := (List.mem_cons.1 h).resolve_left fun heq => by simp [heq] at hc
      rw [ih hmem]
    · rfl

/-- What stands between an opening and a closing character may hold semicolons, but as long as the
text is closed none of them is the one behind it. -/
theorem confined_enclosed {inner : Peg (List Char)}
    (hinner : ∀ cursor, (inner.run cursor).result =
      ((chars (· != closing) 0 none).run cursor).result)
    (hopens : Enclosure.nothing.after opening = enclosure)
    (hstays : ∀ c, c ≠ closing → enclosure.after c = enclosure)
    (hcloses : enclosure.after closing = .nothing) (hne : enclosure ≠ .nothing)
    (hopening : opening ≠ ';') (hclosing : closing ≠ ';') :
    ((token [opening]).andThen (inner.followedBy (token [closing]))).Confined where
  balanced := by
    intro cursor value next hresult
    rw [result_andThen] at hresult
    obtain ⟨⟨_, inside⟩, hopen, hresult⟩ := Option.bind_eq_some_iff.1 hresult
    dsimp only at hresult
    rw [result_followedBy, hinner, result_chars] at hresult
    simp only [Option.elim, Nat.zero_le, if_true, Option.bind_some] at hresult
    obtain ⟨⟨_, stop⟩, hclose, heq⟩ := Option.map_eq_some_iff.1 hresult
    obtain ⟨-, rfl⟩ := Prod.mk.inj heq
    dsimp only at hclose ⊢
    have hinside : inside.rest =
        inside.rest.takeWhile (· != closing) ++ [closing] ++ stop.rest := by
      rw [List.append_assoc, ← rest_of_token hclose, Cursor.drop]
      obtain ⟨rest, hrest⟩ := List.takeWhile_prefix (· != closing) (l := inside.rest)
      generalize inside.rest.takeWhile (· != closing) = taken at hrest ⊢
      rw [← hrest, List.drop_left]
    have hplain : closing ∉ inside.rest.takeWhile (· != closing) := by
      intro hmem
      have := List.all_eq_true.1 List.all_takeWhile closing hmem
      simp at this
    rw [rest_of_token hopen, hinside, Enclosure.atEnd_append, Enclosure.atEnd_append,
      Enclosure.atEnd_append]
    change Enclosure.atEnd (Enclosure.atEnd (Enclosure.atEnd
      (Enclosure.nothing.after opening) _) _) _ = _
    rw [hopens, Enclosure.atEnd_of_not_mem hstays hplain]
    change (enclosure.after closing).atEnd _ = _
    rw [hcloses]
  steady := by
    intro cursor more hclosed
    have hnotin : ∀ c : Char, c ≠ ';' → ';' ∉ [c] := fun c hc => by simpa using Ne.symm hc
    have hopen := result_token_before (hnotin opening hopening) cursor more
    rw [result_andThen, result_andThen, hopen]
    cases hinside : ((token [opening]).run cursor).result with
    | none => rfl
    | some r =>
      obtain ⟨_, inside⟩ := r
      have hmem : closing ∈ inside.rest := by
        refine Enclosure.mem_of_atEnd hstays hne ?_
        rw [Closed, rest_of_token hinside, Enclosure.atEnd_append] at hclosed
        change (Enclosure.nothing.after opening).atEnd _ = _ at hclosed
        rwa [hopens] at hclosed
      have hlast : inside.rest.takeWhile (· != closing) <+: inside.rest := List.takeWhile_prefix _
      simp only [Option.map_some, Option.bind_some, result_followedBy, hinner, result_chars,
        Option.elim, Nat.zero_le, if_true, Cursor.before, takeWhile_append_of_mem hmem]
      have hdrop := inside.drop_before more hlast.length_le
      rw [Cursor.before] at hdrop
      rw [hdrop, result_token_before (hnotin closing hclosing)]
      cases ((token [closing]).run _).result <;> rfl

end Enclosed

end Peg

open Peg

/-! ### Characters -/

theorem confined_space : space.Confined := confined_token (by decide)

theorem confined_spaces : spaces.Confined := (Confined.many consumes_space confined_space).map

theorem confined_someSpace : someSpace.Confined := confined_space.andThen confined_spaces

theorem confined_spaced {mark : String} (h : mark.toList.any isMark = false) :
    (spaced mark).Confined :=
  (confined_spaces.andThen (confined_token h)).followedBy confined_spaces

theorem not_isDigit_of_isMark (c : Char) (h : isMark c = true) : c.isDigit = false := by
  simp only [isMark, Bool.or_eq_true, beq_iff_eq] at h
  rcases h with (rfl | rfl) | rfl <;> decide

theorem confined_digits (least most : Nat) : (digits least most).Confined :=
  confined_chars not_isDigit_of_isMark least (some most)

theorem confined_number : number.Confined := (confined_chars not_isDigit_of_isMark 1 none).named

theorem confined_sign : sign.Confined :=
  ((confined_word (by decide) true).choice (confined_word (by decide) false)).named

theorem confined_plus : plus.Confined := (confined_token (by decide)).named

theorem confined_year : year.Confined :=
  ((confined_digits 4 4).followedBy (confined_notNext (by decide))).named

theorem confined_weekNumber : weekNumber.Confined :=
  ((confined_digits 1 2).followedBy (confined_notNext (by decide))).named

theorem confined_dayNumber : dayNumber.Confined :=
  ((confined_digits 1 2).followedBy (confined_notNext (by decide))).named

theorem confined_month : month.Confined := by
  refine (confined_firstOf ?_).named
  simp only [List.mem_cons, List.not_mem_nil, or_false, forall_eq_or_imp, forall_eq]
  and_intros <;> exact confined_word (by decide) _

theorem confined_weekday : weekday.Confined := by
  refine (confined_firstOf ?_).named
  simp only [List.mem_cons, List.not_mem_nil, or_false, forall_eq_or_imp, forall_eq]
  and_intros <;> exact confined_word (by decide) _

/-! ### Spans of time -/

theorem confined_clock : clock.Confined :=
  (((confined_digits 1 2).named.followedBy (confined_token (by decide))).seq
    (confined_digits 2 2).named).map.named

theorem confined_event : event.Confined := by
  refine (confined_firstOf ?_).named
  simp only [List.mem_cons, List.not_mem_nil, or_false, forall_eq_or_imp, forall_eq]
  and_intros <;> exact (confined_word (by decide) _).named

theorem confined_shiftedEvent : shiftedEvent.Confined :=
  ((confined_token (by decide)).andThen (confined_spaces.andThen
    ((confined_event.followedBy confined_spaces).seq ((confined_sign.followedBy confined_spaces).seq
      ((confined_clock.followedBy confined_spaces).followedBy
        (confined_token (by decide))))))).map

theorem confined_moment : moment.Confined :=
  (confined_clock.map.choice (confined_event.map.choice confined_shiftedEvent).named).named

theorem confined_spanEnd : spanEnd.Confined :=
  ((confined_spaced (by decide)).andThen (confined_moment.seq confined_plus.optional)).map.choice
    (confined_plus.map.choice ((confined_pure _).choice confined_fail))

theorem confined_span : span.Confined :=
  (confined_moment.seq confined_spanEnd).located.map.named

theorem confined_spans : spans.Confined :=
  (Confined.separatedBy (consumes_spaced (by decide)) confined_span
    (confined_spaced (by decide))).named

/-! ### Days -/

theorem confined_dayOffset : dayOffset.Confined :=
  ((confined_someSpace.andThen (confined_sign.seq confined_number)).followedBy
    (confined_someSpace.andThen ((confined_token (by decide)).choice
      (confined_token (by decide))))).named.located.map

theorem confined_occurrences : occurrences.Confined := by
  have henclosed : ((token ['[']).andThen
      ((chars (· != ']') 0 none).followedBy (token [']']))).Confined :=
    confined_enclosed (fun _ => rfl) rfl (fun _ h => if_neg h) rfl (by decide) (by decide)
      (by decide)
  exact henclosed.named.located.map

theorem confined_weekdayRange : weekdayRange.Confined :=
  ((confined_weekday.seq ((confined_token (by decide)).andThen confined_weekday).optional).seq
    (confined_occurrences.optional.seq confined_dayOffset.optional)).map.named

theorem confined_weekdays : weekdays.Confined :=
  (Confined.separatedBy consumes_comma confined_weekdayRange (confined_token (by decide))).named

theorem confined_holiday : holiday.Confined :=
  (((confined_word (by decide) _).named.choice (confined_word (by decide) _).named).seq
    confined_dayOffset.optional).map.named

theorem confined_holidays : holidays.Confined :=
  (Confined.separatedBy consumes_comma confined_holiday (confined_token (by decide))).named

theorem confined_afterComma {α : Type} {items : Peg (List α)} (h : items.Confined) :
    (afterComma items).Confined :=
  ((confined_token (by decide)).andThen h).optional.map

theorem confined_days : days.Confined :=
  ((((confined_holidays.followedBy confined_someSpace).seq confined_weekdays).map.named).choice
    ((confined_weekdays.seq (confined_afterComma confined_holidays)).map.choice
      ((confined_holidays.seq (confined_afterComma confined_weekdays)).map.choice
        confined_fail))).named

/-! ### Weeks, dates and years -/

theorem confined_stepBehind : (optional ((token ['/']).andThen number)).Confined :=
  ((confined_token (by decide)).andThen confined_number).optional

theorem confined_weeks : weeks.Confined := by
  have hrange : weekRange.Confined :=
    (confined_weekNumber.seq (((confined_token (by decide)).andThen confined_weekNumber).seq
      confined_stepBehind).optional).map.named
  exact (((confined_token (by decide)).andThen confined_someSpace).andThen
    (Confined.separatedBy consumes_comma hrange (confined_token (by decide)))).named

theorem confined_leadingYear : leadingYear.Confined :=
  (confined_year.followedBy confined_someSpace).optional

theorem confined_day : day.Confined :=
  (confined_leadingYear.seq (((confined_month.followedBy confined_someSpace).seq
    confined_dayNumber).map.choice (confined_word (by decide) _).named)).map.named

theorem confined_dayEnd : dayEnd.Confined := by
  have hlast : lastDay.Confined := (confined_day.map.choice confined_dayNumber.located.map).named
  exact ((confined_spaced (by decide)).andThen (hlast.seq confined_dayOffset.optional)).map.choice
    (confined_plus.map.choice ((confined_pure _).choice confined_fail))

theorem confined_dates : dates.Confined := by
  have hrange : dateRange.Confined :=
    ((confined_day.seq (confined_dayOffset.optional.seq confined_dayEnd)).map.choice
      (confined_leadingYear.seq (confined_month.seq
        ((confined_token (by decide)).andThen confined_month).optional)).map).named
  exact (Confined.separatedBy consumes_comma hrange (confined_token (by decide))).named

theorem confined_years : years.Confined := by
  have hrange : yearRange.Confined :=
    (confined_year.seq (((((confined_token (by decide)).andThen confined_year).seq
      confined_stepBehind).map.choice (confined_plus.map.choice
        ((confined_pure _).choice confined_fail))))).map.named
  exact (Confined.separatedBy consumes_comma hrange (confined_token (by decide))).named

/-! ### Rules -/

theorem confined_wide : wide.Confined :=
  (((confined_dates.map.choice
      (confined_years.seq (confined_someSpace.andThen confined_dates).optional).map).seq
    (confined_someSpace.andThen confined_weeks).optional).map.choice confined_weeks.map).named

theorem confined_small : small.Confined :=
  ((confined_days.seq (confined_someSpace.andThen confined_spans).optional).map.choice
    confined_spans.map).named

theorem confined_times : times.Confined := by
  have hseparator : conditionSeparator.Confined :=
    (confined_spaced (by decide)).choice confined_someSpace
  exact ((confined_word (by decide) _).named.choice
    ((confined_wide.seq (hseparator.andThen confined_small).optional).map.choice
      (confined_small.map.choice confined_fail))).named

theorem confined_kind : kind.Confined :=
  (((confined_word (by decide) _).choice (confined_word (by decide) _)).named.choice
    ((confined_word (by decide) _).named.choice
      ((confined_word (by decide) _).named.choice confined_fail))).named

theorem confined_comment : comment.Confined := by
  have henclosed : ((token ['"']).andThen
      ((Peg.named (chars (· != '"') 0 none)).followedBy (token ['"']))).Confined :=
    confined_enclosed (fun _ => result_named _ _) rfl (fun _ h => if_neg h) rfl (by decide)
      (by decide) (by decide)
  exact henclosed.named

theorem confined_modifier : modifier.Confined :=
  ((confined_kind.seq (confined_someSpace.andThen confined_comment).optional).map.choice
    confined_comment.map).named

/-- A rule is read as far as the next semicolon at most. -/
theorem confined_rule : rule.Confined :=
  ((confined_times.seq (confined_someSpace.andThen confined_modifier).optional).map.choice
    confined_modifier.map).named

end Timetable.Grammar
