import Timetable.Proofs.Grammar.Confined
import Timetable.Proofs.Grammar.Openings

/-!
Reading a text that was rewritten.

A `Rewriting` says what may become of a text from some place on: nothing at all, or a text with its
blanks moved, an hour padded, and the like. An expression is steady under it (`Peg.Steady`) if it
reads the rewritten text as it reads the text, where only a view of the values counts.

The one exception is a comma with a blank beside it. Most lists go on only behind a comma without
one, so that a list which stops there in the text may go on in a rewritten text that has lost the
blank. `Peg.Tolerant` allows for that, and says which values the expression gives where it stops
before such a comma.
-/

namespace Timetable.Grammar

/-- A comma comes next, with a blank beside it. -/
def LooseComma (text : List Char) : Prop :=
  ∃ rest, text.dropWhile (· == ' ') = ',' :: rest ∧
    (text.head? = some ' ' ∨ rest.head? = some ' ')

/-- A way to rewrite texts. -/
structure Rewriting where
  /-- What is left of a text at some place, and what is left there of the rewritten text. -/
  relates : List Char → List Char → Prop
  /-- Whether a comma may lose the blanks beside it. -/
  loosens : Prop

/-- Nothing is rewritten. -/
def Rewriting.nothing : Rewriting where
  relates text text' := text' = text
  loosens := False

namespace Peg

variable {α β γ δ : Type} {rewriting : Rewriting} {text text' : List Char}

/-! ### Readings of both texts -/

/-- How the results of reading a text and the rewritten text are alike: both are refused, or both
are read with values that look the same, or the text is read up to a loose comma. -/
inductive Alike (rewriting : Rewriting) (view : α → γ) (ends : α → Prop) :
    Option (α × Cursor) → Option (α × Cursor) → Prop where
  | refused : Alike rewriting view ends none none
  | read {value value' : α} {rest rest' : List Char} {stop stop' : Nat}
      (hrelates : rewriting.relates rest rest') (hview : view value' = view value) :
      Alike rewriting view ends (some (value, ⟨rest, stop⟩)) (some (value', ⟨rest', stop'⟩))
  | stopped {value : α} {next : Cursor} {result' : Option (α × Cursor)}
      (hloosens : rewriting.loosens) (hloose : LooseComma next.rest) (hends : ends value) :
      Alike rewriting view ends (some (value, next)) result'

/-- The expression reads texts that one rewriting relates alike, and another one relates what is
left of them, unless it stops before a loose comma with a value that may end there. -/
def Leads (peg : Peg α) (before after : Rewriting) (view : α → γ) (ends : α → Prop) : Prop :=
  ∀ (text text' : List Char), before.relates text text' → ∀ (offset offset' : Nat),
    Alike after view ends (peg.run ⟨text, offset⟩).result (peg.run ⟨text', offset'⟩).result

/-- The expression reads a rewritten text as it reads the text, unless it stops before a loose comma
with a value that may end there. -/
abbrev Tolerant (peg : Peg α) (rewriting : Rewriting) (view : α → γ) (ends : α → Prop) : Prop :=
  peg.Leads rewriting rewriting view ends

/-- The expression reads a rewritten text as it reads the text. -/
abbrev Steady (peg : Peg α) (rewriting : Rewriting) (view : α → γ) : Prop :=
  peg.Tolerant rewriting view fun _ => False

section Rules

variable {peg other : Peg α} {first : Peg α} {second : Peg β} {view : α → γ} {view' : β → δ}
  {ends : α → Prop} {ends' : β → Prop} {before between after : Rewriting}

theorem Leads.congr {same : Peg α} (h : same.Leads before after view ends)
    (hsame : ∀ cursor, (peg.run cursor).result = (same.run cursor).result) :
    peg.Leads before after view ends := by
  intro text text' hrelates offset offset'
  rw [hsame, hsame]
  exact h text text' hrelates offset offset'

theorem Alike.bind {result result' : Option (α × Cursor)}
    {next : α × Cursor → Option (β × Cursor)} (h : Alike between view ends result result')
    (hread : ∀ value value' rest rest' stop stop', view value' = view value →
      between.relates rest rest' →
      Alike after view' ends' (next (value, ⟨rest, stop⟩)) (next (value', ⟨rest', stop'⟩)))
    (hstopped : ∀ value last result', between.loosens → LooseComma last.rest → ends value →
      Alike after view' ends' (next (value, last)) result') :
    Alike after view' ends' (result.bind next) (result'.bind next) := by
  cases h with
  | refused => exact .refused
  | read hrelates hview => exact hread _ _ _ _ _ _ hview hrelates
  | stopped hloosens hloose hends => exact hstopped _ _ _ hloosens hloose hends

/-- Two results are alike as if no text could be read up to a loose comma, or this one was. -/
theorem Alike.cases {result result' : Option (α × Cursor)}
    (h : Alike rewriting view ends result result') :
    Alike rewriting view (fun _ => False) result result' ∨
      ∃ value next, result = some (value, next) ∧ rewriting.loosens ∧ LooseComma next.rest ∧
        ends value := by
  cases h with
  | refused => exact .inl .refused
  | read hrelates hview => exact .inl (.read hrelates hview)
  | stopped hloosens hloose hends => exact .inr ⟨_, _, rfl, hloosens, hloose, hends⟩

theorem Alike.mono {result result' : Option (α × Cursor)} {wider : α → δ} {wider' : α → Prop}
    (h : Alike rewriting view ends result result')
    (hview : ∀ a b, view a = view b → wider a = wider b) (hends : ∀ a, ends a → wider' a) :
    Alike rewriting wider wider' result result' := by
  cases h with
  | refused => exact .refused
  | read hrelates heq => exact .read hrelates (hview _ _ heq)
  | stopped hloosens hloose hend => exact .stopped hloosens hloose (hends _ hend)

theorem Leads.mono {wider : α → δ} {wider' : α → Prop} (h : peg.Leads before after view ends)
    (hview : ∀ a b, view a = view b → wider a = wider b) (hends : ∀ a, ends a → wider' a) :
    peg.Leads before after wider wider' :=
  fun text text' hrelates offset offset' =>
    (h text text' hrelates offset offset').mono hview hends

theorem Alike.map {result result' : Option (α × Cursor)} {f : α → β}
    (h : Alike rewriting view ends result result')
    (hview : ∀ a b, view a = view b → view' (f a) = view' (f b))
    (hends : ∀ a, ends a → ends' (f a)) :
    Alike rewriting view' ends' (result.map fun r => (f r.1, r.2))
      (result'.map fun r => (f r.1, r.2)) := by
  cases h with
  | refused => exact .refused
  | read hrelates heq => exact .read hrelates (hview _ _ heq)
  | stopped hloosens hloose hend => exact .stopped hloosens hloose (hends _ hend)

theorem Leads.map {f : α → β} (h : peg.Leads before after view ends)
    (hview : ∀ a b, view a = view b → view' (f a) = view' (f b))
    (hends : ∀ a, ends a → ends' (f a)) : (map f peg).Leads before after view' ends' := by
  intro text text' hrelates offset offset'
  rw [result_map, result_map]
  exact (h text text' hrelates offset offset').map hview hends

theorem Steady.map {f : α → β} (h : peg.Steady rewriting view)
    (hview : ∀ a b, view a = view b → view' (f a) = view' (f b)) :
    (map f peg).Steady rewriting view' :=
  Leads.map h hview fun _ => id

/-- What is read behind a value is read alike, or it stops there. -/
theorem Alike.seq {idles : β → Prop} {offset offset' : Nat}
    (h : Alike between view ends (first.run ⟨text, offset⟩).result
      (first.run ⟨text', offset'⟩).result)
    (h' : second.Leads between after view' ends')
    (hloose : ∀ value text, ends value → between.loosens → LooseComma text →
      after.loosens ∧ second.Reads text text idles) :
    Alike after (Prod.map view view') (fun both => ends both.1 ∧ idles both.2 ∨ ends' both.2)
      ((seq first second).run ⟨text, offset⟩).result
      ((seq first second).run ⟨text', offset'⟩).result := by
  rw [result_seq, result_seq]
  refine h.bind ?_ ?_
  · intro a a' rest rest' stop stop' hview hrelates
    have hsecond := h' rest rest' hrelates stop stop'
    dsimp only
    generalize (second.run ⟨rest, stop⟩).result = result at hsecond ⊢
    generalize (second.run ⟨rest', stop'⟩).result = result' at hsecond ⊢
    cases hsecond with
    | refused => exact .refused
    | read hrelates hview' => exact .read hrelates (Prod.ext hview hview')
    | stopped hloosens hrest hends => exact .stopped hloosens hrest (.inr hends)
  · intro a last result' hloosens hlast hends
    obtain ⟨hloosens', hreads⟩ := hloose a last.rest hends hloosens hlast
    obtain ⟨b, stop, hresult, hb⟩ := hreads.exists_result last.offset
    change Alike _ _ _ (Option.map _ (second.run ⟨last.rest, last.offset⟩).result) _
    rw [hresult]
    exact .stopped hloosens' hlast (.inl ⟨hends, hb⟩)

theorem Tolerant.seq {idles : β → Prop} (h : first.Tolerant rewriting view ends)
    (h' : second.Tolerant rewriting view' ends')
    (hloose : ∀ text, LooseComma text → second.Reads text text idles) :
    (seq first second).Tolerant rewriting (Prod.map view view')
      fun both => ends both.1 ∧ idles both.2 ∨ ends' both.2 :=
  fun text text' hrelates offset offset' =>
    (h text text' hrelates offset offset').seq h' fun _ text _ hloosens hrest =>
      ⟨hloosens, hloose text hrest⟩

theorem Alike.seq_steady {offset offset' : Nat}
    (h : Alike between view (fun _ => False) (first.run ⟨text, offset⟩).result
      (first.run ⟨text', offset'⟩).result) (h' : second.Leads between after view' ends') :
    Alike after (Prod.map view view') (fun both => ends' both.2)
      ((Peg.seq first second).run ⟨text, offset⟩).result
      ((Peg.seq first second).run ⟨text', offset'⟩).result := by
  have hloose : ∀ (value : α) text, False → between.loosens → LooseComma text →
      after.loosens ∧ second.Reads text text fun _ => False := fun _ _ => False.elim
  simpa using h.seq h' hloose

theorem Leads.seq (h : first.Leads before between view fun _ => False)
    (h' : second.Leads between after view' ends') :
    (seq first second).Leads before after (Prod.map view view') fun both => ends' both.2 :=
  fun text text' hrelates offset offset' => (h text text' hrelates offset offset').seq_steady h'

theorem Leads.andThen (h : first.Leads before between view fun _ => False)
    (h' : second.Leads between after view' ends') :
    (first.andThen second).Leads before after view' ends' :=
  (h.seq h').map (fun _ _ heq => (Prod.mk.inj heq).2) fun _ => id

theorem Leads.followedBy (h : first.Leads before between view fun _ => False)
    (h' : second.Leads between after view' fun _ => False) :
    (first.followedBy second).Leads before after view fun _ => False :=
  (h.seq h').map (fun _ _ heq => (Prod.mk.inj heq).1) fun _ => id

theorem Steady.seq (h : first.Steady rewriting view) (h' : second.Steady rewriting view') :
    (seq first second).Steady rewriting (Prod.map view view') :=
  Leads.seq h h'

theorem Steady.andThen (h : first.Steady rewriting view) (h' : second.Steady rewriting view') :
    (first.andThen second).Steady rewriting view' :=
  Leads.andThen h h'

theorem Steady.followedBy (h : first.Steady rewriting view) (h' : second.Steady rewriting view') :
    (first.followedBy second).Steady rewriting view :=
  Leads.followedBy h h'

theorem Alike.or {first first' second second' : Option (α × Cursor)}
    (h : Alike rewriting view ends first first') (h' : Alike rewriting view ends second second') :
    Alike rewriting view ends (first.or second) (first'.or second') := by
  cases h with
  | refused => exact h'
  | read hrelates hview => exact .read hrelates hview
  | stopped hloosens hloose hends => exact .stopped hloosens hloose hends

theorem Leads.choice (h : peg.Leads before after view ends)
    (h' : other.Leads before after view ends) :
    (choice peg other).Leads before after view ends := by
  intro text text' hrelates offset offset'
  rw [result_choice, result_choice]
  exact (h text text' hrelates offset offset').or (h' text text' hrelates offset offset')

theorem Leads.named (h : peg.Leads before after view ends) :
    (named peg).Leads before after view ends :=
  h.congr fun _ => result_named _ _

/-- The place of what was read is another one in the rewritten text. -/
theorem Steady.located (h : peg.Steady rewriting view) :
    (located peg).Steady rewriting fun both => view both.1 := by
  intro text text' hrelates offset offset'
  rw [result_located, result_located]
  have hinner := h text text' hrelates offset offset'
  generalize (peg.run ⟨text, offset⟩).result = result at hinner ⊢
  generalize (peg.run ⟨text', offset'⟩).result = result' at hinner ⊢
  cases hinner with
  | refused => exact .refused
  | read hrelates hview => exact .read hrelates hview
  | stopped _ _ hno => exact hno.elim

/-- What is known of the values that are read may be used for what is seen of them. -/
theorem Steady.map_of_yields {f : α → β} {accepts : α → Prop} (h : peg.Steady rewriting view)
    (hyields : ∀ source, peg.Yields source accepts)
    (hview : ∀ a b, accepts a → accepts b → view a = view b → view' (f a) = view' (f b)) :
    (Peg.map f peg).Steady rewriting view' := by
  intro text text' hrelates offset offset'
  have hfirst := hyields text offset
  have hsecond := hyields text' offset'
  rw [result_map, result_map]
  have hinner := h text text' hrelates offset offset'
  generalize (peg.run ⟨text, offset⟩).result = result at hinner hfirst ⊢
  generalize (peg.run ⟨text', offset'⟩).result = result' at hinner hsecond ⊢
  cases hinner with
  | refused => exact .refused
  | read hrelates heq => exact .read hrelates (hview _ _ (hsecond _ _ rfl) (hfirst _ _ rfl) heq)
  | stopped _ _ hno => exact hno.elim

theorem Steady.map_id {f : α → β} (h : peg.Steady rewriting id) :
    (Peg.map f peg).Steady rewriting id :=
  h.map fun _ _ heq => congrArg f heq

/-- What is the same looks the same. -/
theorem Steady.seen (h : peg.Steady rewriting id) : peg.Steady rewriting view :=
  h.mono (fun _ _ heq => congrArg view heq) fun _ => id

theorem tolerant_pure (value : α) : (pure value).Tolerant rewriting view ends :=
  fun _ _ hrelates _ _ => .read hrelates rfl

theorem tolerant_fail : (fail : Peg α).Tolerant rewriting view ends := fun _ _ _ _ _ => .refused

theorem Tolerant.optional (h : peg.Tolerant rewriting view ends) :
    (optional peg).Tolerant rewriting (Option.map view) fun value => ∃ inner ∈ value, ends inner :=
  Leads.choice (h.map (fun _ _ heq => congrArg some heq) fun a ha => ⟨a, rfl, ha⟩)
    (tolerant_pure none)

theorem Steady.optional (h : peg.Steady rewriting view) :
    (optional peg).Steady rewriting (Option.map view) :=
  Leads.choice (h.map fun _ _ heq => congrArg some heq) (tolerant_pure none)

theorem Alike.of_reads {rest rest' : List Char} {accepts accepts' : α → Prop}
    (h : peg.Reads text rest accepts) (h' : peg.Reads text' rest' accepts')
    (hrelates : rewriting.relates rest rest')
    (hview : ∀ a a', accepts a → accepts' a' → view a' = view a) (offset offset' : Nat) :
    Alike rewriting view ends (peg.run ⟨text, offset⟩).result
      (peg.run ⟨text', offset'⟩).result := by
  obtain ⟨a, stop, hresult, ha⟩ := h.exists_result offset
  obtain ⟨a', stop', hresult', ha'⟩ := h'.exists_result offset'
  rw [hresult, hresult']
  exact .read hrelates (hview a a' ha ha')

theorem Alike.of_refuses (h : peg.Refuses text) (h' : peg.Refuses text') (offset offset' : Nat) :
    Alike rewriting view ends (peg.run ⟨text, offset⟩).result
      (peg.run ⟨text', offset'⟩).result := by
  rw [h offset, h' offset']
  exact .refused

/-- Where nothing is loosened, the rewritten text can be read if the text can. -/
theorem Tolerant.exists_result (h : peg.Tolerant rewriting view ends)
    (hloosens : ¬ rewriting.loosens) {offset : Nat} {value : α} {next : Cursor}
    (hresult : (peg.run ⟨text, offset⟩).result = some (value, next))
    (hrelates : rewriting.relates text text') (offset' : Nat) :
    ∃ value' rest' stop', (peg.run ⟨text', offset'⟩).result = some (value', ⟨rest', stop'⟩) ∧
      rewriting.relates next.rest rest' ∧ view value' = view value := by
  have halike := h text text' hrelates offset offset'
  rw [hresult] at halike
  generalize (peg.run ⟨text', offset'⟩).result = result' at halike
  cases halike with
  | read hrelates hview => exact ⟨_, _, _, rfl, hrelates, hview⟩
  | stopped hno => exact absurd hno hloosens

end Rules

/-! ### Characters that stay -/

end Peg

/-- The character begins the rewritten text just where it begins the text, and what stands behind it
is rewritten in the same way. -/
structure Rewriting.Passes (rewriting : Rewriting) (c : Char) : Prop where
  head : ∀ {text text'}, rewriting.relates text text' →
    (text'.head? = some c ↔ text.head? = some c)
  tail : ∀ {rest rest'}, rewriting.relates (c :: rest) (c :: rest') → rewriting.relates rest rest'

theorem passes_nothing (c : Char) : Rewriting.nothing.Passes c where
  head := by
    intro text text' hrelates
    obtain rfl : text' = text := hrelates
    exact Iff.rfl
  tail hrelates := (List.cons.inj hrelates).2

namespace Peg

variable {α β γ δ : Type} {rewriting : Rewriting} {text text' : List Char}

/-- Whether the expression takes and forbids none of the given characters, and repeats nothing. -/
def avoids (marks : List Char) : {α : Type} → Peg α → Bool
  | _, pure _ => true
  | _, fail => true
  | _, token text => text.all (!marks.contains ·)
  | _, chars accepts _ _ => marks.all (!accepts ·)
  | _, notNext forbids => marks.all (!forbids ·)
  | _, map _ inner => inner.avoids marks
  | _, seq first second => first.avoids marks && second.avoids marks
  | _, choice first second => first.avoids marks && second.avoids marks
  | _, named inner => inner.avoids marks
  | _, _ => false

/-- A word whose characters stay begins both texts or neither. -/
theorem cut_of_passes {word : List Char} (h : ∀ c ∈ word, rewriting.Passes c)
    (hrelates : rewriting.relates text text') :
    (∃ rest rest', text = word ++ rest ∧ text' = word ++ rest' ∧ rewriting.relates rest rest') ∨
      ¬ word <+: text ∧ ¬ word <+: text' := by
  induction word generalizing text text' with
  | nil => exact .inl ⟨text, text', rfl, rfl, hrelates⟩
  | cons c word ih =>
    obtain ⟨hc, hword⟩ := List.forall_mem_cons.1 h
    by_cases hhead : text.head? = some c
    · obtain ⟨rest, rfl⟩ := List.head?_eq_some_iff.1 hhead
      obtain ⟨rest', rfl⟩ := List.head?_eq_some_iff.1 ((hc.head hrelates).2 hhead)
      rcases ih hword (hc.tail hrelates) with ⟨more, more', rfl, rfl, hmore⟩ | ⟨hno, hno'⟩
      · exact .inl ⟨more, more', rfl, rfl, hmore⟩
      · exact .inr ⟨mt (List.prefix_cons_inj c).1 hno, mt (List.prefix_cons_inj c).1 hno'⟩
    · have hother : ∀ {text : List Char}, text.head? ≠ some c → ¬ c :: word <+: text := by
        rintro _ hno ⟨more, rfl⟩
        exact hno rfl
      exact .inr ⟨hother hhead, hother (mt (hc.head hrelates).1 hhead)⟩

theorem refuses_token_head {c : Char} (h : text.head? ≠ some c) : (token [c]).Refuses text := by
  cases text with
  | nil => exact refuses_token_nil
  | cons d text => exact refuses_token_cons fun heq => h (congrArg some heq.symm)

theorem steady_token {word : List Char} (h : ∀ c ∈ word, rewriting.Passes c) :
    (token word).Steady rewriting id := by
  intro text text' hrelates offset offset'
  rcases cut_of_passes h hrelates with ⟨rest, rest', rfl, rfl, hrest⟩ | ⟨hno, hno'⟩
  · exact .of_reads (@reads_token word rest (fun _ => True) trivial)
      (@reads_token word rest' (fun _ => True) trivial) hrest (fun _ _ _ _ => rfl) _ _
  · exact .of_refuses (refuses_token hno) (refuses_token hno') _ _

/-- As many characters of a class that stay are taken from the rewritten text as from the text. -/
theorem taken_of_passes {accepts : Char → Bool} (h : ∀ c, accepts c = true → rewriting.Passes c)
    (most : Option Nat) (hrelates : rewriting.relates text text') :
    ∃ taken rest rest', text = taken ++ rest ∧ text' = taken ++ rest' ∧
      rewriting.relates rest rest' ∧ (most.elim text text.take).takeWhile accepts = taken ∧
      (most.elim text' text'.take).takeWhile accepts = taken := by
  have hnone : ∀ {text : List Char} (most : Option Nat), (∀ c ∈ text.head?, accepts c = false) →
      (most.elim text text.take).takeWhile accepts = [] := by
    intro text most hhead
    cases text with
    | nil => cases most <;> simp
    | cons c text =>
      have hc : accepts c = false := hhead c rfl
      cases most with
      | none => simp [hc]
      | some limit => cases limit <;> simp [hc]
  induction text generalizing text' most with
  | nil =>
    refine ⟨[], [], text', rfl, rfl, hrelates, hnone most nofun, hnone most fun c hc => ?_⟩
    exact Bool.not_eq_true _ ▸ fun haccepts => nomatch ((h c haccepts).head hrelates).1 hc
  | cons c text ih =>
    cases haccepts : accepts c with
    | false =>
      have hother : ∀ d ∈ text'.head?, accepts d = false := fun d hd =>
        Bool.not_eq_true _ ▸ fun htrue => by
          obtain rfl := Option.some.inj (((h d htrue).head hrelates).1 hd)
          rw [haccepts] at htrue
          cases htrue
      exact ⟨[], c :: text, text', rfl, rfl, hrelates, hnone most (by rintro _ ⟨⟩; exact haccepts),
        hnone most hother⟩
    | true =>
      obtain ⟨rest', rfl⟩ := List.head?_eq_some_iff.1 (((h c haccepts).head hrelates).2 rfl)
      have hrest := (h c haccepts).tail hrelates
      match most with
      | some 0 => exact ⟨[], _, _, rfl, rfl, hrelates, rfl, rfl⟩
      | none =>
        obtain ⟨taken, more, more', rfl, rfl, hmore, htaken, htaken'⟩ := ih none hrest
        exact ⟨c :: taken, more, more', rfl, rfl, hmore, by simpa [haccepts] using htaken,
          by simpa [haccepts] using htaken'⟩
      | some (limit + 1) =>
        obtain ⟨taken, more, more', rfl, rfl, hmore, htaken, htaken'⟩ := ih (some limit) hrest
        exact ⟨c :: taken, more, more', rfl, rfl, hmore, by simpa [haccepts] using htaken,
          by simpa [haccepts] using htaken'⟩

theorem steady_chars {accepts : Char → Bool} (h : ∀ c, accepts c = true → rewriting.Passes c)
    (least : Nat) (most : Option Nat) : (chars accepts least most).Steady rewriting id := by
  intro text text' hrelates offset offset'
  obtain ⟨taken, rest, rest', rfl, rfl, hrest, htaken, htaken'⟩ := taken_of_passes h most hrelates
  rw [result_chars, result_chars]
  dsimp only
  rw [htaken, htaken']
  split
  · rw [Cursor.drop, Cursor.drop]
    dsimp only
    rw [List.drop_left, List.drop_left]
    exact .read hrest rfl
  · exact .refused

theorem steady_notNext {forbids : Char → Bool} (h : ∀ c, forbids c = true → rewriting.Passes c) :
    (notNext forbids).Steady rewriting id := by
  intro text text' hrelates offset offset'
  have hsame : text'.head?.any forbids = text.head?.any forbids := by
    rw [Bool.eq_iff_iff, Option.any_eq_true, Option.any_eq_true]
    exact exists_congr fun c => and_congr_left fun hc => (h c hc).head hrelates
  rw [result_notNext, result_notNext]
  dsimp only
  rw [hsame]
  split
  · exact .refused
  · exact .read hrelates rfl

/-- Where all characters but some marks stay, what avoids the marks is steady. -/
theorem steady_of_avoids {marks : List Char} (h : ∀ c ∉ marks, rewriting.Passes c) {peg : Peg α}
    (havoids : peg.avoids marks = true) : peg.Steady rewriting id := by
  have hclass : ∀ {accepts : Char → Bool}, marks.all (!accepts ·) = true → ∀ c,
      accepts c = true → rewriting.Passes c := by
    refine fun hall c hc => h c fun hmem => ?_
    have := List.all_eq_true.1 hall c hmem
    simp [hc] at this
  induction peg with
  | pure => exact tolerant_pure _
  | fail => exact tolerant_fail
  | token word =>
    exact steady_token fun c hc => h c (by simpa using List.all_eq_true.1 havoids c hc)
  | chars accepts least most => exact steady_chars (hclass havoids) least most
  | notNext forbids => exact steady_notNext (hclass havoids)
  | endOfText => cases havoids
  | map f inner ih => exact (ih havoids).map fun _ _ heq => congrArg f heq
  | seq first second ih ih' =>
    obtain ⟨hfirst, hsecond⟩ := Bool.and_eq_true_iff.1 havoids
    exact ((ih hfirst).seq (ih' hsecond)).mono (fun _ _ => id) fun _ => id
  | choice first second ih ih' =>
    obtain ⟨hfirst, hsecond⟩ := Bool.and_eq_true_iff.1 havoids
    exact (ih hfirst).choice (ih' hsecond)
  | many => cases havoids
  | named inner ih => exact (ih havoids).named
  | located => cases havoids

/-! ### From one rewriting to another -/

section Leads

variable {before after : Rewriting} {peg : Peg α} {view : α → γ} {ends : α → Prop}

theorem Alike.widen {result result' : Option (α × Cursor)}
    (h : Alike before view ends result result')
    (hwider : ∀ {text text'}, before.relates text text' → after.relates text text')
    (hloosens : before.loosens → after.loosens) : Alike after view ends result result' := by
  cases h with
  | refused => exact .refused
  | read hrelates hview => exact .read (hwider hrelates) hview
  | stopped hloose hrest hends => exact .stopped (hloosens hloose) hrest hends

theorem Leads.widen {later : Rewriting} (h : peg.Leads before after view ends)
    (hwider : ∀ {text text'}, after.relates text text' → later.relates text text')
    (hloosens : after.loosens → later.loosens) : peg.Leads before later view ends :=
  fun text text' hrelates offset offset' =>
    (h text text' hrelates offset offset').widen hwider hloosens

theorem Leads.narrow {earlier : Rewriting} (h : peg.Leads before after view ends)
    (hnarrower : ∀ {text text'}, earlier.relates text text' → before.relates text text') :
    peg.Leads earlier after view ends :=
  fun text text' hrelates offset offset' => h text text' (hnarrower hrelates) offset offset'

theorem leads_token {c : Char}
    (hhead : ∀ {text text'}, before.relates text text' →
      (text'.head? = some c ↔ text.head? = some c))
    (htail : ∀ {rest rest'}, before.relates (c :: rest) (c :: rest') → after.relates rest rest') :
    (token [c]).Leads before after id fun _ => False := by
  intro text text' hrelates offset offset'
  by_cases hc : text.head? = some c
  · obtain ⟨rest, rfl⟩ := List.head?_eq_some_iff.1 hc
    obtain ⟨rest', rfl⟩ := List.head?_eq_some_iff.1 ((hhead hrelates).2 hc)
    exact .of_reads (reads_token_cons c rest) (reads_token_cons c rest') (htail hrelates)
      (fun _ _ _ _ => rfl) _ _
  · exact .of_refuses (refuses_token_head hc) (refuses_token_head (mt (hhead hrelates).1 hc)) _ _

end Leads

/-! ### Blanks -/

theorem reads_someSpace_dropWhile (text : List Char) :
    someSpace.Reads (' ' :: text) (text.dropWhile (· == ' ')) fun _ => True :=
  Ends.andThen (reads_token_cons ' ' text) (reads_spaces text)

/-- Unless a blank comes first, no blanks are read. -/
theorem refuses_someSpace_head (h : text.head? ≠ some ' ') : someSpace.Refuses text := by
  cases text with
  | nil => exact Refuses.andThen refuses_token_nil
  | cons c text => exact Refuses.andThen (refuses_space fun heq => h (by rw [heq]; rfl))

variable {peg : Peg α} {view : α → γ} {ends : α → Prop}

theorem refuses_behindSpace (h : peg.Refuses (text.dropWhile (· == ' '))) :
    (someSpace.andThen peg).Refuses text := by
  by_cases hhead : text.head? = some ' '
  · obtain ⟨rest, rfl⟩ := List.head?_eq_some_iff.1 hhead
    exact Refuses.andThen_right (reads_someSpace_dropWhile rest) h
  · exact Refuses.andThen (refuses_someSpace_head hhead)

theorem steady_spaces (h : ∀ {text text'}, rewriting.relates text text' →
    rewriting.relates (text.dropWhile (· == ' ')) (text'.dropWhile (· == ' '))) :
    spaces.Steady rewriting id := fun text text' hrelates =>
  .of_reads (reads_spaces text) (reads_spaces text') (h hrelates) fun _ _ _ _ => rfl

/-- A mark is refused where another character comes behind the blanks. -/
theorem refuses_spaced_head {mark : String} {c : Char} (hmark : mark.toList = [c])
    (h : (text.dropWhile (· == ' ')).head? ≠ some c) : (spaced mark).Refuses text := by
  refine refuses_spaced_dropWhile fun hprefix => h ?_
  obtain ⟨more, hmore⟩ := hprefix
  rw [← hmore, hmark]
  rfl

/-! ### Loose commas -/

theorem refuses_behindSpace_loose (h : LooseComma text) (hidle : peg.idle = false)
    (hcomma : peg.opens ',' = false) : (someSpace.andThen peg).Refuses text := by
  obtain ⟨rest, hrest, -⟩ := h
  apply refuses_behindSpace
  rw [hrest]
  exact refuses_of_opens hidle (by rintro _ ⟨⟩; exact hcomma)

theorem refuses_behindComma_loose (h : LooseComma text) (hidle : peg.idle = false)
    (hblank : peg.opens ' ' = false) : ((token [',']).andThen peg).Refuses text := by
  obtain ⟨rest, hrest, hside⟩ := h
  by_cases hhead : text.head? = some ' '
  · obtain ⟨rest, rfl⟩ := List.head?_eq_some_iff.1 hhead
    exact Refuses.andThen (refuses_token_cons (by decide))
  · have htext : text = ',' :: rest := by
      rw [← hrest]
      cases text with
      | nil => rfl
      | cons c text =>
        have hc : c ≠ ' ' := fun heq => hhead (congrArg some heq)
        exact (List.dropWhile_cons_of_neg (by simpa using hc)).symm
    subst htext
    refine Refuses.andThen_right (reads_token_cons ',' rest) (refuses_of_opens hidle ?_)
    intro c hc
    obtain rfl := Option.some.inj (hc.symm.trans (hside.resolve_left hhead))
    exact hblank

theorem reads_optional_loose (h : LooseComma text) (hidle : peg.idle = false)
    (hcomma : peg.opens ',' = false) :
    (Peg.optional (someSpace.andThen peg)).Reads text text (· = none) :=
  reads_optional_none (refuses_behindSpace_loose h hidle hcomma) rfl

theorem reads_afterComma_loose {items : Peg (List α)} (h : LooseComma text)
    (hidle : items.idle = false) (hblank : items.opens ' ' = false) :
    (afterComma items).Reads text text (· = []) := by
  have hnone : (Peg.optional ((token [',']).andThen items)).Reads text text (· = none) :=
    reads_optional_none (refuses_behindComma_loose h hidle hblank) rfl
  exact hnone.map fun _ heq => by rw [heq]; rfl

/-! ### Lists -/

/-- A repetition is read alike up to a loose comma at which no more repetitions are read. -/
theorem tolerant_many {loose : Prop} (hconsumes : peg.Consumes)
    (h : ∀ text text', rewriting.relates text text' →
      loose ∧ rewriting.loosens ∧ LooseComma text ∧ peg.Refuses text ∨ ∀ offset offset',
        Alike rewriting view (fun _ => False) (peg.run ⟨text, offset⟩).result
          (peg.run ⟨text', offset'⟩).result) :
    (many peg).Tolerant rewriting (List.map view) fun _ => loose := by
  intro text
  induction hlength : text.length using Nat.strongRecOn generalizing text with
  | ind length ih =>
    intro text' hrelates offset offset'
    rw [result_many hconsumes, result_many hconsumes ⟨text', offset'⟩]
    rcases h text text' hrelates with ⟨hmay, hloosens, hloose, hrefuses⟩ | hstep
    · rw [hrefuses offset]
      exact .stopped hloosens hloose hmay
    · have hstep := hstep offset offset'
      have hlt := hconsumes ⟨text, offset⟩
      generalize (peg.run ⟨text, offset⟩).result = result at hstep hlt ⊢
      generalize (peg.run ⟨text', offset'⟩).result = result' at hstep ⊢
      cases hstep with
      | refused => exact .read hrelates rfl
      | stopped _ _ hno => exact hno.elim
      | @read a a' rest rest' stop stop' hrest hview =>
        have hlater := ih rest.length (hlength ▸ hlt a _ rfl) rest rfl rest' hrest stop stop'
        dsimp only
        generalize ((many peg).run ⟨rest, stop⟩).result = result at hlater ⊢
        generalize ((many peg).run ⟨rest', stop'⟩).result = result' at hlater ⊢
        cases hlater with
        | refused => exact .refused
        | read hmore hviews =>
          exact .read hmore (by rw [List.map_cons, List.map_cons, hview, hviews])
        | stopped hloosens hloose hmay => exact .stopped hloosens hloose hmay

theorem Steady.many (h : peg.Steady rewriting view) (hconsumes : peg.Consumes) :
    (many peg).Steady rewriting (List.map view) :=
  tolerant_many hconsumes fun text text' hrelates => .inr (h text text' hrelates)

theorem Steady.separatedBy {separator : Peg β} {view' : β → δ} (h : peg.Steady rewriting view)
    (h' : separator.Steady rewriting view') (hconsumes : separator.Consumes) :
    (separatedBy peg separator).Steady rewriting (List.map view) :=
  (h.seq ((h'.andThen h).many hconsumes.andThen)).map fun _ _ heq =>
    congrArg₂ List.cons (Prod.mk.inj heq).1 (Prod.mk.inj heq).2

end Peg

/-- Behind a comma, unless it is a loose one, both texts are read alike. -/
def Rewriting.KeepsCommas (rewriting : Rewriting) : Prop :=
  ∀ {α γ : Type} {peg : Peg α} {view : α → γ} {ends : α → Prop},
    peg.Tolerant rewriting view ends → ∀ {text text' : List Char}, rewriting.relates text text' →
      ¬ (rewriting.loosens ∧ LooseComma text) → ∀ offset offset' : Nat,
        Peg.Alike rewriting view ends (((Peg.token [',']).andThen peg).run ⟨text, offset⟩).result
          (((Peg.token [',']).andThen peg).run ⟨text', offset'⟩).result

namespace Peg

variable {α β γ δ : Type} {rewriting : Rewriting} {text text' : List Char} {peg : Peg α}
  {view : α → γ} {ends : α → Prop}

theorem keepsCommas_of_passes (h : rewriting.Passes ',') : rewriting.KeepsCommas :=
  fun hpeg _ _ hrelates _ =>
    Leads.andThen (steady_token (List.forall_mem_singleton.2 h)) hpeg _ _ hrelates

theorem Steady.manyBehindCommas (h : peg.Steady rewriting view) (hkeeps : rewriting.KeepsCommas)
    (hidle : peg.idle = false) (hblank : peg.opens ' ' = false) :
    (Peg.many ((token [',']).andThen peg)).Tolerant rewriting (List.map view) fun _ => True := by
  refine tolerant_many consumes_comma.andThen fun text text' hrelates => ?_
  by_cases hloose : rewriting.loosens ∧ LooseComma text
  · exact .inl ⟨trivial, hloose.1, hloose.2, refuses_behindComma_loose hloose.2 hidle hblank⟩
  · exact .inr (hkeeps h hrelates hloose)

/-- A list with commas is read up to the first loose one. -/
theorem Steady.commaList (h : peg.Steady rewriting view) (hkeeps : rewriting.KeepsCommas)
    (hidle : peg.idle = false) (hblank : peg.opens ' ' = false) :
    (Peg.separatedBy peg (token [','])).Tolerant rewriting (List.map view) fun _ => True :=
  (Leads.seq h (h.manyBehindCommas hkeeps hidle hblank)).map
    (fun _ _ heq => congrArg₂ List.cons (Prod.mk.inj heq).1 (Prod.mk.inj heq).2) fun _ => id

theorem Tolerant.afterComma {items : Peg (List α)}
    (h : items.Tolerant rewriting (List.map view) fun _ => True) (hkeeps : rewriting.KeepsCommas)
    (hidle : items.idle = false) (hblank : items.opens ' ' = false) :
    (afterComma items).Tolerant rewriting (List.map view) fun _ => True := by
  intro text text' hrelates offset offset'
  by_cases hloose : rewriting.loosens ∧ LooseComma text
  · obtain ⟨_, stop, hresult, -⟩ :=
      (reads_afterComma_loose hloose.2 hidle hblank).exists_result offset
    rw [hresult]
    exact .stopped hloose.1 hloose.2 trivial
  · have hitems := hkeeps h hrelates hloose offset offset'
    rw [Grammar.afterComma, result_map, result_map, Peg.optional, result_choice, result_choice,
      result_map, result_map]
    generalize (((token [',']).andThen items).run ⟨text, offset⟩).result = result at hitems ⊢
    generalize (((token [',']).andThen items).run ⟨text', offset'⟩).result = result' at hitems ⊢
    cases hitems with
    | refused => exact .read hrelates rfl
    | read hrest hview => exact .read hrest hview
    | stopped hloosens hrest _ => exact .stopped hloosens hrest trivial

/-! ### What is enclosed -/

/-- What stands between two marks is read up to the first place of the second one. -/
theorem reads_enclosed (first : Char) {last : Char} {body : List Char} (h : last ∉ body)
    (rest : List Char) :
    ((token [first]).andThen ((chars (· != last) 0 none).followedBy (token [last]))).Reads
      (first :: (body ++ last :: rest)) rest (· = body) := by
  refine Ends.andThen (reads_token_cons first _) (Ends.followedBy ?_ (reads_token_cons last rest))
  refine reads_chars (fun c hc => bne_iff_ne.2 fun heq => h (heq ▸ hc)) (Nat.zero_le _) nofun
    (.inl ?_) rfl
  rintro _ ⟨⟩
  exact bne_self_eq_false last

/-- Without its end, nothing is read. -/
theorem refuses_enclosed (first : Char) {last : Char} (h : last ∉ text) :
    ((token [first]).andThen ((chars (· != last) 0 none).followedBy (token [last]))).Refuses
      (first :: text) := by
  have htaken : (chars (· != last) 0 none).Reads (text ++ []) [] (· = text) :=
    reads_chars (fun c hc => bne_iff_ne.2 fun heq => h (heq ▸ hc)) (Nat.zero_le _) nofun
      (.inl nofun) rfl
  rw [List.append_nil] at htaken
  exact Refuses.andThen_right (reads_token_cons first _)
    (Refuses.followedBy_right htaken refuses_token_nil)

/-! ### The order of blanks -/

theorem result_seq_followedBy (first : Peg α) (between : Peg γ) (second : Peg β) (cursor : Cursor) :
    ((seq (first.followedBy between) second).run cursor).result =
      ((seq first (between.andThen second)).run cursor).result := by
  rw [result_seq, result_seq, result_followedBy]
  cases (first.run cursor).result with
  | none => rfl
  | some r =>
    simp only [Option.bind_some, result_andThen]
    cases (between.run r.2).result <;> rfl

theorem result_andThen_andThen (first : Peg α) (between : Peg γ) (second : Peg β)
    (cursor : Cursor) :
    (((first.andThen between).andThen second).run cursor).result =
      ((first.andThen (between.andThen second)).run cursor).result := by
  rw [result_andThen, result_andThen, result_andThen]
  cases (first.run cursor).result with
  | none => rfl
  | some r => rw [Option.bind_some, Option.bind_some, result_andThen]

theorem result_andThen_seq (between : Peg γ) (first : Peg α) (second : Peg β) (cursor : Cursor) :
    ((between.andThen (seq first second)).run cursor).result =
      ((seq (between.andThen first) second).run cursor).result := by
  rw [result_andThen, result_seq, result_andThen]
  cases (between.run cursor).result with
  | none => rfl
  | some r => rw [Option.bind_some, Option.bind_some, result_seq]

/-- Something optional before an expression that does not begin like it. -/
theorem result_seq_optional {lead : Peg α} {second : Peg β} (hidle : lead.idle = false)
    (hidle' : second.idle = false)
    (hopens : ∀ c, lead.opens c = true → second.opens c = false) (cursor : Cursor) :
    ((seq (optional lead) second).run cursor).result =
      ((choice (map (fun both => (some both.1, both.2)) (seq lead second))
        (map (fun value => (none, value)) second)).run cursor).result := by
  rw [result_seq, Peg.optional, result_choice, result_choice, result_map, result_map, result_map,
    result_seq]
  cases hlead : (lead.run cursor).result with
  | none =>
    rw [Option.map_none, Option.none_or, Option.bind_none, Option.map_none, Option.none_or]
    rfl
  | some r =>
    have hrefuses : second.Refuses cursor.rest := by
      refine refuses_of_opens hidle' fun c hc => ?_
      rcases opened_of_result hlead with ⟨-, hidle''⟩ | ⟨d, hd, hd'⟩
      · rw [hidle] at hidle''
        cases hidle''
      · obtain rfl := Option.some.inj (hd.symm.trans hc)
        exact hopens d hd'
    have hnone : (second.run cursor).result = none := hrefuses cursor.offset
    rw [Option.map_some, Option.some_or, Option.bind_some, Option.bind_some, hnone,
      Option.map_none, Option.or_none]
    cases (second.run r.2).result <;> rfl

end Peg

end Timetable.Grammar
