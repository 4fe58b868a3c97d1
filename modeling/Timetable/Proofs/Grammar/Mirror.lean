import Mathlib.Data.List.Forall2
import Timetable.Proofs.Grammar.Reads

/-!
Two expressions that read alike.

`Peg.Mirrors` relates two expressions with values of different types. From every place, both fit or
neither does, they stop at the same place and look for named parts as far, and their values are
related. Each way to put expressions together keeps this, so that a grammar mirrors another one as
soon as its parts do.
-/

namespace Timetable.Grammar

variable {α β γ δ : Type}

/-- Two outcomes with the same places, and values that are related. -/
inductive Outcome.Mirrors (R : α → β → Prop) : Outcome α → Outcome β → Prop
  | fit {furthest : Nat} {a : α} {b : β} {stop : Cursor} : R a b →
      Mirrors R ⟨furthest, some (a, stop)⟩ ⟨furthest, some (b, stop)⟩
  | misfit {furthest : Nat} : Mirrors R ⟨furthest, none⟩ ⟨furthest, none⟩

namespace Outcome

variable {R : α → β → Prop} {S : γ → δ → Prop} {outcome : Outcome α} {outcome' : Outcome β}

theorem Mirrors.andThen {next : α → Cursor → Outcome γ} {next' : β → Cursor → Outcome δ}
    (h : outcome.Mirrors R outcome')
    (hnext : ∀ a b stop, R a b → (next a stop).Mirrors S (next' b stop)) :
    (outcome.andThen next).Mirrors S (outcome'.andThen next') := by
  cases h with
  | misfit => exact .misfit
  | @fit _ a b stop hvalue =>
    have hlater := hnext a b stop hvalue
    simp only [Outcome.andThen]
    revert hlater
    generalize next a stop = later
    generalize next' b stop = later'
    rintro (hlast | _)
    · exact .fit hlast
    · exact .misfit

theorem Mirrors.orElse {next : Unit → Outcome α} {next' : Unit → Outcome β}
    (h : outcome.Mirrors R outcome') (hnext : (next ()).Mirrors R (next' ())) :
    (outcome.orElse next).Mirrors R (outcome'.orElse next') := by
  cases h with
  | fit hvalue => exact .fit hvalue
  | misfit =>
    simp only [Outcome.orElse]
    revert hnext
    generalize next () = later
    generalize next' () = later'
    rintro (hlast | _)
    · exact .fit hlast
    · exact .misfit

theorem Mirrors.noteFailure (h : outcome.Mirrors R outcome') (offset : Nat) :
    (outcome.noteFailure offset).Mirrors R (outcome'.noteFailure offset) := by
  cases h with
  | fit hvalue => exact .fit hvalue
  | misfit => exact .misfit

/-- A change of the value alone. -/
theorem andThen_success (outcome : Outcome α) (f : α → Cursor → γ) :
    (outcome.andThen fun value stop => .success (f value stop) stop) =
      ⟨outcome.furthest, outcome.result.map fun r => (f r.1 r.2, r.2)⟩ := by
  obtain ⟨furthest, _ | ⟨value, stop⟩⟩ := outcome
  · rfl
  · simp [Outcome.andThen, Outcome.success]

theorem Mirrors.change_left {S : γ → β → Prop} (h : outcome.Mirrors R outcome')
    (f : α → Cursor → γ)
    (hf : ∀ a b stop, outcome'.result = some (b, stop) → R a b → S (f a stop) b) :
    Mirrors S ⟨outcome.furthest, outcome.result.map fun r => (f r.1 r.2, r.2)⟩ outcome' := by
  cases h with
  | fit hvalue => exact .fit (hf _ _ _ rfl hvalue)
  | misfit => exact .misfit

theorem Mirrors.change_right {S : α → δ → Prop} (h : outcome.Mirrors R outcome')
    (g : β → Cursor → δ)
    (hg : ∀ a b stop, outcome.result = some (a, stop) → R a b → S a (g b stop)) :
    outcome.Mirrors S ⟨outcome'.furthest, outcome'.result.map fun r => (g r.1 r.2, r.2)⟩ := by
  cases h with
  | fit hvalue => exact .fit (hg _ _ _ rfl hvalue)
  | misfit => exact .misfit

end Outcome

theorem mirrors_repeatStep {R : α → β → Prop} {step : Cursor → Outcome α}
    {step' : Cursor → Outcome β} (h : ∀ cursor, (step cursor).Mirrors R (step' cursor))
    (fuel : Nat) (cursor : Cursor) :
    (repeatStep step fuel cursor).Mirrors (List.Forall₂ R) (repeatStep step' fuel cursor) := by
  induction fuel generalizing cursor with
  | zero => exact .fit .nil
  | succ fuel ih =>
    refine Outcome.Mirrors.orElse ((h cursor).andThen fun _ _ stop hvalue => ?_) (.fit .nil)
    exact (ih stop).andThen fun _ _ _ hvalues => .fit (.cons hvalue hvalues)

namespace Peg

/-- From every place, the two expressions come out alike. -/
def Mirrors (R : α → β → Prop) (peg : Peg α) (peg' : Peg β) : Prop :=
  ∀ cursor, (peg.run cursor).Mirrors R (peg'.run cursor)

section Rules

variable {R : α → β → Prop} {S : γ → δ → Prop} {peg other : Peg α} {peg' other' : Peg β}
  {second : Peg γ} {second' : Peg δ}

theorem Mirrors.mono {S : α → β → Prop} (h : peg.Mirrors R peg') (hmono : ∀ a b, R a b → S a b) :
    peg.Mirrors S peg' := by
  intro cursor
  have hrun := h cursor
  revert hrun
  generalize peg.run cursor = outcome
  generalize peg'.run cursor = outcome'
  rintro (hvalue | _)
  · exact .fit (hmono _ _ hvalue)
  · exact .misfit

theorem mirrors_self (peg : Peg α) : peg.Mirrors Eq peg := by
  intro cursor
  generalize peg.run cursor = outcome
  obtain ⟨furthest, _ | ⟨value, stop⟩⟩ := outcome
  · exact .misfit
  · exact .fit rfl

theorem mirrors_fail : (fail : Peg α).Mirrors R (fail : Peg β) := fun _ => .misfit

theorem mirrors_pure {a : α} {b : β} (h : R a b) : (pure a).Mirrors R (pure b) := fun _ => .fit h

/-- A value is changed on one side alone. -/
theorem Mirrors.map_left {f : α → γ} {S : γ → β → Prop} (h : peg.Mirrors R peg')
    (hf : ∀ a b, R a b → S (f a) b) : (Peg.map f peg).Mirrors S peg' := by
  intro cursor
  rw [run, Outcome.andThen_success]
  exact (h cursor).change_left (fun a _ => f a) fun _ _ _ _ hvalue => hf _ _ hvalue

theorem Mirrors.map_right {g : β → δ} {S : α → δ → Prop} (h : peg.Mirrors R peg')
    (hg : ∀ a b, R a b → S a (g b)) : peg.Mirrors S (Peg.map g peg') := by
  intro cursor
  rw [run, Outcome.andThen_success]
  exact (h cursor).change_right (fun b _ => g b) fun _ _ _ _ hvalue => hg _ _ hvalue

theorem Mirrors.seq (h : peg.Mirrors R peg') (h' : second.Mirrors S second') :
    (seq peg second).Mirrors (fun p q => R p.1 q.1 ∧ S p.2 q.2) (Peg.seq peg' second') :=
  fun cursor => (h cursor).andThen fun _ _ stop hvalue =>
    (h' stop).andThen fun _ _ _ hvalue' => .fit ⟨hvalue, hvalue'⟩

theorem Mirrors.choice (h : peg.Mirrors R peg') (h' : other.Mirrors R other') :
    (choice peg other).Mirrors R (Peg.choice peg' other') :=
  fun cursor => (h cursor).orElse (h' cursor)

theorem Mirrors.many (h : peg.Mirrors R peg') :
    (many peg).Mirrors (List.Forall₂ R) (Peg.many peg') :=
  fun cursor => mirrors_repeatStep h _ cursor

theorem Mirrors.named (h : peg.Mirrors R peg') : (named peg).Mirrors R (Peg.named peg') :=
  fun cursor => (h cursor).noteFailure _

theorem Mirrors.located (h : peg.Mirrors R peg') :
    (located peg).Mirrors (fun p q => R p.1 q.1 ∧ p.2 = q.2) (Peg.located peg') :=
  fun cursor => (h cursor).andThen fun _ _ _ hvalue => .fit ⟨hvalue, rfl⟩

/-- The text that was read is added on one side alone. -/
theorem Mirrors.located_left (h : peg.Mirrors R peg') :
    (Peg.located peg).Mirrors (fun p b => R p.1 b) peg' := by
  intro cursor
  rw [run, Outcome.andThen_success]
  exact (h cursor).change_left (fun a stop => (a, cursor.fragmentTo stop))
    fun _ _ _ _ hvalue => hvalue

/-- The text that was read is added on the other side alone. -/
theorem Mirrors.located_right {S : α → β × Fragment → Prop} (h : peg.Mirrors R peg')
    (hvalue : ∀ cursor a b stop, (peg.run cursor).result = some (a, stop) → R a b →
      S a (b, cursor.fragmentTo stop)) : peg.Mirrors S (Peg.located peg') := by
  intro cursor
  rw [run, Outcome.andThen_success]
  exact (h cursor).change_right (fun b stop => (b, cursor.fragmentTo stop))
    fun _ _ _ hresult hrelated => hvalue _ _ _ _ hresult hrelated

end Rules

/-! ### The text that was read -/

/-- Whatever is read from a place, the text and the value are related. -/
def Spells (P : List Char → α → Prop) (peg : Peg α) : Prop :=
  ∀ cursor value stop, (peg.run cursor).result = some (value, stop) →
    ∃ text, cursor.rest = text ++ stop.rest ∧ P text value

section Spells

variable {P Q : List Char → α → Prop} {peg other : Peg α}

theorem Spells.mono (h : peg.Spells P) (hmono : ∀ text value, P text value → Q text value) :
    peg.Spells Q := by
  intro cursor value stop hresult
  obtain ⟨text, hrest, hvalue⟩ := h cursor value stop hresult
  exact ⟨text, hrest, hmono _ _ hvalue⟩

theorem spells_chars {accepts : Char → Bool} {least : Nat} {most : Option Nat} :
    (chars accepts least most).Spells fun text taken => text = taken :=
  fun _ taken _ hresult => ⟨taken, rest_of_chars hresult, rfl⟩

theorem spells_word {text : String} {value : α} :
    (word text value).Spells fun text' value' => text' = text.toList ∧ value' = value := by
  intro cursor value' stop hresult
  rw [word, result_map] at hresult
  obtain ⟨⟨⟨⟩, next⟩, htoken, heq⟩ := Option.map_eq_some_iff.1 hresult
  obtain ⟨rfl, rfl⟩ := Prod.mk.inj heq
  exact ⟨text.toList, rest_of_token htoken, rfl, rfl⟩

theorem spells_fail : (fail : Peg α).Spells P := nofun

theorem Spells.choice (h : peg.Spells P) (h' : other.Spells P) : (choice peg other).Spells P := by
  intro cursor value stop hresult
  rw [result_choice] at hresult
  rcases Option.or_eq_some_iff.1 hresult with hfirst | ⟨-, hsecond⟩
  · exact h cursor value stop hfirst
  · exact h' cursor value stop hsecond

/-- A condition on what comes next is not read. -/
theorem Spells.notNext (h : peg.Spells P) {forbids : Char → Bool} :
    (peg.followedBy (notNext forbids)).Spells P := by
  intro cursor value stop hresult
  rw [result_followedBy] at hresult
  obtain ⟨⟨value', next⟩, hfirst, hresult⟩ := Option.bind_eq_some_iff.1 hresult
  obtain ⟨⟨⟨⟩, last⟩, hsecond, heq⟩ := Option.map_eq_some_iff.1 hresult
  obtain ⟨rfl, rfl⟩ := Prod.mk.inj heq
  rw [result_notNext] at hsecond
  split at hsecond
  · cases hsecond
  · obtain ⟨-, rfl⟩ := Prod.mk.inj (Option.some.inj hsecond)
    exact h cursor value' next hfirst

/-- The text that is added on one side is the one that is spelled on the other. -/
theorem Mirrors.located_spells {R : γ → α → Prop} {image : Peg γ} (h : image.Mirrors R peg)
    (hspells : peg.Spells P) :
    (Peg.located image).Mirrors (fun p value => R p.1 value ∧ P p.2.text value) peg := by
  intro cursor
  rw [run, Outcome.andThen_success]
  refine (h cursor).change_left (fun a stop => (a, cursor.fragmentTo stop))
    fun _ value stop hresult hvalue => ⟨hvalue, ?_⟩
  obtain ⟨text, hrest, hspelled⟩ := hspells cursor value stop hresult
  rw [Cursor.fragmentTo, hrest]
  simpa using hspelled

end Spells

end Peg

end Timetable.Grammar
