import Timetable.Proofs.Grammar.Reads

/-!
The characters that an expression may begin with.

`Peg.opens` and `Peg.idle` are computed from the expression alone. Where an expression is not idle
and does not open with the character that comes next, it is known to refuse the text without running
it (`refuses_of_opens`).
-/

namespace Timetable.Grammar.Peg

/-- Whether the expression may fit without taking anything from the text. -/
def idle : {α : Type} → Peg α → Bool
  | _, pure _ => true
  | _, fail => false
  | _, token text => text.isEmpty
  | _, chars _ least _ => least == 0
  | _, notNext _ => true
  | _, endOfText => true
  | _, map _ inner => inner.idle
  | _, seq first second => first.idle && second.idle
  | _, choice first second => first.idle || second.idle
  | _, many _ => true
  | _, named inner => inner.idle
  | _, located inner => inner.idle

/-- Whether the expression may fit where it takes the given character first. -/
def opens : {α : Type} → Peg α → Char → Bool
  | _, token text, c => text.head? == some c
  | _, chars accepts _ _, c => accepts c
  | _, map _ inner, c => inner.opens c
  | _, seq first second, c => first.opens c || first.idle && second.opens c
  | _, choice first second, c => first.opens c || second.opens c
  | _, many inner, c => inner.opens c
  | _, named inner, c => inner.opens c
  | _, located inner, c => inner.opens c
  | _, _, _ => false

variable {α : Type}

/-- Either nothing was taken from the text, or its first character is one to open with. -/
def Opened (peg : Peg α) (cursor next : Cursor) : Prop :=
  next.rest = cursor.rest ∧ peg.idle = true ∨ ∃ c ∈ cursor.rest.head?, peg.opens c = true

theorem opened_token {text : List Char} {cursor next : Cursor}
    (h : ((token text).run cursor).result = some ((), next)) :
    (token text).Opened cursor next := by
  have hrest := rest_of_token h
  cases text with
  | nil => exact .inl ⟨hrest.symm, rfl⟩
  | cons c text => exact .inr ⟨c, by rw [hrest]; rfl, by simp [opens]⟩

theorem opened_chars {accepts : Char → Bool} {least : Nat} {most : Option Nat}
    {cursor next : Cursor} {taken : List Char}
    (h : ((chars accepts least most).run cursor).result = some (taken, next)) :
    (chars accepts least most).Opened cursor next := by
  have hrest := rest_of_chars h
  obtain ⟨haccepts, hleast, -⟩ := yields_chars cursor.offset taken next h
  cases taken with
  | nil => exact .inl ⟨hrest.symm, by rw [idle, Nat.le_zero.1 hleast]; rfl⟩
  | cons c taken => exact .inr ⟨c, by rw [hrest]; rfl, haccepts c List.mem_cons_self⟩

/-- A repetition takes nothing, or opens like what is repeated. -/
theorem opened_repeatStep {inner : Peg α}
    (h : ∀ cursor value next, (inner.run cursor).result = some (value, next) →
      inner.Opened cursor next) (fuel : Nat) :
    ∀ cursor values last, (repeatStep inner.run fuel cursor).result = some (values, last) →
      (many inner).Opened cursor last := by
  induction fuel with
  | zero =>
    intro cursor values last hresult
    obtain ⟨-, rfl⟩ := Prod.mk.inj (Option.some.inj hresult)
    exact .inl ⟨rfl, rfl⟩
  | succ fuel ih =>
    intro cursor values last hresult
    rw [result_repeatStep_succ] at hresult
    cases hstep : (inner.run cursor).result with
    | none =>
      rw [hstep] at hresult
      obtain ⟨-, rfl⟩ := Prod.mk.inj (Option.some.inj hresult)
      exact .inl ⟨rfl, rfl⟩
    | some r =>
      obtain ⟨others, stop, hrest⟩ := exists_result_repeatStep inner.run fuel r.2
      rw [hstep] at hresult
      simp only [hrest, Option.map_some, Option.some_or, Option.some.injEq, Prod.mk.injEq]
        at hresult
      obtain ⟨-, rfl⟩ := hresult
      rcases h cursor r.1 r.2 hstep with ⟨hsame, -⟩ | hopens
      · have hlater := ih r.2 others stop hrest
        rw [Opened, hsame] at hlater
        exact hlater
      · exact .inr hopens

theorem opened_of_result {peg : Peg α} {cursor next : Cursor} {value : α}
    (h : (peg.run cursor).result = some (value, next)) : peg.Opened cursor next := by
  induction peg generalizing cursor next with
  | pure =>
    obtain ⟨-, rfl⟩ := Prod.mk.inj (Option.some.inj h)
    exact .inl ⟨rfl, rfl⟩
  | fail => cases h
  | token text => exact opened_token h
  | chars accepts least most => exact opened_chars h
  | notNext forbids =>
    rw [result_notNext] at h
    split at h
    · cases h
    · obtain ⟨-, rfl⟩ := Prod.mk.inj (Option.some.inj h)
      exact .inl ⟨rfl, rfl⟩
  | endOfText =>
    rw [result_endOfText] at h
    split at h
    · obtain ⟨-, rfl⟩ := Prod.mk.inj (Option.some.inj h)
      exact .inl ⟨rfl, rfl⟩
    · cases h
  | map f inner ih =>
    rw [result_map] at h
    obtain ⟨r, hr, heq⟩ := Option.map_eq_some_iff.1 h
    obtain ⟨-, rfl⟩ := Prod.mk.inj heq
    exact ih hr
  | seq first second ih ih' =>
    rw [result_seq] at h
    obtain ⟨r, hr, h⟩ := Option.bind_eq_some_iff.1 h
    obtain ⟨s, hs, heq⟩ := Option.map_eq_some_iff.1 h
    obtain ⟨-, rfl⟩ := Prod.mk.inj heq
    rcases ih hr with ⟨hsame, hidle⟩ | ⟨c, hc, hopens⟩
    · rcases ih' hs with ⟨hsame', hidle'⟩ | ⟨c, hc, hopens⟩
      · exact .inl ⟨hsame'.trans hsame, by rw [idle, hidle, hidle']; rfl⟩
      · exact .inr ⟨c, hsame ▸ hc, by rw [opens, hidle, hopens, Bool.and_true, Bool.or_true]⟩
    · exact .inr ⟨c, hc, by rw [opens, hopens, Bool.true_or]⟩
  | choice first second ih ih' =>
    rw [result_choice] at h
    rcases Option.or_eq_some_iff.1 h with h | ⟨-, h⟩
    · rcases ih h with ⟨hsame, hidle⟩ | ⟨c, hc, hopens⟩
      · exact .inl ⟨hsame, by rw [idle, hidle, Bool.true_or]⟩
      · exact .inr ⟨c, hc, by rw [opens, hopens, Bool.true_or]⟩
    · rcases ih' h with ⟨hsame, hidle⟩ | ⟨c, hc, hopens⟩
      · exact .inl ⟨hsame, by rw [idle, hidle, Bool.or_true]⟩
      · exact .inr ⟨c, hc, by rw [opens, hopens, Bool.or_true]⟩
  | many inner ih =>
    rw [run_many] at h
    exact opened_repeatStep (fun _ _ _ => ih) _ _ _ _ h
  | named inner ih =>
    rw [result_named] at h
    exact ih h
  | located inner ih =>
    rw [result_located] at h
    obtain ⟨r, hr, heq⟩ := Option.map_eq_some_iff.1 h
    obtain ⟨-, rfl⟩ := Prod.mk.inj heq
    exact ih hr

/-- An expression that is not idle refuses a text with whose first character it does not open. -/
theorem refuses_of_opens {peg : Peg α} {source : List Char} (hidle : peg.idle = false)
    (h : ∀ c ∈ source.head?, peg.opens c = false) : peg.Refuses source := by
  intro offset
  cases hresult : (peg.run ⟨source, offset⟩).result with
  | none => rfl
  | some r =>
    rcases opened_of_result hresult with ⟨-, hidle'⟩ | ⟨c, hc, hopens⟩
    · rw [hidle] at hidle'
      cases hidle'
    · rw [h c hc] at hopens
      cases hopens

end Timetable.Grammar.Peg
