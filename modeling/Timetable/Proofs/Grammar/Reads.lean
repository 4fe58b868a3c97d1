import Timetable.Grammar.Peg

/-!
What a parsing expression does at the beginning of a text.

`Peg.Ends` says that the expression fits, which rests of the text it may leave and which values it
may give; `Peg.Reads` names the rest, and `Peg.Fits` leaves it open. `Peg.Refuses` says that the
expression does not fit, and `Peg.Yields` what holds of the value if it fits. None of them speaks of
the offset at which the text stands. Each way to build an expression has its rules here, so that a
statement about a part of the grammar follows the part as it is written.

A repetition is cut off by fuel, but as long as the repeated expression takes something from the
text (`Peg.Consumes`), the fuel does not matter: `result_many` is the equation without it.
-/

namespace Timetable.Grammar

namespace Peg

variable {α β : Type}

/-! ### Results without furthest offsets -/

theorem result_map (f : α → β) (inner : Peg α) (cursor : Cursor) :
    ((map f inner).run cursor).result = (inner.run cursor).result.map fun r => (f r.1, r.2) := by
  change ((inner.run cursor).andThen _).result = _
  rw [Outcome.result_andThen]
  cases (inner.run cursor).result <;> rfl

theorem result_seq (first : Peg α) (second : Peg β) (cursor : Cursor) :
    ((seq first second).run cursor).result = (first.run cursor).result.bind fun r =>
      (second.run r.2).result.map fun s => ((r.1, s.1), s.2) := by
  change ((first.run cursor).andThen _).result = _
  rw [Outcome.result_andThen]
  refine Option.bind_congr fun r _ => ?_
  rw [Outcome.result_andThen]
  cases (second.run r.2).result <;> rfl

theorem result_andThen (first : Peg α) (second : Peg β) (cursor : Cursor) :
    ((first.andThen second).run cursor).result =
      (first.run cursor).result.bind fun r => (second.run r.2).result := by
  rw [andThen, result_map, result_seq]
  cases (first.run cursor).result with
  | none => rfl
  | some r => exact (Option.map_map _ _ _).trans Option.map_id'

theorem result_followedBy (first : Peg α) (second : Peg β) (cursor : Cursor) :
    ((first.followedBy second).run cursor).result =
      (first.run cursor).result.bind fun r =>
        (second.run r.2).result.map fun s => (r.1, s.2) := by
  rw [followedBy, result_map, result_seq]
  cases (first.run cursor).result with
  | none => rfl
  | some r => exact Option.map_map _ _ _

theorem result_choice (first second : Peg α) (cursor : Cursor) :
    ((choice first second).run cursor).result =
      (first.run cursor).result.or (second.run cursor).result :=
  Outcome.result_orElse _ _

theorem result_named (inner : Peg α) (cursor : Cursor) :
    ((named inner).run cursor).result = (inner.run cursor).result :=
  Outcome.result_noteFailure _ _

theorem result_located (inner : Peg α) (cursor : Cursor) :
    ((located inner).run cursor).result = (inner.run cursor).result.map fun r =>
      ((r.1, cursor.fragmentTo r.2), r.2) := by
  change ((inner.run cursor).andThen _).result = _
  rw [Outcome.result_andThen]
  cases (inner.run cursor).result <;> rfl

theorem result_token (text : List Char) (cursor : Cursor) :
    ((token text).run cursor).result =
      if text.isPrefixOf cursor.rest then some ((), cursor.drop text.length) else none :=
  apply_ite Outcome.result _ _ _

theorem result_chars (accepts : Char → Bool) (least : Nat) (most : Option Nat) (cursor : Cursor) :
    ((chars accepts least most).run cursor).result =
      let taken := (most.elim cursor.rest cursor.rest.take).takeWhile accepts
      if least ≤ taken.length then some (taken, cursor.drop taken.length) else none := by
  cases most with
  | none => exact apply_ite Outcome.result _ _ _
  | some limit => exact apply_ite Outcome.result _ _ _

theorem taken_prefix_rest (accepts : Char → Bool) (most : Option Nat) (rest : List Char) :
    (most.elim rest rest.take).takeWhile accepts <+: rest := by
  cases most with
  | none => exact List.takeWhile_prefix _
  | some limit => exact (List.takeWhile_prefix _).trans (List.take_prefix _ _)

/-- A text at whose beginning characters of a class were taken. -/
theorem rest_of_chars {accepts : Char → Bool} {least : Nat} {most : Option Nat}
    {cursor next : Cursor} {taken : List Char}
    (h : ((chars accepts least most).run cursor).result = some (taken, next)) :
    cursor.rest = taken ++ next.rest := by
  rw [result_chars] at h
  dsimp only at h
  split at h
  · obtain ⟨rfl, rfl⟩ := Prod.mk.inj (Option.some.inj h)
    obtain ⟨rest, hrest⟩ := taken_prefix_rest accepts most cursor.rest
    generalize (most.elim cursor.rest cursor.rest.take).takeWhile accepts = taken at *
    rw [Cursor.drop, ← hrest, List.drop_left]
  · cases h

/-- A text at whose beginning given characters were read. -/
theorem rest_of_token {text : List Char} {cursor next : Cursor}
    (h : ((token text).run cursor).result = some ((), next)) : cursor.rest = text ++ next.rest := by
  rw [result_token] at h
  split at h
  · rename_i hprefix
    obtain ⟨-, rfl⟩ := Prod.mk.inj (Option.some.inj h)
    obtain ⟨rest, hrest⟩ := List.isPrefixOf_iff_prefix.1 hprefix
    rw [Cursor.drop, ← hrest, List.drop_left]
  · cases h

theorem result_notNext (forbids : Char → Bool) (cursor : Cursor) :
    ((notNext forbids).run cursor).result =
      if cursor.rest.head?.any forbids then none else some ((), cursor) :=
  apply_ite Outcome.result _ _ _

theorem result_endOfText (cursor : Cursor) :
    (endOfText.run cursor).result = if cursor.rest.isEmpty then some ((), cursor) else none :=
  apply_ite Outcome.result _ _ _

/-! ### Repetition -/

/-- Whether the expression takes something from each text that it fits. -/
def Consumes (peg : Peg α) : Prop :=
  ∀ cursor value next, (peg.run cursor).result = some (value, next) →
    next.rest.length < cursor.rest.length

theorem result_repeatStep_succ (step : Cursor → Outcome α) (fuel : Nat) (cursor : Cursor) :
    (repeatStep step (fuel + 1) cursor).result =
      match (step cursor).result with
      | none => some ([], cursor)
      | some (value, next) =>
        ((repeatStep step fuel next).result.map fun r => (value :: r.1, r.2)).or
          (some ([], cursor)) := by
  rw [repeatStep, Outcome.result_orElse, Outcome.result_andThen]
  cases (step cursor).result with
  | none => rfl
  | some r =>
    change Option.or (Outcome.result (Outcome.andThen _ _)) _ = _
    rw [Outcome.result_andThen]
    dsimp only
    cases (repeatStep step fuel r.2).result <;> rfl

theorem exists_result_repeatStep (step : Cursor → Outcome α) (fuel : Nat) (cursor : Cursor) :
    ∃ values last, (repeatStep step fuel cursor).result = some (values, last) := by
  induction fuel generalizing cursor with
  | zero => exact ⟨[], cursor, rfl⟩
  | succ fuel ih =>
    rw [result_repeatStep_succ]
    cases (step cursor).result with
    | none => exact ⟨[], cursor, rfl⟩
    | some r =>
      obtain ⟨values, last, h⟩ := ih r.2
      exact ⟨r.1 :: values, last, by simp [h]⟩

/-- As each repetition takes a character, more fuel than characters is as good as any. -/
theorem result_repeatStep_congr {peg : Peg α} (h : peg.Consumes) {fuel fuel' : Nat}
    (cursor : Cursor) (hfuel : cursor.rest.length < fuel) (hfuel' : cursor.rest.length < fuel') :
    (repeatStep peg.run fuel cursor).result = (repeatStep peg.run fuel' cursor).result := by
  induction fuel generalizing fuel' cursor with
  | zero => omega
  | succ fuel ih =>
    cases fuel' with
    | zero => omega
    | succ fuel' =>
      rw [result_repeatStep_succ, result_repeatStep_succ]
      cases hstep : (peg.run cursor).result with
      | none => rfl
      | some r =>
        have hlt := h cursor r.1 r.2 hstep
        dsimp only
        rw [ih r.2 (by omega) (show r.2.rest.length < fuel' by omega)]

theorem run_many (inner : Peg α) (cursor : Cursor) :
    (many inner).run cursor = repeatStep inner.run (cursor.rest.length + 1) cursor := rfl

/-- A repetition stops where the expression does not fit, and else goes on after it. -/
theorem result_many {peg : Peg α} (h : peg.Consumes) (cursor : Cursor) :
    ((many peg).run cursor).result =
      match (peg.run cursor).result with
      | none => some ([], cursor)
      | some (value, next) => ((many peg).run next).result.map fun r => (value :: r.1, r.2) := by
  rw [run_many, result_repeatStep_succ]
  cases hstep : (peg.run cursor).result with
  | none => rfl
  | some r =>
    have hlt := h cursor r.1 r.2 hstep
    dsimp only
    rw [run_many, result_repeatStep_congr h r.2 hlt (Nat.lt_succ_self _)]
    obtain ⟨values, last, hrest⟩ := exists_result_repeatStep peg.run (r.2.rest.length + 1) r.2
    rw [hrest]
    rfl

theorem exists_result_many (inner : Peg α) (cursor : Cursor) :
    ∃ values last, ((many inner).run cursor).result = some (values, last) := by
  rw [run_many]
  exact exists_result_repeatStep _ _ _

/-! ### What is left is an end of the text -/

theorem suffix_repeatStep {step : Cursor → Outcome α}
    (h : ∀ cursor value next, (step cursor).result = some (value, next) →
      next.rest <:+ cursor.rest) (fuel : Nat) :
    ∀ cursor values last, (repeatStep step fuel cursor).result = some (values, last) →
      last.rest <:+ cursor.rest := by
  induction fuel with
  | zero =>
    intro cursor values last hresult
    obtain ⟨-, rfl⟩ := Prod.mk.inj (Option.some.inj hresult)
    exact List.suffix_refl _
  | succ fuel ih =>
    intro cursor values last hresult
    rw [result_repeatStep_succ] at hresult
    cases hstep : (step cursor).result with
    | none =>
      rw [hstep] at hresult
      obtain ⟨-, rfl⟩ := Prod.mk.inj (Option.some.inj hresult)
      exact List.suffix_refl _
    | some r =>
      obtain ⟨others, stop, hrest⟩ := exists_result_repeatStep step fuel r.2
      rw [hstep] at hresult
      simp only [hrest, Option.map_some, Option.some_or, Option.some.injEq, Prod.mk.injEq]
        at hresult
      obtain ⟨-, rfl⟩ := hresult
      exact (ih r.2 others stop hrest).trans (h cursor r.1 r.2 hstep)

theorem suffix_of_result {peg : Peg α} {cursor next : Cursor} {value : α}
    (h : (peg.run cursor).result = some (value, next)) : next.rest <:+ cursor.rest := by
  induction peg generalizing cursor next with
  | pure =>
    obtain ⟨-, rfl⟩ := Prod.mk.inj (Option.some.inj h)
    exact List.suffix_refl _
  | fail => cases h
  | token text =>
    rw [result_token] at h
    split at h
    · obtain ⟨-, rfl⟩ := Prod.mk.inj (Option.some.inj h)
      exact List.drop_suffix _ _
    · cases h
  | chars accepts least most =>
    rw [result_chars] at h
    dsimp only at h
    split at h
    · obtain ⟨-, rfl⟩ := Prod.mk.inj (Option.some.inj h)
      exact List.drop_suffix _ _
    · cases h
  | notNext forbids =>
    rw [result_notNext] at h
    split at h
    · cases h
    · obtain ⟨-, rfl⟩ := Prod.mk.inj (Option.some.inj h)
      exact List.suffix_refl _
  | endOfText =>
    rw [result_endOfText] at h
    split at h
    · obtain ⟨-, rfl⟩ := Prod.mk.inj (Option.some.inj h)
      exact List.suffix_refl _
    · cases h
  | map f inner ih =>
    rw [result_map] at h
    obtain ⟨r, hr, heq⟩ := Option.map_eq_some_iff.1 h
    obtain ⟨-, rfl⟩ := Prod.mk.inj heq
    exact ih hr
  | seq first second ih ih' =>
    rw [result_seq] at h
    obtain ⟨r, hr, h⟩ := Option.bind_eq_some_iff.1 h
    obtain ⟨s, hs, heq⟩ := Option.map_eq_some_iff.1 h
    obtain ⟨-, rfl⟩ := Prod.mk.inj heq
    exact (ih' hs).trans (ih hr)
  | choice first second ih ih' =>
    rw [result_choice] at h
    rcases Option.or_eq_some_iff.1 h with h | ⟨-, h⟩
    · exact ih h
    · exact ih' h
  | many inner ih =>
    rw [run_many] at h
    exact suffix_repeatStep (fun _ _ _ => ih) _ _ _ _ h
  | named inner ih =>
    rw [result_named] at h
    exact ih h
  | located inner ih =>
    rw [result_located] at h
    obtain ⟨r, hr, heq⟩ := Option.map_eq_some_iff.1 h
    obtain ⟨-, rfl⟩ := Prod.mk.inj heq
    exact ih hr

/-! ### Expressions that take something -/

theorem consumes_token {text : List Char} (h : text ≠ []) : (token text).Consumes := by
  intro cursor value next hresult
  rw [result_token] at hresult
  split at hresult
  · rename_i hprefix
    obtain ⟨-, rfl⟩ := Prod.mk.inj (Option.some.inj hresult)
    obtain ⟨rest, hrest⟩ := List.isPrefixOf_iff_prefix.1 hprefix
    have hpos := List.length_pos_iff.2 h
    simp only [Cursor.drop, List.length_drop, ← hrest, List.length_append]
    omega
  · cases hresult

variable {first : Peg α} {second : Peg β} {peg : Peg α}

theorem Consumes.map {f : α → β} (h : peg.Consumes) : (map f peg).Consumes := by
  intro cursor value next hresult
  rw [result_map] at hresult
  obtain ⟨r, hr, heq⟩ := Option.map_eq_some_iff.1 hresult
  obtain ⟨-, rfl⟩ := Prod.mk.inj heq
  exact h cursor r.1 r.2 hr

theorem Consumes.named (h : peg.Consumes) : (named peg).Consumes := by
  intro cursor value next hresult
  rw [result_named] at hresult
  exact h cursor value next hresult

theorem Consumes.located (h : peg.Consumes) : (located peg).Consumes := by
  intro cursor value next hresult
  rw [result_located] at hresult
  obtain ⟨r, hr, heq⟩ := Option.map_eq_some_iff.1 hresult
  obtain ⟨-, rfl⟩ := Prod.mk.inj heq
  exact h cursor r.1 r.2 hr

theorem Consumes.choice {other : Peg α} (h : peg.Consumes) (h' : other.Consumes) :
    (choice peg other).Consumes := by
  intro cursor value next hresult
  rw [result_choice] at hresult
  rcases Option.or_eq_some_iff.1 hresult with hresult | ⟨-, hresult⟩
  · exact h cursor value next hresult
  · exact h' cursor value next hresult

theorem consumes_fail : (fail : Peg α).Consumes := by
  intro cursor value next hresult
  cases hresult

theorem Consumes.seq_left (h : first.Consumes) : (seq first second).Consumes := by
  intro cursor value next hresult
  rw [result_seq] at hresult
  obtain ⟨r, hr, hresult⟩ := Option.bind_eq_some_iff.1 hresult
  obtain ⟨s, hs, heq⟩ := Option.map_eq_some_iff.1 hresult
  obtain ⟨-, rfl⟩ := Prod.mk.inj heq
  exact Nat.lt_of_le_of_lt (suffix_of_result hs).length_le (h cursor r.1 r.2 hr)

theorem Consumes.seq_right (h : second.Consumes) : (seq first second).Consumes := by
  intro cursor value next hresult
  rw [result_seq] at hresult
  obtain ⟨r, hr, hresult⟩ := Option.bind_eq_some_iff.1 hresult
  obtain ⟨s, hs, heq⟩ := Option.map_eq_some_iff.1 hresult
  obtain ⟨-, rfl⟩ := Prod.mk.inj heq
  exact Nat.lt_of_lt_of_le (h r.2 s.1 s.2 hs) (suffix_of_result hr).length_le

theorem Consumes.andThen (h : first.Consumes) : (first.andThen second).Consumes :=
  h.seq_left.map

theorem Consumes.andThen_right (h : second.Consumes) : (first.andThen second).Consumes :=
  h.seq_right.map

theorem Consumes.followedBy (h : first.Consumes) : (first.followedBy second).Consumes :=
  h.seq_left.map

/-! ### Where an expression fits -/

/-- The expression fits at the beginning of a text, leaves an accepted rest of it and gives an
accepted value. -/
def Ends (peg : Peg α) (source : List Char) (leaves : List Char → Prop) (accepts : α → Prop) :
    Prop :=
  ∀ offset, ∃ value next, (peg.run ⟨source, offset⟩).result = some (value, next) ∧
    leaves next.rest ∧ accepts value

/-- The expression fits at the beginning of a text, leaves a given rest of it and gives an accepted
value. -/
abbrev Reads (peg : Peg α) (source rest : List Char) (accepts : α → Prop) : Prop :=
  peg.Ends source (· = rest) accepts

/-- The expression fits at the beginning of a text and gives an accepted value, whatever it
leaves. -/
abbrev Fits (peg : Peg α) (source : List Char) (accepts : α → Prop) : Prop :=
  peg.Ends source (fun _ => True) accepts

/-- The expression does not fit at the beginning of a text. -/
def Refuses (peg : Peg α) (source : List Char) : Prop :=
  ∀ offset, (peg.run ⟨source, offset⟩).result = none

/-- If the expression fits at the beginning of a text, it gives an accepted value. -/
def Yields (peg : Peg α) (source : List Char) (accepts : α → Prop) : Prop :=
  ∀ offset value next, (peg.run ⟨source, offset⟩).result = some (value, next) → accepts value

variable {source between rest : List Char} {leaves leaves' : List Char → Prop}
  {accepts : α → Prop} {accepts' : β → Prop}

theorem Reads.exists_result (h : peg.Reads source rest accepts) (offset : Nat) : ∃ value stop,
    (peg.run ⟨source, offset⟩).result = some (value, ⟨rest, stop⟩) ∧ accepts value := by
  obtain ⟨value, ⟨_, stop⟩, hresult, rfl, haccepts⟩ := h offset
  exact ⟨value, stop, hresult, haccepts⟩

theorem Ends.fits (h : peg.Ends source leaves accepts) : peg.Fits source accepts := by
  intro offset
  obtain ⟨value, next, hresult, -, haccepts⟩ := h offset
  exact ⟨value, next, hresult, trivial, haccepts⟩

theorem Ends.mono {wider : α → Prop} (h : peg.Ends source leaves accepts)
    (hwider : ∀ value, accepts value → wider value) : peg.Ends source leaves wider := by
  intro offset
  obtain ⟨value, next, hresult, hleaves, haccepts⟩ := h offset
  exact ⟨value, next, hresult, hleaves, hwider value haccepts⟩

theorem reads_pure {value : α} (h : accepts value) : (pure value).Reads source source accepts :=
  fun offset => ⟨value, ⟨source, offset⟩, rfl, rfl, h⟩

theorem reads_token (text rest : List Char) {accepts : Unit → Prop} (h : accepts ()) :
    (token text).Reads (text ++ rest) rest accepts := by
  intro offset
  refine ⟨(), ⟨rest, offset + byteLength text⟩, ?_, rfl, h⟩
  rw [result_token, if_pos (List.isPrefixOf_iff_prefix.2 (List.prefix_append _ _))]
  simp [Cursor.drop]

theorem reads_token_cons (c : Char) (rest : List Char) :
    (token [c]).Reads (c :: rest) rest fun _ => True :=
  reads_token [c] rest trivial

/-- Characters of a class are read as far as they go, or up to the limit. -/
theorem reads_chars {belongs : Char → Bool} {least : Nat} {most : Option Nat} {taken : List Char}
    {accepts : List Char → Prop} (hclass : ∀ c ∈ taken, belongs c = true)
    (hleast : least ≤ taken.length) (hmost : ∀ limit ∈ most, taken.length ≤ limit)
    (hstop : (∀ c ∈ rest.head?, belongs c = false) ∨ ∃ limit ∈ most, taken.length = limit)
    (h : accepts taken) : (chars belongs least most).Reads (taken ++ rest) rest accepts := by
  have hnext : (∀ c ∈ rest.head?, belongs c = false) →
      (taken ++ rest).takeWhile belongs = taken := by
    intro hrest
    rw [List.takeWhile_append_of_pos hclass]
    cases rest with
    | nil => simp
    | cons c rest => simp [hrest c rfl]
  have htaken : (most.elim (taken ++ rest) (taken ++ rest).take).takeWhile belongs = taken := by
    cases most with
    | none => exact hnext (hstop.resolve_right (by simp))
    | some limit =>
      have hle := hmost limit rfl
      rw [Option.elim, List.take_append, List.take_of_length_le hle,
        List.takeWhile_append_of_pos hclass]
      rcases hstop with hrest | ⟨other, hother, heq⟩
      · cases rest with
        | nil => simp
        | cons c rest =>
          cases limit - taken.length with
          | zero => simp
          | succ count => simp [hrest c rfl]
      · obtain rfl := Option.some.inj hother
        simp [heq]
  intro offset
  refine ⟨taken, ⟨rest, offset + byteLength taken⟩, ?_, rfl, h⟩
  rw [result_chars]
  dsimp only
  rw [htaken, if_pos hleast]
  simp [Cursor.drop]

theorem reads_notNext {forbids : Char → Bool} {accepts : Unit → Prop}
    (hnext : ∀ c ∈ source.head?, forbids c = false) (h : accepts ()) :
    (notNext forbids).Reads source source accepts := by
  intro offset
  refine ⟨(), ⟨source, offset⟩, ?_, rfl, h⟩
  rw [result_notNext]
  cases source with
  | nil => rfl
  | cons c source => simp [hnext c rfl]

theorem reads_endOfText {accepts : Unit → Prop} (h : accepts ()) :
    endOfText.Reads [] [] accepts :=
  fun offset => ⟨(), ⟨[], offset⟩, rfl, rfl, h⟩

theorem Ends.map {f : α → β} (h : peg.Ends source leaves accepts)
    (hf : ∀ value, accepts value → accepts' (f value)) :
    (map f peg).Ends source leaves accepts' := by
  intro offset
  obtain ⟨value, next, hresult, hleaves, haccepts⟩ := h offset
  exact ⟨f value, next, by rw [result_map, hresult]; rfl, hleaves, hf value haccepts⟩

theorem Ends.map_self {f : α → β} (h : peg.Ends source leaves accepts) :
    (Peg.map f peg).Ends source leaves fun value => ∃ inner, accepts inner ∧ value = f inner :=
  h.map fun inner haccepts => ⟨inner, haccepts, rfl⟩

/-- The second expression stands behind any rest that the first one may leave. -/
theorem Ends.seq_of_forall (h : first.Ends source leaves accepts)
    (h' : ∀ between, leaves between → second.Ends between leaves' accepts') :
    (seq first second).Ends source leaves' fun both => accepts both.1 ∧ accepts' both.2 := by
  intro offset
  obtain ⟨a, next, hresult, hleaves, haccepts⟩ := h offset
  obtain ⟨b, next', hresult', hleaves', haccepts'⟩ := h' next.rest hleaves next.offset
  refine ⟨(a, b), next', ?_, hleaves', haccepts, haccepts'⟩
  rw [result_seq, hresult, Option.bind_some, hresult']
  rfl

theorem Ends.seq (h : first.Ends source (· = between) accepts)
    (h' : second.Ends between leaves accepts') :
    (seq first second).Ends source leaves fun both => accepts both.1 ∧ accepts' both.2 :=
  h.seq_of_forall fun _ hbetween => hbetween ▸ h'

/-- An expression that fits everywhere does no harm after another one. -/
theorem Ends.seq_left (h : first.Ends source leaves accepts)
    (h' : ∀ between, second.Fits between fun _ => True) :
    (Peg.seq first second).Fits source fun both => accepts both.1 :=
  (h.seq_of_forall fun between _ => h' between).mono fun _ => And.left

theorem Ends.choice_left {other : Peg α} (h : peg.Ends source leaves accepts) :
    (choice peg other).Ends source leaves accepts := by
  intro offset
  obtain ⟨value, next, hresult, hends⟩ := h offset
  exact ⟨value, next, by rw [result_choice, hresult]; rfl, hends⟩

theorem Ends.choice_right {other : Peg α} (hrefuses : other.Refuses source)
    (h : peg.Ends source leaves accepts) : (choice other peg).Ends source leaves accepts := by
  intro offset
  obtain ⟨value, next, hresult, hends⟩ := h offset
  exact ⟨value, next, by rw [result_choice, hrefuses offset, hresult]; rfl, hends⟩

theorem Ends.named (h : peg.Ends source leaves accepts) :
    (named peg).Ends source leaves accepts := by
  intro offset
  rw [result_named]
  exact h offset

theorem Ends.located (h : peg.Ends source leaves accepts) :
    (located peg).Ends source leaves fun both => accepts both.1 := by
  intro offset
  obtain ⟨value, next, hresult, hends⟩ := h offset
  exact ⟨(value, _), next, by rw [result_located, hresult]; rfl, hends⟩

theorem reads_many_stop {accepts : List α → Prop} (hconsumes : peg.Consumes)
    (hrefuses : peg.Refuses source) (h : accepts []) :
    (many peg).Reads source source accepts := by
  intro offset
  exact ⟨[], ⟨source, offset⟩, by rw [result_many hconsumes, hrefuses offset], rfl, h⟩

theorem Ends.many_step {others : List α → Prop} (hconsumes : peg.Consumes)
    (h : peg.Ends source (· = between) accepts) (hmany : (many peg).Ends between leaves others) :
    (many peg).Ends source leaves fun values =>
      ∃ value tail, values = value :: tail ∧ accepts value ∧ others tail := by
  intro offset
  obtain ⟨value, stop, hresult, haccepts⟩ := Reads.exists_result h offset
  obtain ⟨values, next, hresult', hleaves, hothers⟩ := hmany stop
  refine ⟨value :: values, next, ?_, hleaves, value, values, rfl, haccepts, hothers⟩
  rw [result_many hconsumes, hresult]
  dsimp only
  rw [hresult']
  rfl

theorem Ends.followedBy (h : first.Ends source (· = between) accepts)
    (h' : second.Ends between leaves accepts') :
    (first.followedBy second).Ends source leaves accepts :=
  (h.seq h').map fun _ => And.left

theorem Ends.andThen (h : first.Ends source (· = between) accepts)
    (h' : second.Ends between leaves accepts') :
    (first.andThen second).Ends source leaves accepts' :=
  (h.seq h').map fun _ => And.right

theorem Ends.optional (h : peg.Ends source leaves accepts) :
    (optional peg).Ends source leaves fun value => ∃ some', value = some some' ∧ accepts some' :=
  (h.map fun value haccepts => ⟨value, rfl, haccepts⟩).choice_left

theorem reads_word (text : String) (value : α) (rest : List Char) :
    (word text value).Reads (text.toList ++ rest) rest (· = value) :=
  (@reads_token text.toList rest (fun _ => True) trivial).map fun _ _ => rfl

/-! ### Where an expression does not fit -/

theorem refuses_fail : (fail : Peg α).Refuses source := fun _ => rfl

theorem refuses_token {text : List Char} (h : ¬ text <+: source) : (token text).Refuses source := by
  intro offset
  rw [result_token, if_neg fun hprefix => h (List.isPrefixOf_iff_prefix.1 hprefix)]

theorem refuses_chars {belongs : Char → Bool} {least : Nat} {most : Option Nat}
    (h : ((most.elim source source.take).takeWhile belongs).length < least) :
    (chars belongs least most).Refuses source := by
  intro offset
  rw [result_chars, if_neg (Nat.not_le.2 h)]

theorem refuses_notNext {forbids : Char → Bool} {c : Char} (h : forbids c = true) :
    (notNext forbids).Refuses (c :: source) := by
  intro offset
  simp [result_notNext, h]

theorem Refuses.map {f : α → β} (h : peg.Refuses source) : (map f peg).Refuses source := by
  intro offset
  rw [result_map, h offset]
  rfl

theorem Refuses.seq_left (h : first.Refuses source) : (seq first second).Refuses source := by
  intro offset
  rw [result_seq, h offset]
  rfl

theorem Refuses.seq_right (h : first.Reads source between accepts)
    (h' : second.Refuses between) : (seq first second).Refuses source := by
  intro offset
  obtain ⟨a, stop, hresult, -⟩ := h.exists_result offset
  rw [result_seq, hresult, Option.bind_some, h' stop]
  rfl

theorem Refuses.choice {other : Peg α} (h : peg.Refuses source) (h' : other.Refuses source) :
    (choice peg other).Refuses source := by
  intro offset
  rw [result_choice, h offset, h' offset]
  rfl

theorem Refuses.named (h : peg.Refuses source) : (named peg).Refuses source := by
  intro offset
  rw [result_named]
  exact h offset

theorem Refuses.located (h : peg.Refuses source) : (located peg).Refuses source := by
  intro offset
  rw [result_located, h offset]
  rfl

theorem Refuses.followedBy (h : first.Refuses source) :
    (first.followedBy second).Refuses source :=
  h.seq_left.map

theorem Refuses.followedBy_right (h : first.Reads source between accepts)
    (h' : second.Refuses between) : (first.followedBy second).Refuses source :=
  (Refuses.seq_right h h').map

theorem Refuses.andThen (h : first.Refuses source) : (first.andThen second).Refuses source :=
  h.seq_left.map

theorem Refuses.andThen_right (h : first.Reads source between accepts)
    (h' : second.Refuses between) : (first.andThen second).Refuses source :=
  (Refuses.seq_right h h').map

theorem refuses_word {text : String} {value : α} (h : ¬ text.toList <+: source) :
    (word text value).Refuses source :=
  (refuses_token h).map

theorem refuses_separatedBy {separator : Peg β} (h : peg.Refuses source) :
    (separatedBy peg separator).Refuses source :=
  h.seq_left.map

theorem reads_optional_none {accepts : Option α → Prop} (hrefuses : peg.Refuses source)
    (h : accepts none) : (optional peg).Reads source source accepts :=
  Ends.choice_right hrefuses.map (reads_pure h)

/-! ### Where something comes out -/

theorem fits_many (inner : Peg α) : (many inner).Fits source fun _ => True := by
  intro offset
  obtain ⟨values, last, h⟩ := exists_result_many inner ⟨source, offset⟩
  exact ⟨values, last, h, trivial, trivial⟩

/-- A choice fits where its last alternative does. -/
theorem fits_choice {other : Peg α} (h : peg.Fits source fun _ => True) :
    (choice other peg).Fits source fun _ => True := by
  intro offset
  rw [result_choice]
  cases hother : (other.run ⟨source, offset⟩).result with
  | none => exact h offset
  | some r => exact ⟨r.1, r.2, rfl, trivial, trivial⟩

theorem fits_optional (inner : Peg α) : (optional inner).Fits source fun _ => True :=
  fits_choice (reads_pure trivial).fits

/-! ### What holds of a value -/

theorem Ends.yields (h : peg.Ends source leaves accepts) : peg.Yields source accepts := by
  intro offset value next hresult
  obtain ⟨value', next', hresult', -, haccepts⟩ := h offset
  obtain ⟨rfl, -⟩ := Prod.mk.inj (Option.some.inj (hresult'.symm.trans hresult))
  exact haccepts

theorem Refuses.yields (h : peg.Refuses source) : peg.Yields source accepts := by
  intro offset value next hresult
  rw [h offset] at hresult
  cases hresult

theorem Yields.mono {wider : α → Prop} (h : peg.Yields source accepts)
    (hwider : ∀ value, accepts value → wider value) : peg.Yields source wider :=
  fun offset value next hresult => hwider value (h offset value next hresult)

theorem yields_pure {value : α} (h : accepts value) : (pure value).Yields source accepts :=
  (reads_pure h).yields

theorem yields_chars {belongs : Char → Bool} {least : Nat} {most : Option Nat} :
    (chars belongs least most).Yields source fun taken =>
      (∀ c ∈ taken, belongs c = true) ∧ least ≤ taken.length ∧
        ∀ limit ∈ most, taken.length ≤ limit := by
  intro offset value next hresult
  rw [result_chars] at hresult
  dsimp only at hresult
  split at hresult
  · rename_i hleast
    obtain ⟨rfl, -⟩ := Prod.mk.inj (Option.some.inj hresult)
    refine ⟨fun c hc => ?_, hleast, fun limit hlimit => ?_⟩
    · exact List.all_eq_true.1 List.all_takeWhile c hc
    · obtain rfl := hlimit
      exact Nat.le_trans (List.takeWhile_prefix _).length_le (List.length_take_le _ _)
  · cases hresult

theorem Yields.map {f : α → β} (h : peg.Yields source accepts)
    (hf : ∀ value, accepts value → accepts' (f value)) : (map f peg).Yields source accepts' := by
  intro offset value next hresult
  rw [result_map] at hresult
  obtain ⟨r, hr, heq⟩ := Option.map_eq_some_iff.1 hresult
  obtain ⟨rfl, -⟩ := Prod.mk.inj heq
  exact hf r.1 (h offset r.1 r.2 hr)

/-- Of two expressions, the second stands after whatever the first takes. -/
theorem Yields.seq (h : first.Yields source accepts)
    (h' : ∀ between, second.Yields between accepts') :
    (seq first second).Yields source fun both => accepts both.1 ∧ accepts' both.2 := by
  intro offset value next hresult
  rw [result_seq] at hresult
  obtain ⟨r, hr, hresult⟩ := Option.bind_eq_some_iff.1 hresult
  obtain ⟨s, hs, heq⟩ := Option.map_eq_some_iff.1 hresult
  obtain ⟨rfl, -⟩ := Prod.mk.inj heq
  exact ⟨h offset r.1 r.2 hr, h' r.2.rest r.2.offset s.1 s.2 hs⟩

theorem Yields.seq_left (h : first.Yields source accepts) :
    (Peg.seq first second).Yields source fun both => accepts both.1 :=
  (h.seq fun _ _ _ _ _ => trivial).mono fun _ => And.left

theorem Yields.seq_right (h : first.Reads source between accepts)
    (h' : second.Yields between accepts') :
    (Peg.seq first second).Yields source fun both => accepts both.1 ∧ accepts' both.2 := by
  intro offset value next hresult
  obtain ⟨a, stop, hfirst, haccepts⟩ := h.exists_result offset
  rw [result_seq, hfirst, Option.bind_some] at hresult
  obtain ⟨s, hs, heq⟩ := Option.map_eq_some_iff.1 hresult
  obtain ⟨rfl, -⟩ := Prod.mk.inj heq
  exact ⟨haccepts, h' stop s.1 s.2 hs⟩

theorem Yields.choice {other : Peg α} (h : peg.Yields source accepts)
    (h' : other.Yields source accepts) : (choice peg other).Yields source accepts := by
  intro offset value next hresult
  rw [result_choice] at hresult
  rcases Option.or_eq_some_iff.1 hresult with hresult | ⟨-, hresult⟩
  · exact h offset value next hresult
  · exact h' offset value next hresult

theorem Yields.named (h : peg.Yields source accepts) : (named peg).Yields source accepts := by
  intro offset value next hresult
  rw [result_named] at hresult
  exact h offset value next hresult

theorem Yields.followedBy (h : first.Yields source accepts) :
    (first.followedBy second).Yields source accepts :=
  h.seq_left.map fun _ => id

theorem Yields.andThen (h : ∀ between, second.Yields between accepts') :
    (first.andThen second).Yields source accepts' :=
  (Yields.seq (fun _ _ _ _ => trivial) h).map fun _ => And.right

theorem Yields.andThen_right (h : first.Reads source between accepts)
    (h' : second.Yields between accepts') : (first.andThen second).Yields source accepts' :=
  (Yields.seq_right h h').map fun _ => And.right

theorem yields_true : peg.Yields source fun _ => True := fun _ _ _ _ => trivial

theorem yields_separatedBy_ne_nil {separator : Peg β} :
    (separatedBy peg separator).Yields source (· ≠ []) :=
  Yields.map yields_true fun _ _ => List.cons_ne_nil _ _

theorem Yields.optional (h : peg.Yields source accepts) :
    (optional peg).Yields source fun value => ∀ some' ∈ value, accepts some' :=
  (h.map fun value haccepts some' hsome => by cases hsome; exact haccepts).choice
    (yields_pure nofun)

/-- Each element of a repetition is one that the expression gives somewhere. -/
theorem Yields.many (hconsumes : peg.Consumes) (h : ∀ source, peg.Yields source accepts) :
    (Peg.many peg).Yields source fun values => ∀ value ∈ values, accepts value := by
  intro offset values next hresult
  induction hlength : source.length using Nat.strongRecOn
    generalizing source offset values next with
  | ind length ih =>
    rw [result_many hconsumes] at hresult
    cases hstep : (peg.run ⟨source, offset⟩).result with
    | none =>
      rw [hstep] at hresult
      obtain ⟨rfl, -⟩ := Prod.mk.inj (Option.some.inj hresult)
      exact List.forall_mem_nil _
    | some r =>
      rw [hstep] at hresult
      obtain ⟨others, hothers, heq⟩ := Option.map_eq_some_iff.1 hresult
      obtain ⟨rfl, -⟩ := Prod.mk.inj heq
      have hlt := hconsumes ⟨source, offset⟩ r.1 r.2 hstep
      refine List.forall_mem_cons.2 ⟨h source offset r.1 r.2 hstep, ?_⟩
      exact @ih r.2.rest.length (hlength ▸ hlt) r.2.rest r.2.offset others.1 others.2 hothers rfl

/-- Each element of a list with separators is one that the expression for elements gives
somewhere. -/
theorem Yields.separatedBy {separator : Peg β} (hconsumes : separator.Consumes)
    (h : ∀ source, peg.Yields source accepts) :
    (Peg.separatedBy peg separator).Yields source fun values => ∀ value ∈ values, accepts value :=
  Yields.map
    (Yields.seq (h source) fun _ => Yields.many hconsumes.seq_left.map fun _ => Yields.andThen h)
    fun _ hboth => List.forall_mem_cons.2 hboth

/-- The first element of a repetition is one that the expression gives at once. -/
theorem Yields.many_first (hconsumes : peg.Consumes) (h : peg.Yields source accepts) :
    (Peg.many peg).Yields source fun values =>
      values = [] ∨ ∃ value tail, values = value :: tail ∧ accepts value := by
  intro offset values next hresult
  rw [result_many hconsumes] at hresult
  cases hstep : (peg.run ⟨source, offset⟩).result with
  | none =>
    rw [hstep] at hresult
    exact .inl (Prod.mk.inj (Option.some.inj hresult)).1.symm
  | some r =>
    rw [hstep] at hresult
    obtain ⟨others, hothers, heq⟩ := Option.map_eq_some_iff.1 hresult
    exact .inr ⟨r.1, others.1, (Prod.mk.inj heq).1.symm, h offset r.1 r.2 hstep⟩

theorem Yields.many_step {others : List α → Prop} (hconsumes : peg.Consumes)
    (h : peg.Reads source between accepts) (h' : (Peg.many peg).Yields between others) :
    (Peg.many peg).Yields source fun values =>
      ∃ value tail, values = value :: tail ∧ accepts value ∧ others tail := by
  intro offset values next hresult
  obtain ⟨value, stop, hstep, haccepts⟩ := h.exists_result offset
  rw [result_many hconsumes, hstep] at hresult
  obtain ⟨tail, htail, heq⟩ := Option.map_eq_some_iff.1 hresult
  obtain ⟨rfl, -⟩ := Prod.mk.inj heq
  exact ⟨value, tail.1, rfl, haccepts, h' stop tail.1 tail.2 htail⟩

end Peg

end Timetable.Grammar
