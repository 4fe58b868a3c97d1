/-!
Computations that may fail: what a success says of the steps.
-/

namespace Timetable

variable {ε α β : Type}

theorem ok_bind (value : α) (next : α → Except ε β) :
    (.ok value : Except ε α) >>= next = next value := rfl

theorem bind_of_eq_ok {first : Except ε α} {value : α} (h : first = .ok value)
    (next : α → Except ε β) : first >>= next = next value := h ▸ ok_bind value next

/-- Two steps succeed if the first one does, and then the second one. -/
theorem bind_eq_ok {first : Except ε α} {next : α → Except ε β} {value : β} :
    first >>= next = .ok value ↔ ∃ between, first = .ok between ∧ next between = .ok value := by
  cases first with
  | ok between => exact ⟨fun h => ⟨between, rfl, h⟩, fun ⟨_, h, h'⟩ => Except.ok.inj h ▸ h'⟩
  | error error => exact ⟨nofun, fun ⟨_, h, _⟩ => nomatch h⟩

/-- Two steps fail if the first one does, or else the second one. -/
theorem bind_eq_error {first : Except ε α} {next : α → Except ε β} {error : ε} :
    first >>= next = .error error ↔
      first = .error error ∨ ∃ between, first = .ok between ∧ next between = .error error := by
  cases first with
  | ok between =>
    exact ⟨fun h => .inr ⟨between, rfl, h⟩,
      fun h => h.elim nofun fun ⟨_, h, h'⟩ => Except.ok.inj h ▸ h'⟩
  | error other =>
    exact ⟨fun h => .inl (congrArg Except.error (Except.error.inj h)),
      fun h => h.elim (fun h => congrArg Except.error (Except.error.inj h)) nofun⟩

/-- A list of steps succeeds if each of them does. -/
theorem mapM_cons_eq_ok {f : α → Except ε β} {a : α} {as : List α} {values : List β} :
    (a :: as).mapM f = .ok values ↔
      ∃ b bs, f a = .ok b ∧ as.mapM f = .ok bs ∧ values = b :: bs := by
  rw [List.mapM_cons, bind_eq_ok]
  constructor
  · rintro ⟨b, hb, h⟩
    obtain ⟨bs, hbs, h⟩ := bind_eq_ok.1 h
    exact ⟨b, bs, hb, hbs, (Except.ok.inj h).symm⟩
  · rintro ⟨b, bs, hb, hbs, rfl⟩
    exact ⟨b, hb, bind_eq_ok.2 ⟨bs, hbs, rfl⟩⟩

theorem mapM_nil_eq_ok {f : α → Except ε β} {values : List β} :
    [].mapM f = .ok values ↔ values = [] :=
  ⟨fun h => (Except.ok.inj h).symm, fun h => h ▸ rfl⟩

/-- What holds of the result of each step holds of all results. -/
theorem forall_mem_of_mapM_eq_ok {f : α → Except ε β} {p : β → Prop} {as : List α}
    {values : List β} (h : as.mapM f = .ok values) (hf : ∀ a ∈ as, ∀ b, f a = .ok b → p b) :
    ∀ value ∈ values, p value := by
  induction as generalizing values with
  | nil => exact mapM_nil_eq_ok.1 h ▸ List.forall_mem_nil p
  | cons a as ih =>
    obtain ⟨b, bs, hb, hbs, rfl⟩ := mapM_cons_eq_ok.1 h
    obtain ⟨hfirst, hrest⟩ := List.forall_mem_cons.1 hf
    exact List.forall_mem_cons.2 ⟨hfirst b hb, ih hbs hrest⟩

theorem length_of_mapM_eq_ok {f : α → Except ε β} {as : List α} {values : List β}
    (h : as.mapM f = .ok values) : values.length = as.length := by
  induction as generalizing values with
  | nil => exact mapM_nil_eq_ok.1 h ▸ rfl
  | cons a as ih =>
    obtain ⟨b, bs, -, hbs, rfl⟩ := mapM_cons_eq_ok.1 h
    rw [List.length_cons, List.length_cons, ih hbs]

/-! ### Computations that succeed -/

/-- The computation gives a value. -/
def Succeeds (computation : Except ε α) : Prop := ∃ value, computation = .ok value

theorem succeeds_ok (value : α) : Succeeds (.ok value : Except ε α) := ⟨value, rfl⟩

theorem succeeds_of_isOk {computation : Except ε α} (h : computation.isOk = true) :
    Succeeds computation := by
  cases computation with
  | ok value => exact succeeds_ok value
  | error error => cases h

theorem not_succeeds_error (error : ε) : ¬ Succeeds (.error error : Except ε α) := nofun

/-- Two steps succeed if both do, provided that the second one does not depend on the value of the
first one for that. -/
theorem succeeds_bind_iff {first : Except ε α} {next : α → Except ε β} {p : Prop}
    (hnext : ∀ between, Succeeds (next between) ↔ p) :
    Succeeds (first >>= next) ↔ Succeeds first ∧ p := by
  constructor
  · rintro ⟨value, h⟩
    obtain ⟨between, hfirst, hrest⟩ := bind_eq_ok.1 h
    exact ⟨⟨between, hfirst⟩, (hnext between).1 ⟨value, hrest⟩⟩
  · rintro ⟨⟨between, hfirst⟩, hp⟩
    obtain ⟨value, hrest⟩ := (hnext between).2 hp
    exact ⟨value, bind_eq_ok.2 ⟨between, hfirst, hrest⟩⟩

/-- Steps for the elements of a list succeed if each of them does. -/
theorem succeeds_mapM_iff {f : α → Except ε β} {as : List α} :
    Succeeds (as.mapM f) ↔ ∀ a ∈ as, Succeeds (f a) := by
  induction as with
  | nil => exact iff_of_true ⟨[], rfl⟩ (List.forall_mem_nil _)
  | cons a as ih =>
    rw [List.forall_mem_cons, ← ih]
    constructor
    · rintro ⟨values, h⟩
      obtain ⟨b, bs, hb, hbs, -⟩ := mapM_cons_eq_ok.1 h
      exact ⟨⟨b, hb⟩, ⟨bs, hbs⟩⟩
    · rintro ⟨⟨b, hb⟩, ⟨bs, hbs⟩⟩
      exact ⟨b :: bs, mapM_cons_eq_ok.2 ⟨b, bs, hb, hbs, rfl⟩⟩

end Timetable
