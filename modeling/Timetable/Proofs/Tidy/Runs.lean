import Timetable.Proofs.Tidy.Correction
import Timetable.Text.Characters

/-!
Corrections of whole runs.

Some corrections look at the longest runs of characters of a class and at nothing else: at the
blanks, at the words, at the letters. Then the runs of the corrected text are known from those of
the text (`OnRuns.runsOf_correct`), and a text whose runs stay as they are stays as it is
(`OnRuns.correct_eq_self`). Runs are told apart by what stands between them, however long
(`runsOf_append_between`).
-/

namespace Timetable

/-! ### Runs -/

section Runs

variable {accepts : Char → Bool}

/-- The character that comes next, if any, belongs to no run. -/
def EndsRun (accepts : Char → Bool) (next : Option Char) : Prop := ∀ c ∈ next, accepts c = false

@[simp] theorem endsRun_none : EndsRun accepts none := nofun

@[simp] theorem endsRun_some {c : Char} : EndsRun accepts (some c) ↔ accepts c = false :=
  ⟨fun h => h c rfl, fun h _ hc => Option.some.inj hc ▸ h⟩

theorem runsAfter_append_other (current front back : List Char) {c : Char}
    (hc : accepts c = false) :
    runsAfter accepts current (front ++ c :: back) =
      runsAfter accepts current front ++ runsOf accepts back := by
  induction front generalizing current with
  | nil => cases current <;> simp [runsAfter, runsOf, hc]
  | cons d front ih =>
    simp only [List.cons_append, runsAfter]
    split
    · exact ih _
    · split
      · exact ih _
      · rw [ih, List.cons_append]

theorem runsOf_append_other (front back : List Char) {c : Char} (hc : accepts c = false) :
    runsOf accepts (front ++ c :: back) = runsOf accepts front ++ runsOf accepts back :=
  runsAfter_append_other [] front back hc

@[simp] theorem runsOf_nil : runsOf accepts [] = [] := rfl

theorem runsOf_cons_other {c : Char} (hc : accepts c = false) (back : List Char) :
    runsOf accepts (c :: back) = runsOf accepts back :=
  runsOf_append_other [] back hc

theorem runsOf_append_of_head {front back : List Char} (h : EndsRun accepts back.head?) :
    runsOf accepts (front ++ back) = runsOf accepts front ++ runsOf accepts back := by
  cases back with
  | nil => simp
  | cons c back =>
    have hc := endsRun_some.1 h
    rw [runsOf_append_other front back hc, runsOf_cons_other hc]

theorem runsOf_append_of_last {front back : List Char} (h : EndsRun accepts front.getLast?) :
    runsOf accepts (front ++ back) = runsOf accepts front ++ runsOf accepts back := by
  rcases List.eq_nil_or_concat front with rfl | ⟨front, c, rfl⟩
  · rfl
  · rw [List.concat_eq_append] at h ⊢
    have hc : accepts c = false := h c List.getLast?_concat
    rw [List.append_assoc, List.singleton_append, runsOf_append_other front back hc,
      runsOf_append_other front [] hc, runsOf_nil, List.append_nil]

/-- Of what stands between two runs, only that there is something counts. -/
theorem runsOf_append_between {between : List Char} (hne : between ≠ [])
    (hbetween : ∀ c ∈ between, accepts c = false) (front back : List Char) :
    runsOf accepts (front ++ (between ++ back)) = runsOf accepts front ++ runsOf accepts back := by
  induction between generalizing front with
  | nil => exact absurd rfl hne
  | cons c between ih =>
    obtain ⟨hc, hrest⟩ := List.forall_mem_cons.1 hbetween
    rw [List.cons_append, runsOf_append_other _ _ hc]
    cases between with
    | nil => rfl
    | cons d between =>
      have hback := ih nofun hrest []
      rw [List.nil_append, runsOf_nil, List.nil_append] at hback
      rw [hback]

theorem runsAfter_run {run : List Char} (h : ∀ c ∈ run, accepts c = true) (current : List Char)
    (hne : run ≠ [] ∨ current ≠ []) :
    runsAfter accepts current run = [current.reverse ++ run] := by
  induction run generalizing current with
  | nil =>
    cases current with
    | nil => simp at hne
    | cons c current => simp [runsAfter]
  | cons c run ih =>
    obtain ⟨hc, hrun⟩ := List.forall_mem_cons.1 h
    rw [runsAfter, if_pos hc, ih hrun (c :: current) (.inr (List.cons_ne_nil _ _))]
    simp

theorem runsOf_run {run : List Char} (hne : run ≠ []) (h : ∀ c ∈ run, accepts c = true) :
    runsOf accepts run = [run] :=
  runsAfter_run h [] (.inl hne)

theorem runsOf_run_append {run rest : List Char} (hne : run ≠ [])
    (h : ∀ c ∈ run, accepts c = true) (hrest : EndsRun accepts rest.head?) :
    runsOf accepts (run ++ rest) = run :: runsOf accepts rest := by
  rw [runsOf_append_of_head hrest, runsOf_run hne h]
  rfl

/-- A text begins with a character that belongs to no run, or with a run. -/
theorem run_induction (accepts : Char → Bool) {P : List Char → Prop} (nil : P [])
    (other : ∀ c rest, accepts c = false → P rest → P (c :: rest))
    (run : ∀ run rest, run ≠ [] → (∀ c ∈ run, accepts c = true) → EndsRun accepts rest.head? →
      P rest → P (run ++ rest)) (text : List Char) : P text := by
  induction hlength : text.length using Nat.strongRecOn generalizing text with
  | ind length ih =>
    cases text with
    | nil => exact nil
    | cons c rest =>
      cases hc : accepts c with
      | false => exact other c rest hc (ih _ (by simp [← hlength]) rest rfl)
      | true =>
        have htake : (c :: rest).takeWhile accepts ≠ [] := by simp [hc]
        have hhead : EndsRun accepts ((c :: rest).dropWhile accepts).head? := by
          intro d hd
          have := List.head?_dropWhile_not accepts (c :: rest)
          rw [hd] at this
          simpa using this
        have hdrop := congrArg List.length
          (List.takeWhile_append_dropWhile (p := accepts) (l := c :: rest))
        rw [List.length_append] at hdrop
        have hpos := List.length_pos_iff.2 htake
        rw [← List.takeWhile_append_dropWhile (p := accepts) (l := c :: rest)]
        exact run _ _ htake (fun d hd => List.all_eq_true.1 List.all_takeWhile d hd) hhead
          (ih _ (by omega) _ rfl)

/-- Every run has a character, and all of its characters are of the class. -/
theorem of_mem_runsOf {text run : List Char} (h : run ∈ runsOf accepts text) :
    run ≠ [] ∧ ∀ c ∈ run, accepts c = true := by
  induction text using run_induction accepts with
  | nil => cases h
  | other c rest hc ih =>
    rw [runsOf_cons_other hc] at h
    exact ih h
  | run run' rest hne hrun hrest ih =>
    rw [runsOf_run_append hne hrun hrest] at h
    rcases List.mem_cons.1 h with rfl | hmem
    · exact ⟨hne, hrun⟩
    · exact ih hmem

theorem mem_of_mem_runsOf {text run : List Char} (h : run ∈ runsOf accepts text) {c : Char}
    (hc : c ∈ run) : c ∈ text := by
  induction text using run_induction accepts with
  | nil => cases h
  | other d rest hd ih =>
    rw [runsOf_cons_other hd] at h
    exact List.mem_cons_of_mem _ (ih h)
  | run run' rest hne hrun hrest ih =>
    rw [runsOf_run_append hne hrun hrest] at h
    rcases List.mem_cons.1 h with rfl | hmem
    · exact List.mem_append_left _ hc
    · exact List.mem_append_right _ (ih hmem)

/-- A run begins where no run ends. -/
theorem not_endsRun {run rest : List Char} (hne : run ≠ []) (hrun : ∀ c ∈ run, accepts c = true) :
    ¬ EndsRun accepts (run ++ rest).head? := by
  obtain ⟨c, run, rfl⟩ := List.exists_cons_of_ne_nil hne
  rw [List.cons_append, List.head?_cons, endsRun_some, hrun c List.mem_cons_self]
  exact Bool.noConfusion

theorem takeWhile_run {run rest : List Char} (hrun : ∀ c ∈ run, accepts c = true)
    (hrest : EndsRun accepts rest.head?) : (run ++ rest).takeWhile accepts = run := by
  rw [List.takeWhile_append_of_pos hrun]
  cases rest with
  | nil => simp
  | cons c rest => simp [endsRun_some.1 hrest]

theorem dropWhile_run {run rest : List Char} (hrun : ∀ c ∈ run, accepts c = true)
    (hrest : EndsRun accepts rest.head?) : (run ++ rest).dropWhile accepts = rest := by
  rw [List.dropWhile_append_of_pos hrun]
  cases rest with
  | nil => rfl
  | cons c rest => simp [endsRun_some.1 hrest]

/-- The run at the beginning of a text is determined by the text. -/
theorem run_inj {run run' rest rest' : List Char} (hrun : ∀ c ∈ run, accepts c = true)
    (hrest : EndsRun accepts rest.head?) (hrun' : ∀ c ∈ run', accepts c = true)
    (hrest' : EndsRun accepts rest'.head?) (h : run ++ rest = run' ++ rest') :
    run = run' ∧ rest = rest' := by
  constructor
  · rw [← takeWhile_run hrun hrest, h, takeWhile_run hrun' hrest']
  · rw [← dropWhile_run hrun hrest, h, dropWhile_run hrun' hrest']

end Runs

namespace Tidy

/-! ### Corrections of runs -/

/-- What a correction makes of a whole text, if it applies to it at once. -/
def Correction.onWhole (correction : Correction) (text : List Char) : List Char :=
  ((correction none text).map Prod.fst).getD text

/-- A correction looks at the whole of a run and at nothing else. -/
structure OnRuns (correction : Correction) (accepts : Char → Bool) : Prop where
  other : ∀ before c rest, accepts c = false → correction before (c :: rest) = none
  whole : ∀ {before : Option Char} {run rest : List Char}, EndsRun accepts before → run ≠ [] →
    (∀ c ∈ run, accepts c = true) → EndsRun accepts rest.head? →
    correction before (run ++ rest) = (correction none run).map fun result => (result.1, rest)
  inside : ∀ {run : List Char}, run ≠ [] → (∀ c ∈ run, accepts c = true) →
    correction none run = none → ∀ c text, accepts c = true → correction (some c) text = none

namespace OnRuns

variable {correction : Correction} {accepts : Char → Bool} {before : Option Char}

theorem correctFrom_other (h : OnRuns correction accepts) {c : Char} (hc : accepts c = false)
    (before : Option Char) (rest : List Char) :
    correctFrom correction 0 before (c :: rest) = c :: correctFrom correction 0 (some c) rest :=
  correctFrom_of_none (h.other before c rest hc)

/-- What is corrected ends the runs that the text ends. -/
theorem endsRun_correctFrom (h : OnRuns correction accepts) {rest : List Char}
    (hrest : EndsRun accepts rest.head?) (before : Option Char) :
    EndsRun accepts (correctFrom correction 0 before rest).head? := by
  cases rest with
  | nil => exact hrest
  | cons c rest =>
    rw [h.correctFrom_other (endsRun_some.1 hrest)]
    exact hrest

/-- Behind the first character of a run, nothing is corrected if the run was not. -/
theorem correctFrom_inside (h : ∀ c text, accepts c = true → correction (some c) text = none)
    {run : List Char} (hrun : ∀ c ∈ run, accepts c = true) {c : Char} (hc : accepts c = true)
    (rest : List Char) :
    correctFrom correction 0 (some c) (run ++ rest) =
      run ++ correctFrom correction 0 (c :: run).getLast? rest := by
  induction run generalizing c with
  | nil => rfl
  | cons d run ih =>
    obtain ⟨hd, hrun⟩ := List.forall_mem_cons.1 hrun
    rw [List.cons_append, correctFrom_of_none (h c _ hc), ih hrun hd]
    rfl

theorem correctFrom_run (h : OnRuns correction accepts) {run rest : List Char}
    (hbefore : EndsRun accepts before) (hne : run ≠ []) (hrun : ∀ c ∈ run, accepts c = true)
    (hrest : EndsRun accepts rest.head?) :
    correctFrom correction 0 before (run ++ rest) =
      correction.onWhole run ++ correctFrom correction 0 run.getLast? rest := by
  have hwhole := h.whole hbefore hne hrun hrest
  unfold Correction.onWhole
  cases hresult : correction none run with
  | some result =>
    rw [hresult] at hwhole
    rw [correctFrom_of_some hne hwhole]
    rfl
  | none =>
    rw [hresult] at hwhole
    have hinside := h.inside hne hrun hresult
    obtain ⟨c, run, rfl⟩ := List.exists_cons_of_ne_nil hne
    obtain ⟨hc, hrun⟩ := List.forall_mem_cons.1 hrun
    exact (correctFrom_of_none hwhole).trans
      (congrArg (c :: ·) (correctFrom_inside hinside hrun hc rest))

/-- The runs of the corrected text. -/
theorem runsOf_correct (h : OnRuns correction accepts) (text : List Char) :
    runsOf accepts (correct correction text) =
      (runsOf accepts text).flatMap fun run => runsOf accepts (correction.onWhole run) := by
  have hscan : ∀ before, EndsRun accepts text.head? ∨ EndsRun accepts before →
      runsOf accepts (correctFrom correction 0 before text) =
        (runsOf accepts text).flatMap fun run => runsOf accepts (correction.onWhole run) := by
    induction text using run_induction accepts with
    | nil => exact fun _ _ => rfl
    | other c rest hc ih =>
      intro before _
      rw [h.correctFrom_other hc, runsOf_cons_other hc, runsOf_cons_other hc,
        ih _ (.inr (endsRun_some.2 hc))]
    | run run rest hne hrun hrest ih =>
      intro before hbefore
      have hbefore : EndsRun accepts before := hbefore.resolve_left (not_endsRun hne hrun)
      rw [h.correctFrom_run hbefore hne hrun hrest,
        runsOf_append_of_head (h.endsRun_correctFrom hrest _), ih _ (.inl hrest),
        runsOf_run_append hne hrun hrest, List.flatMap_cons]
  exact hscan none (.inr endsRun_none)

/-- A text stays as it is if each of its runs does. -/
theorem correct_eq_self (h : OnRuns correction accepts) {text : List Char}
    (hruns : ∀ run ∈ runsOf accepts text, correction.onWhole run = run) :
    correct correction text = text := by
  have hscan : ∀ before, EndsRun accepts text.head? ∨ EndsRun accepts before →
      correctFrom correction 0 before text = text := by
    induction text using run_induction accepts with
    | nil => exact fun _ _ => rfl
    | other c rest hc ih =>
      intro before _
      rw [runsOf_cons_other hc] at hruns
      rw [h.correctFrom_other hc, ih hruns _ (.inr (endsRun_some.2 hc))]
    | run run rest hne hrun hrest ih =>
      intro before hbefore
      have hbefore : EndsRun accepts before := hbefore.resolve_left (not_endsRun hne hrun)
      rw [runsOf_run_append hne hrun hrest] at hruns
      obtain ⟨hself, hruns⟩ := List.forall_mem_cons.1 hruns
      rw [h.correctFrom_run hbefore hne hrun hrest, hself, ih hruns _ (.inl hrest)]
  exact hscan none (.inr endsRun_none)

end OnRuns

end Tidy

end Timetable
