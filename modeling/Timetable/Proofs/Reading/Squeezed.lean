import Timetable.Proofs.Grammar.Squeeze
import Timetable.Proofs.Reading.Harmless

/-!
Reading a text whose blanks are moved.

The grammar allows blanks at most places where `squeeze` moves them, so that moving them is harmless
(`harmless_squeezing`), but for the commas that lose the blanks beside them. A semicolon at the end
of the text is dropped, and no rule is read behind it either.
-/

namespace Timetable.Grammar

open Peg

variable {c : Char} {text : List Char} {offset offset' : Nat}

/-- Blanks are moved. -/
def squeezing : Rewriting where
  relates text text' := text' = squeeze .nothing text
  loosens := True

theorem passes_squeezing (h : c ∉ [' ', ',', ';', '"', '[']) : squeezing.Passes c := by
  have hplain : isPlain c = true := by
    simp only [List.mem_cons, List.not_mem_nil, or_false, not_or] at h
    simp [isPlain, isGap, h]
  constructor
  · rintro text _ rfl
    exact head?_squeeze (isGap_of_isPlain hplain) text
  · intro rest rest' hrelates
    exact (List.cons.inj (hrelates.trans (squeeze_plain hplain rest))).2

/-- Where no mark is read, moving blanks changes nothing. -/
theorem steady_squeezing {α : Type} {peg : Peg α}
    (h : peg.avoids [' ', ',', ';', '"', '['] = true) : peg.Steady squeezing id :=
  steady_of_avoids (fun _ => passes_squeezing) h

/-! ### Blanks -/

theorem steady_spaces_squeezing : spaces.Steady squeezing id :=
  steady_spaces (by rintro text _ rfl; exact dropWhile_squeeze text)

section Pegs

variable {α β γ : Type} {peg : Peg α} {view : α → γ} {ends : α → Prop}

/-- What cannot begin with a comma or a semicolon is read behind blanks in the squeezed text as it
is in the text. -/
theorem tolerant_behindSpace_squeezing (h : peg.Tolerant squeezing view ends)
    (hidle : peg.idle = false) (hcomma : peg.opens ',' = false)
    (hsemicolon : peg.opens ';' = false) :
    (someSpace.andThen peg).Tolerant squeezing view ends := by
  rintro text _ rfl offset offset'
  by_cases hnext : ∃ c ∈ (text.dropWhile (· == ' ')).head?, isGap c = false
  · by_cases hhead : text.head? = some ' '
    · have hhead' := head?_squeeze_blank hhead hnext
      obtain ⟨rest, hrest⟩ := List.head?_eq_some_iff.1 hhead
      obtain ⟨rest', hrest'⟩ := List.head?_eq_some_iff.1 hhead'
      obtain ⟨_, stop, hresult, -⟩ := (reads_someSpace_dropWhile rest).exists_result offset
      obtain ⟨_, stop', hresult', -⟩ := (reads_someSpace_dropWhile rest').exists_result offset'
      have hsame := dropWhile_squeeze text
      rw [hrest', hrest, List.dropWhile_cons_of_pos (by decide),
        List.dropWhile_cons_of_pos (by decide)] at hsame
      rw [hrest', hrest, result_andThen, result_andThen, hresult, hresult', hsame]
      exact h _ _ rfl stop stop'
    · have hhead' := head?_dropWhile_space (squeeze .nothing text)
      rw [dropWhile_squeeze, dropWhile_eq_self_of_head hhead] at hhead'
      exact .of_refuses (Refuses.andThen (refuses_someSpace_head hhead))
        (Refuses.andThen (refuses_someSpace_head hhead')) _ _
  · -- A comma, a semicolon or the end comes behind the blanks, in the squeezed text as well.
    have hrefuses : ∀ rest : List Char, (∀ c ∈ rest.head?, isGap c = true ∧ c ≠ ' ') →
        peg.Refuses rest := by
      refine fun rest hrest => refuses_of_opens hidle fun c hc => ?_
      obtain ⟨hgap, hblank⟩ := hrest c hc
      simp only [isGap, Bool.or_eq_true, beq_iff_eq] at hgap
      rcases hgap with (rfl | rfl) | rfl
      · exact absurd rfl hblank
      · exact hcomma
      · exact hsemicolon
    have hgap : ∀ c ∈ (text.dropWhile (· == ' ')).head?, isGap c = true := fun c hc =>
      Bool.not_eq_false _ ▸ fun hno => hnext ⟨c, hc, hno⟩
    refine .of_refuses (refuses_behindSpace (hrefuses _ fun c hc => ?_))
      (refuses_behindSpace (hrefuses _ fun c hc => ?_)) _ _
    · exact ⟨hgap c hc, fun heq => head?_dropWhile_space text (heq ▸ hc)⟩
    · refine ⟨Bool.not_eq_false _ ▸ fun hno => ?_, fun heq => ?_⟩
      · rw [dropWhile_squeeze] at hc
        exact hnext ⟨c, (head?_squeeze hno _).1 hc, hno⟩
      · exact head?_dropWhile_space (squeeze .nothing text) (heq ▸ hc)

/-! ### Commas -/

theorem steady_comma_squeezing : (spaced ",").Steady squeezing id := by
  rintro text _ rfl offset offset'
  by_cases hcomma : (text.dropWhile (· == ' ')).head? = some ','
  · obtain ⟨rest, hrest⟩ := List.head?_eq_some_iff.1 hcomma
    have hreads : (spaced ",").Reads text (rest.dropWhile (· == ' ')) fun _ => True :=
      reads_spaced_dropWhile hrest
    have hreads' := @reads_spaced_dropWhile (squeeze .nothing text) ","
      (squeeze .nothing (rest.dropWhile (· == ' ')))
      (by rw [dropWhile_squeeze, hrest, squeeze_comma]; rfl)
    rw [dropWhile_squeeze, dropWhile_eq_self_of_head (head?_dropWhile_space rest)] at hreads'
    exact .of_reads hreads hreads' rfl (fun _ _ _ _ => rfl) _ _
  · refine .of_refuses (refuses_spaced_head rfl hcomma) (refuses_spaced_head rfl ?_) _ _
    rw [dropWhile_squeeze]
    exact mt (head?_squeeze_comma (head?_dropWhile_space text)).1 hcomma

/-- Behind a comma without blanks, the squeezed text goes on like the text. -/
theorem keepsCommas_squeezing : squeezing.KeepsCommas := by
  rintro α γ peg view ends hpeg text _ rfl htight offset offset'
  by_cases hcomma : text.head? = some ','
  · obtain ⟨rest, rfl⟩ := List.head?_eq_some_iff.1 hcomma
    have hrest : rest.head? ≠ some ' ' := fun heq => htight ⟨trivial, rest, rfl, .inr heq⟩
    obtain ⟨_, stop, hresult, -⟩ := (reads_token_cons ',' rest).exists_result offset
    obtain ⟨_, stop', hresult', -⟩ :=
      (reads_token_cons ',' (squeeze .nothing rest)).exists_result offset'
    rw [squeeze_comma, dropWhile_eq_self_of_head hrest, result_andThen, result_andThen, hresult,
      hresult']
    exact hpeg rest _ rfl stop stop'
  · refine .of_refuses (Refuses.andThen (refuses_token_head hcomma))
      (Refuses.andThen (refuses_token_head fun hcomma' => ?_)) _ _
    have hdrop := dropWhile_squeeze text
    rw [dropWhile_eq_self_of_head (by rw [hcomma']; decide)] at hdrop
    rw [hdrop, head?_squeeze_comma (head?_dropWhile_space text)] at hcomma'
    obtain ⟨rest, hrest⟩ := List.head?_eq_some_iff.1 hcomma'
    refine htight ⟨trivial, rest, hrest, .inl (Classical.byContradiction fun hhead => hcomma ?_)⟩
    rw [← dropWhile_eq_self_of_head hhead, hrest]
    rfl

end Pegs

/-! ### What is enclosed -/

theorem steady_enclosed_squeezing {enclosure : Enclosure} {first last : Char}
    (hne : enclosure ≠ .nothing) (hgap : isGap first = false)
    (hfirst : Enclosure.nothing.after first = enclosure)
    (hlast : ∀ c, enclosure.after c = if c = last then .nothing else enclosure) :
    ((token [first]).andThen ((chars (· != last) 0 none).followedBy (token [last]))).Steady
      squeezing id := by
  have hinside : ∀ {body : List Char}, last ∉ body → ∀ rest,
      squeeze enclosure (body ++ rest) = body ++ squeeze enclosure rest := fun hno =>
    squeeze_enclosed hne fun c hc => (hlast c).trans (if_neg fun heq => hno (by rwa [heq] at hc))
  rintro text _ rfl offset offset'
  by_cases hhead : text.head? = some first
  · obtain ⟨text, rfl⟩ := List.head?_eq_some_iff.1 hhead
    rw [squeeze_other hgap, hfirst]
    by_cases hmem : last ∈ text
    · obtain ⟨body, rest, rfl, hno⟩ := List.eq_append_cons_of_mem hmem
      rw [hinside hno, squeeze_inside hne, hlast, if_pos rfl]
      exact .of_reads (reads_enclosed first hno rest) (reads_enclosed first hno _) rfl
        (fun _ _ ha ha' => ha'.trans ha.symm) _ _
    · -- Without its end, nothing is squeezed and nothing is read.
      have hself := hinside hmem []
      rw [List.append_nil, squeeze_nil, List.append_nil] at hself
      rw [hself]
      exact .of_refuses (refuses_enclosed first hmem) (refuses_enclosed first hmem) _ _
  · exact .of_refuses (Refuses.andThen (refuses_token_head hhead))
      (Refuses.andThen (refuses_token_head (mt (head?_squeeze hgap text).1 hhead))) _ _

theorem harmlessInRule_squeezing : HarmlessInRule squeezing .exact := by
  have hbehind : ∀ {α : Type} {peg : Peg α}, peg.avoids [' ', ',', ';', '"', '['] = true →
      peg.idle = false → peg.opens ',' = false → peg.opens ';' = false →
        (someSpace.andThen peg).Steady squeezing id := fun havoids =>
    tolerant_behindSpace_squeezing (steady_squeezing havoids)
  have hweek : weekRange.Steady squeezing (meaning? WeekForm.interpret) :=
    (steady_squeezing rfl).seen
  exact {
    passes := fun c hc => passes_squeezing (not_mem_of_not_touched rfl hc)
    keepsCommas := keepsCommas_squeezing
    steady_always := steady_squeezing rfl
    steady_clock := (steady_squeezing rfl).seen
    steady_year := (steady_squeezing rfl).seen
    steady_dayNumber := (steady_squeezing rfl).seen
    steady_step := (steady_squeezing rfl).seen
    tolerant_weeks := tolerant_weeks_of (steady_squeezing rfl)
      (tolerant_behindSpace_squeezing hweek rfl rfl rfl)
      (hweek.manyBehindCommas keepsCommas_squeezing rfl rfl)
    steady_laterYear := (steady_squeezing rfl).seen
    steady_laterMonth := steady_squeezing rfl
    steady_laterWeekday := steady_squeezing rfl
    steady_dayOffset := steady_dayOffset_of
      (Steady.followedBy (hbehind rfl rfl rfl rfl) (hbehind rfl rfl rfl rfl))
    steady_occurrences := steady_occurrences_of
      (@steady_enclosed_squeezing .brackets '[' ']' nofun rfl rfl fun _ => rfl)
    steady_comment := steady_comment_of
      (Steady.seen (@steady_enclosed_squeezing .quotes '"' '"' nofun rfl rfl fun _ => rfl))
    steady_spaces := steady_spaces_squeezing
    steady_hyphen := (steady_spaces_squeezing.andThen (steady_squeezing rfl)).followedBy
      steady_spaces_squeezing
    steady_comma := steady_comma_squeezing
    steady_sign := steady_spaces_squeezing.andThen
      ((steady_squeezing rfl).followedBy steady_spaces_squeezing)
    behindSpace := fun hpeg hidle hopens => by
      simp only [List.all_cons, List.all_nil, Bool.and_eq_true, Bool.not_eq_true'] at hopens
      exact tolerant_behindSpace_squeezing hpeg hidle hopens.1 hopens.2.1 }

/-! ### Between rules -/

/-- Unless a semicolon comes next, the separator is the same. -/
theorem alike_separator (h : (text.dropWhile (· == ' ')).head? ≠ some ';') (offset offset' : Nat) :
    Alike squeezing (meaning? SeparatorForm.interpret) (fun _ => False)
      (separator.run ⟨text, offset⟩).result
      (separator.run ⟨squeeze .nothing text, offset'⟩).result := by
  have hsemicolon : (spaced ";").Refuses text := refuses_spaced_head rfl h
  have hsemicolon' : (spaced ";").Refuses (squeeze .nothing text) := by
    refine refuses_spaced_head rfl ?_
    rw [dropWhile_squeeze, head?_squeeze_eq (head?_dropWhile_space text) h]
    exact h
  have hmark : (named (spaced "||")).Steady squeezing id :=
    Leads.named (harmlessInRule_squeezing.steady_spaced rfl)
  have hcomma : (named (spaced ",")).Steady squeezing id := Leads.named steady_comma_squeezing
  have hfallback : (map (fun parts => SeparatorForm.fallback parts.2)
      (located (named (spaced "||")))).Steady squeezing (meaning? SeparatorForm.interpret) :=
    hmark.located.map fun _ _ _ => rfl
  have hadding : (map (fun _ => SeparatorForm.adding) (named (spaced ","))).Steady squeezing
      (meaning? SeparatorForm.interpret) := hcomma.map fun _ _ _ => rfl
  rw [separator, result_named, result_named, firstOf, List.foldr_cons, result_choice,
    result_choice]
  exact (Alike.of_refuses hsemicolon.named.map hsemicolon'.named.map _ _).or
    (hfallback.choice (hadding.choice tolerant_fail) text _ rfl offset offset')

/-- Behind the last rule there is no separator. -/
theorem refuses_separator_blank (h : text.dropWhile (· == ' ') = []) :
    separator.Refuses text := by
  have hmark : ∀ mark ∈ [";", "||", ","], (spaced mark).Refuses text := by
    intro mark hmem
    refine refuses_spaced_dropWhile ?_
    rw [h, List.prefix_nil]
    revert mark
    decide
  exact Refuses.named (Refuses.choice (hmark ";" (by simp)).named.map
    (Refuses.choice (hmark "||" (by simp)).named.located.map
      (Refuses.choice (hmark "," (by simp)).named.map fun _ => rfl)))

/-- A semicolon at the end of the text is dropped, but no rule is read behind it either. -/
theorem tolerant_part_squeezing : (seq separator rule).Tolerant squeezing (seenPart .exact)
    fun part => part.2.EndsInList := by
  rintro text _ rfl offset offset'
  by_cases hsemicolon : (text.dropWhile (· == ' ')).head? = some ';'
  · obtain ⟨more, hmore⟩ := List.head?_eq_some_iff.1 hsemicolon
    have hreads := reads_semicolon hmore
    have hdrop := dropWhile_squeeze text
    rw [hmore, squeeze_semicolon] at hdrop
    split at hdrop
    · rename_i hlast
      -- Another semicolon or the end comes next, as anything else would have stayed.
      have hrule : rule.Refuses (more.dropWhile (· == ' ')) := by
        refine refuses_of_opens rfl fun c hc => ?_
        by_cases hagain : (more.dropWhile (· == ' ')).head? = some ';'
        · obtain rfl := Option.some.inj (hagain.symm.trans hc)
          rfl
        · rw [← head?_squeeze_eq (head?_dropWhile_space more) hagain, hlast] at hc
          cases hc
      exact .of_refuses (Refuses.seq_right hreads hrule)
        (Refuses.seq_left (refuses_separator_blank hdrop)) _ _
    · have hreads' := reads_semicolon hdrop
      rw [List.dropWhile_cons_of_pos (by decide), dropWhile_squeeze,
        dropWhile_eq_self_of_head (head?_dropWhile_space more)] at hreads'
      have hseparator : Alike squeezing (meaning? SeparatorForm.interpret) (fun _ => False)
          (separator.run ⟨text, offset⟩).result
          (separator.run ⟨squeeze .nothing text, offset'⟩).result :=
        .of_reads hreads hreads' rfl (fun _ _ h h' => by rw [h, h']) _ _
      exact (hseparator.seq_steady harmlessInRule_squeezing.tolerant_rule).mono
        (fun _ _ => seen_part) fun _ => id
  · exact ((alike_separator hsemicolon offset offset').seq_steady
      harmlessInRule_squeezing.tolerant_rule).mono (fun _ _ => seen_part) fun _ => id

theorem exists_result_ending_squeezing {mark : Option Unit} {last : Cursor}
    (h : (ending.run ⟨text, offset⟩).result = some (mark, last)) (offset' : Nat) :
    ∃ r, (ending.run ⟨squeeze .nothing text, offset'⟩).result = some r := by
  have hblank : (squeeze .nothing text).dropWhile (· == ' ') = [] := by
    rw [dropWhile_squeeze]
    rcases blank_of_ending h with hblank | ⟨back, hmark, hback⟩
    · rw [show text.dropWhile (· == ' ') = [] from hblank]
      rfl
    · rw [show text.dropWhile (· == ' ') = ';' :: back from hmark, squeeze_semicolon, hback]
      rfl
  have hspaces := reads_spaces (squeeze .nothing text)
  rw [hblank] at hspaces
  have hmark : (optional (spaces.andThen (token [';']))).Reads (squeeze .nothing text)
      (squeeze .nothing text) (· = none) :=
    reads_optional_none (Refuses.andThen_right hspaces refuses_token_nil) rfl
  obtain ⟨_, stop, hresult, -⟩ := Ends.followedBy (Ends.followedBy hmark hspaces)
    (Ends.named (@reads_endOfText (fun _ => True) trivial)) offset'
  exact ⟨_, hresult⟩

/-- Blanks may be moved where lists stand apart. -/
theorem harmless_squeezing : Harmless squeezing .exact where
  toHarmlessInRule := harmlessInRule_squeezing
  tolerant_part := tolerant_part_squeezing
  exists_result_ending := by
    rintro text _ rfl offset mark last hresult
    exact exists_result_ending_squeezing hresult

end Timetable.Grammar
