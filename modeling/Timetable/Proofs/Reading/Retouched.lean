import Mathlib.Logic.Relation
import Timetable.Proofs.Reading.Hyphens

/-!
Reading a text that was retouched.

A text is retouched at one place at a time (`Retouch`): an hour is padded, the hyphen of a span is
tightened, the end of a span is written as the end of the day, or a comment is written in another
way. The first two change nothing that is read. The other two show in the rules, so that it depends
on the sight whether the rules look the same. However often a text is retouched, its rules are read
and look the same (`exists_readRules_of_retouches`).
-/

namespace Timetable

/-- What is seen where it does not matter to which day midnight belongs, nor where the comments have
blanks. -/
def Sight.tidied : Sight where
  time time := if time = .startOfDay then .endOfDay else time
  shift minutes := if minutes.natAbs = 1440 then 0 else minutes
  comment text := String.ofList (text.toList.filter (!isBlank ·))
  shift_congr := by
    intro amount amount' h
    by_cases hstart : amount = .startOfDay
    · by_cases hstart' : amount' = .startOfDay
      · rw [hstart, hstart']
        exact ⟨rfl, rfl⟩
      · rw [if_pos hstart, if_neg hstart'] at h
        rw [hstart, ← h]
        exact ⟨rfl, rfl⟩
    · by_cases hstart' : amount' = .startOfDay
      · rw [if_neg hstart, if_pos hstart'] at h
        rw [hstart', h]
        exact ⟨rfl, rfl⟩
      · rw [if_neg hstart, if_neg hstart'] at h
        rw [h]
        exact ⟨rfl, rfl⟩

namespace Grammar

open Peg

/-! ### Comments -/

/-- A comment becomes one that looks the same. -/
def recommenting (sight : Sight) : Touch where
  behind _ := True
  place here here' := ∃ body body' rest, '"' ∉ body ∧ '"' ∉ body' ∧
    sight.comment (String.ofList body') = sight.comment (String.ofList body) ∧
    here = '"' :: (body ++ '"' :: rest) ∧ here' = '"' :: (body' ++ '"' :: rest)

theorem harmless_recommenting (sight : Sight) :
    Harmless (recommenting sight).rewriting sight := by
  have hspares : ∀ c, c ≠ '"' → (recommenting sight).Spares c := by
    rintro c hc here here' ⟨body, body', rest, -, -, -, rfl, rfl⟩
    exact ⟨fun heq => hc (Option.some.inj heq).symm, fun heq => hc (Option.some.inj heq).symm⟩
  have hpasses : ∀ c ∉ ['"', '['], (recommenting sight).rewriting.Passes c := by
    intro c hc
    simp only [List.mem_cons, List.not_mem_nil, or_false, not_or] at hc
    exact Touch.passes_rewriting (Enclosure.after_of_ne hc.1 hc.2) (hspares c hc.1)
  have hoccurrences : occurrences.Steady (recommenting sight).rewriting fun _ => () :=
    Touch.steady_occurrences (hspares '[' (by decide))
  have hcomment : comment.Steady (recommenting sight).rewriting fun body =>
      sight.comment (String.ofList body) := by
    refine Touch.steady_comment ?_
    rintro here here' ⟨body, body', rest, hbody, hbody', hsame, rfl, rfl⟩ offset offset'
    exact .of_reads (reads_enclosed '"' hbody rest) (reads_enclosed '"' hbody' rest)
      (Touch.Within.same rfl) (fun _ _ ha ha' => by rw [ha, ha', hsame]) offset offset'
  refine (harmlessInRule_of_enclosed hpasses hoccurrences hcomment).harmless id
    (hpasses ';' (by decide)) fun hrelates => Touch.eq_nil_of_relates ?_ hrelates
  rintro here' ⟨body, body', rest, -, -, -, hnil, -⟩
  cases hnil

/-! ### Any number of changes -/

/-- A change after which the rules look the same. -/
inductive Retouch (sight : Sight) (text text' : List Char) : Prop where
  | hour (h : padding.rewriting.relates text text')
  | hyphen (h : tightening.rewriting.relates text text')
  | midnight (hsame : sight.time .endOfDay = sight.time .startOfDay)
      (h : midnight.rewriting.relates text text')
  | comment (h : (recommenting sight).rewriting.relates text text')

theorem Retouch.exists_harmless {sight : Sight} {text text' : List Char}
    (h : Retouch sight text text') :
    ∃ touch : Touch, Harmless touch.rewriting sight ∧ touch.rewriting.relates text text' := by
  cases h with
  | hour h => exact ⟨padding, harmless_padding sight, h⟩
  | hyphen h => exact ⟨tightening, harmless_tightening sight, h⟩
  | midnight hsame h => exact ⟨Grammar.midnight, harmless_midnight hsame, h⟩
  | comment h => exact ⟨recommenting sight, harmless_recommenting sight, h⟩

/-- However often a text is retouched, its rules look the same. -/
theorem exists_readRules_of_retouches {sight : Sight} {text text' : List Char} {rules : List Rule}
    (h : Relation.ReflTransGen (Retouch sight) text text')
    (hrules : Expression.readRules text = .ok rules) :
    ∃ rules', Expression.readRules text' = .ok rules' ∧
      rules'.map sight.rule = rules.map sight.rule := by
  induction h with
  | refl => exact ⟨rules, hrules, rfl⟩
  | tail _ hretouch ih =>
    obtain ⟨between, hbetween, hsame⟩ := ih
    obtain ⟨touch, hharmless, hrelates⟩ := hretouch.exists_harmless
    obtain ⟨rules', hrules', hsame'⟩ :=
      hharmless.exists_readRules_of_relates id hbetween hrelates
    exact ⟨rules', hrules', hsame'.trans hsame⟩

end Grammar

end Timetable
