import Timetable.Proofs.Reading.Retouched
import Timetable.Proofs.Reading.Squeezed

/-!
Reading what tidying leaves.

Tidying drops the blanks beside commas. In a list that changes nothing, but a rule that adds to the
one before it stands behind a comma with a blank beside it, where lists without blanks stop. If the
rule before it ends in a list, its first item may be taken for one more item of that list
(`not_readTidied_laterWeek`). Nothing else comes of the blanks (`readRules_squeeze`), nor of what is
tidied in a text that can be read already: hours with one digit, blanks around the hyphens of spans,
midnight at the end of a span and blanks in comments. Where no rule that ends in a list stands
before one that adds to it, and a tidied text differs in no more than that, it is read as rules that
look the same (`readTidied_of_listsApart`). If neither midnight nor a comment was rewritten, they
are the same rules (`Sight.map_rule_exact`).
-/

namespace Timetable

namespace Expression

open Grammar

/-- The rules of a text stay the same when its blanks are moved. -/
theorem readRules_squeeze {text : List Char} {form : ExpressionForm} {rules : List Rule}
    (h : readRules text = .ok rules) (hform : parse text = .ok form) (hapart : form.ListsApart) :
    readRules ((squeeze .nothing text).dropWhile (· == ' ')) = .ok rules := by
  have hrelates : squeezing.relates (text.dropWhile (· == ' '))
      (((squeeze .nothing text).dropWhile (· == ' ')).dropWhile (· == ' ')) := by
    rw [dropWhile_eq_self_of_head (head?_dropWhile_space _)]
    exact dropWhile_squeeze text
  obtain ⟨rules', hrules', hsame⟩ := harmless_squeezing.exists_readRules h
    (fun _ other hother => Except.ok.inj (hform.symm.trans hother) ▸ hapart) hrelates
  rw [Sight.map_rule_exact, Sight.map_rule_exact] at hsame
  rw [hrules', hsame]

/-- The text with the blanks beside commas and semicolons moved, and nothing else changed. -/
def respace (text : String) : String :=
  String.ofList ((squeeze .nothing text.toList).dropWhile (· == ' '))

/-- Holidays that are closed, and hours on every day with a comment. -/
def closedHolidays : Expression where
  given := "SH off , 9:00 - 00:00 \"a  b\""
  source := "SH off , 9:00 - 00:00 \"a  b\""
  rules := [{
    selector := { weekdays := [.holiday .schoolHoliday] }
    kind := .closed },
  { spans := [.ofClock ⟨540, by decide⟩ .startOfDay]
    kind := .opened
    comment := some "a  b"
    additional := true }]

/-- If, beside moving blanks, tidying only pads hours, tightens hyphens, writes midnight as the end
of the day or a comment in another way, and no list stands before a rule that adds to it, the tidied
text is read as rules that look the same. -/
theorem readTidied_of_listsApart {text : String} {expression : Expression} {form : ExpressionForm}
    {sight : Sight} (h : read text = .ok expression) (hform : parse text.toList = .ok form)
    (hapart : form.ListsApart)
    (hretouched : Relation.ReflTransGen (Retouch sight) (respace text).toList
      (Tidy.tidy text).toList) :
    ∃ tidied, readTidied text = .ok tidied ∧
      tidied.rules.map sight.rule = expression.rules.map sight.rule := by
  obtain ⟨hrules, hlone, -, -⟩ := read_eq_ok.1 h
  have hrespaced : readRules (respace text).toList = .ok expression.rules := by
    rw [respace, String.toList_ofList]
    exact readRules_squeeze hrules hform hapart
  obtain ⟨rules, htidied, hsame⟩ := exists_readRules_of_retouches hretouched hrespaced
  -- A lone comment is a matter of the rules, and looks like one.
  have hlone' : (⟨text, Tidy.tidy text, rules⟩ : Expression).loneComment? = none := by
    rw [loneComment?_eq_none_iff] at hlone ⊢
    dsimp only
    rwa [← sight.isLoneComment_map_rule, hsame, sight.isLoneComment_map_rule]
  refine ⟨⟨text, Tidy.tidy text, rules⟩, bind_eq_ok.2 ⟨rules, htidied, ?_⟩, hsame⟩
  dsimp only
  rw [hlone']
  rfl

/-- The word between the list and the comma keeps the two rules apart. In the second one tidying
pads an hour, tightens a hyphen, moves midnight and collapses the blanks of the comment. -/
theorem readTidied_closedHolidays :
    read "SH off , 9:00 - 00:00 \"a  b\"" = .ok closedHolidays ∧
      ∃ tidied, readTidied "SH off , 9:00 - 00:00 \"a  b\"" = .ok tidied ∧
        tidied.rules.map Sight.tidied.rule = closedHolidays.rules.map Sight.tidied.rule := by
  have hread : read "SH off , 9:00 - 00:00 \"a  b\"" = .ok closedHolidays := by rfl
  have happart : (parse "SH off , 9:00 - 00:00 \"a  b\"".toList).toOption.any
      (fun form => decide form.ListsApart) = true := by rfl
  have hrespaced : respace "SH off , 9:00 - 00:00 \"a  b\"" =
      "SH off,9:00 - 00:00 \"a  b\"" := by rfl
  have htidied : Tidy.tidy "SH off , 9:00 - 00:00 \"a  b\"" =
      "SH off,09:00-24:00 \"a b\"" := by rfl
  have hour : Retouch .tidied "SH off,9:00 - 00:00 \"a  b\"".toList
      "SH off,09:00 - 00:00 \"a  b\"".toList :=
    .hour (.before "SH off,".toList rfl
      ⟨[','], ⟨',', rfl, rfl⟩, .inl ⟨"SH off".toList, rfl⟩⟩ trivial
      ⟨'9', "00 - 00:00 \"a  b\"".toList, rfl, rfl, rfl⟩ rfl rfl)
  have hyphen : Retouch .tidied "SH off,09:00 - 00:00 \"a  b\"".toList
      "SH off,09:00-00:00 \"a  b\"".toList :=
    .hyphen (.before "SH off,09:00".toList rfl
      ⟨"09:00".toList, .inl ⟨['0', '9'], ['0', '0'], by simp, by simp, rfl⟩,
        .inl ⟨"SH off,".toList, rfl⟩⟩ trivial
      ⟨1, 1, "00:00 \"a  b\"".toList,
        .inl ⟨['0', '0'], "00 \"a  b\"".toList, isHour_pair rfl rfl, rfl⟩, rfl, rfl⟩ rfl rfl)
  have midnight : Retouch .tidied "SH off,09:00-00:00 \"a  b\"".toList
      "SH off,09:00-24:00 \"a  b\"".toList :=
    .midnight rfl (.before "SH off,09:00-".toList rfl
      ⟨"09:00-".toList, ⟨"09:00".toList, ⟨['0', '9'], ['0', '0'], by simp, by simp, rfl⟩, rfl⟩,
        .inl ⟨"SH off,".toList, rfl⟩⟩ trivial
      ⟨" \"a  b\"".toList, rfl, rfl⟩ rfl rfl)
  have comment : Retouch .tidied "SH off,09:00-24:00 \"a  b\"".toList
      "SH off,09:00-24:00 \"a b\"".toList :=
    .comment (.before "SH off,09:00-24:00 ".toList rfl
      ⟨[], trivial, .inl List.nil_suffix⟩ trivial
      ⟨['a', ' ', ' ', 'b'], ['a', ' ', 'b'], [], by simp, by simp, rfl, rfl, rfl⟩ rfl rfl)
  refine ⟨hread, ?_⟩
  cases hform : parse "SH off , 9:00 - 00:00 \"a  b\"".toList with
  | error error =>
    rw [hform] at happart
    cases happart
  | ok form =>
    rw [hform] at happart
    refine readTidied_of_listsApart hread hform (of_decide_eq_true happart) ?_
    rw [hrespaced, htidied]
    exact (((Relation.ReflTransGen.single hour).tail hyphen).tail midnight).tail comment

/-- Without the blank behind the comma, the hour is read as one more week. -/
theorem not_readTidied_laterWeek :
    (∃ expression, read "week 10, 10:00-12:00" = .ok expression) ∧
      ∀ expression, readTidied "week 10, 10:00-12:00" ≠ .ok expression := by
  have hread : (read "week 10, 10:00-12:00").isOk = true := by rfl
  have htidied : (readTidied "week 10, 10:00-12:00").isOk = false := by rfl
  constructor
  · cases h : read "week 10, 10:00-12:00" with
    | ok expression => exact ⟨expression, rfl⟩
    | error error => rw [h] at hread; cases hread
  · intro expression h
    rw [h] at htidied
    cases htidied

end Expression

end Timetable
