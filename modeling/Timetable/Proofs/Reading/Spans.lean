import Timetable.Proofs.Grammar.Lists
import Timetable.Proofs.Grammar.Words
import Timetable.Proofs.Reading.Bounds

/-!
Spans of time are read as they are written.

A span comes back whatever its moments are (`reads_span`), and so do spans with commas between them
(`reads_spans`). A list of spans goes on as long as a comma and another span come, and so it takes
the first span of an additional rule behind it (`fits_spans_more`).
-/

namespace Timetable

namespace Grammar

open Peg

variable {rest source : List Char}

/-! ### Clock times -/

theorem ofHourMinute?_hour_minute (time : ClockTime) :
    ClockTime.ofHourMinute? time.hour time.minute = some time := by
  have hminute : time.minute ≤ 59 := by
    unfold ClockTime.minute
    omega
  have hsum : time.hour * 60 + time.minute = time.minutes := by
    unfold ClockTime.hour ClockTime.minute
    omega
  unfold ClockTime.ofHourMinute? ClockTime.ofMinutes?
  rw [if_pos hminute, hsum, dif_pos time.minutes_le]

theorem reads_clock (time : ClockTime) (rest : List Char) :
    clock.Reads (time.text.toList ++ rest) rest fun form =>
      ∀ hours, time.minutes ≤ hours * 60 → form.interpret hours = .ok time := by
  have hle := time.minutes_le
  have hhour : (Decimal.twoDigits time.hour).toList.length = 2 :=
    Decimal.length_twoDigits (by unfold ClockTime.hour; omega)
  have hminute : (Decimal.twoDigits time.minute).toList.length = 2 :=
    Decimal.length_twoDigits (by unfold ClockTime.minute; omega)
  have hlimit : ∀ {row : List Char}, row.length = 2 → ∀ limit ∈ some 2, row.length ≤ limit := by
    rintro row hrow _ ⟨⟩
    exact Nat.le_of_eq hrow
  unfold ClockTime.text
  rw [String.toList_append, String.toList_append, List.append_assoc, List.append_assoc]
  apply Ends.named
  refine Ends.map (Ends.seq (Ends.followedBy (Ends.named (reads_chars
    Decimal.isDigit_twoDigits (by omega) (hlimit hhour) (.inr ⟨2, rfl, hhour⟩) rfl))
    (reads_token_cons ':' _)) (Ends.named (reads_chars Decimal.isDigit_twoDigits (by omega)
      (hlimit hminute) (.inr ⟨2, rfl, hminute⟩) rfl))) ?_
  rintro ⟨_, _⟩ ⟨rfl, rfl⟩ hours hhours
  unfold ClockForm.interpret
  dsimp only
  rw [Decimal.value_twoDigits, Decimal.value_twoDigits, ofHourMinute?_hour_minute]
  exact if_pos hhours

theorem exists_twoDigits {n : Nat} (h : n < 100) :
    ∃ c d, (Decimal.twoDigits n).toList = [c, d] ∧ c.isDigit = true ∧ d.isDigit = true := by
  have hlength := Decimal.length_twoDigits h
  have hdigits := @Decimal.isDigit_twoDigits n
  generalize (Decimal.twoDigits n).toList = row at hlength hdigits
  match row, hlength with
  | [c, d], _ => exact ⟨c, d, rfl, hdigits c (by simp), hdigits d (by simp)⟩

/-! ### Moments -/

/-- An offset is written as a sign and a clock time. -/
theorem offsetText_eq {offset : Int} (h : offset.natAbs ≤ 2880) :
    Moment.offsetText offset =
      (if offset < 0 then "-" else "+") ++ (ClockTime.mk offset.natAbs h).text := by
  simp only [Moment.offsetText, ClockTime.text, ClockTime.hour, ClockTime.minute,
    String.append_assoc]

theorem begins_moment (moment : Moment) (rest : List Char) :
    Begins .spans (moment.text.toList ++ rest) := by
  cases moment with
  | clock time =>
    have hle := time.minutes_le
    obtain ⟨c, d, heq, hc, hd⟩ := @exists_twoDigits time.hour (by unfold ClockTime.hour; omega)
    unfold Moment.text ClockTime.text
    rw [String.toList_append, String.toList_append, heq, List.append_assoc, List.append_assoc]
    exact .clock hc hd _
  | solar event offset =>
    unfold Moment.text
    dsimp only
    by_cases hzero : offset = 0
    · rw [if_pos hzero]
      exact .event event rest
    · rw [if_neg hzero]
      simp only [String.toList_append, List.append_assoc]
      exact .shifted _

theorem reads_sign (minus : Prop) [Decidable minus] (rest : List Char) :
    sign.Reads ((if minus then "-" else "+").toList ++ rest) rest (· = !decide minus) := by
  by_cases h : minus
  · rw [if_pos h, decide_eq_true h]
    exact fun _ => ⟨_, _, rfl, rfl, rfl⟩
  · rw [if_neg h, decide_eq_false h]
    exact fun _ => ⟨_, _, rfl, rfl, rfl⟩

theorem reads_shiftedEvent {event : SolarEvent} {offset : Int} (hoffset : offset.natAbs ≤ 1440)
    (rest : List Char) :
    shiftedEvent.Reads
      ('(' :: (event.keyword.toList ++ ((Moment.offsetText offset).toList ++ ')' :: rest))) rest
      fun form => ∀ hours, form.interpret hours = .ok (.solar event offset) := by
  have hle : offset.natAbs ≤ 2880 := Nat.le_trans hoffset (by decide)
  have hsign : space.Refuses ((if offset < 0 then "-" else "+").toList ++
      ((ClockTime.mk offset.natAbs hle).text.toList ++ ')' :: rest)) := by
    split <;> exact fun _ => rfl
  rw [offsetText_eq hle, String.toList_append, List.append_assoc]
  refine Ends.map (Ends.andThen (reads_token_cons '(' _) (Ends.andThen
    (reads_spaces_none (Begins.event event _).refuses_space) (Ends.seq
      (Ends.followedBy (reads_event event _) (reads_spaces_none hsign)) (Ends.seq
        (Ends.followedBy (reads_sign (offset < 0) _) (reads_spaces_none
          (begins_moment (.clock ⟨offset.natAbs, hle⟩) _).refuses_space))
        (Ends.followedBy (Ends.followedBy (reads_clock ⟨offset.natAbs, hle⟩ _)
          (reads_spaces_none (refuses_space (by decide)))) (reads_token_cons ')' rest)))))) ?_
  rintro ⟨event', later, amount⟩ ⟨rfl, rfl, hamount⟩ hours
  refine bind_eq_ok.2 ⟨_, hamount 24 hoffset, ?_⟩
  have hvalue : (if (!decide (offset < 0)) = true then (offset.natAbs : Int) else -offset.natAbs) =
      offset := by
    by_cases hneg : offset < 0
    · rw [decide_eq_true hneg, if_neg (by decide)]
      omega
    · rw [decide_eq_false hneg, if_pos (by decide)]
      omega
  exact congrArg (fun minutes => Except.ok (Moment.solar event' minutes)) hvalue

theorem reads_moment (moment' : Moment) (rest : List Char)
    (hbounds : ∃ hours, moment'.InBounds hours) :
    moment.Reads (moment'.text.toList ++ rest) rest fun form =>
      ∀ hours, moment'.InBounds hours → form.interpret hours = .ok moment' := by
  cases moment' with
  | clock time =>
    apply Ends.named
    refine Ends.choice_left (Ends.map (reads_clock time rest) ?_)
    intro form hform hours hbounds
    exact bind_eq_ok.2 ⟨time, hform hours hbounds, rfl⟩
  | solar event' offset =>
    obtain ⟨_, hoffset⟩ := hbounds
    unfold Moment.text
    dsimp only
    by_cases hzero : offset = 0
    · rw [if_pos hzero]
      have hclock : clock.Refuses (event'.keyword.toList ++ rest) := by
        cases event' <;> exact fun _ => rfl
      apply Ends.named
      refine Ends.choice_right hclock.map (Ends.named (Ends.choice_left
        (Ends.map (reads_event event' rest) ?_)))
      rintro _ rfl _ _
      rw [hzero]
      rfl
    · rw [if_neg hzero]
      simp only [String.toList_append, List.append_assoc]
      apply Ends.named
      refine Ends.choice_right (fun _ => rfl) (Ends.named (Ends.choice_right
        (fun _ => rfl) (Ends.mono (reads_shiftedEvent hoffset rest) ?_)))
      intro _ h hours _
      exact h hours

/-! ### Spans -/

theorem begins_span (span : TimeSpan) (rest : List Char) :
    Begins .spans (span.text.toList ++ rest) := by
  unfold TimeSpan.text
  rw [String.toList_append, String.toList_append, List.append_assoc, List.append_assoc]
  exact begins_moment span.beginning _

/-- A span is read as itself where no plus sign comes behind it. -/
theorem reads_span {span : TimeSpan} (hbounds : span.InBounds) (hrest : plus.Refuses rest) :
    Grammar.span.Reads (span.text.toList ++ rest) rest fun form => form.interpret = .ok span := by
  have hspaced : (spaced "-").Reads ('-' :: (span.ending.text.toList ++ rest))
      (span.ending.text.toList ++ rest) fun _ => True :=
    @reads_spaced _ "-" _ (refuses_space (by decide))
      (reads_spaces_none (begins_moment span.ending rest).refuses_space)
  unfold TimeSpan.text
  rw [String.toList_append, String.toList_append, List.append_assoc, List.append_assoc]
  apply Ends.named
  refine Ends.map (Ends.located (Ends.seq
    (reads_moment span.beginning _ ⟨24, hbounds.1⟩) (Ends.choice_left (Ends.map_self
      (Ends.andThen hspaced (Ends.seq (reads_moment span.ending rest ⟨48, hbounds.2⟩)
        (reads_optional_none hrest rfl))))))) ?_
  rintro ⟨⟨beginning, ending⟩, whole⟩ ⟨hbeginning, ⟨last, open'⟩, ⟨hlast, hopen⟩, hending⟩
  dsimp only at hbeginning hlast hopen hending
  subst hopen hending
  exact bind_eq_ok.2 ⟨span.beginning, hbeginning 24 hbounds.1,
    bind_eq_ok.2 ⟨span.ending, hlast 48 hbounds.2, rfl⟩⟩

/-- No span can be added behind a comma, nor a plus sign to the last one. -/
def EndsSpans (rest : List Char) : Prop :=
  plus.Refuses rest ∧ ((spaced ",").andThen span).Refuses rest

/-- A comma without blanks before a span. -/
theorem reads_spaced_comma (span : TimeSpan) (rest : List Char) :
    (spaced ",").Reads (',' :: (span.text.toList ++ rest)) (span.text.toList ++ rest)
      fun _ => True :=
  @reads_spaced _ "," _ (refuses_space (by decide))
    (reads_spaces_none (begins_span span rest).refuses_space)

theorem refuses_plus_comma (source : List Char) : plus.Refuses (',' :: source) :=
  Refuses.named (refuses_token_cons (by decide))

theorem reads_spans {times : List TimeSpan} (hne : times ≠ [])
    (hbounds : ∀ span ∈ times, span.InBounds) (hrest : EndsSpans rest) :
    spans.Reads ((String.intercalate "," (times.map TimeSpan.text)).toList ++ rest) rest
      fun forms => forms.mapM SpanForm.interpret = .ok times :=
  Ends.named (@reads_separatedBy _ _ _ _ span _ SpanForm.interpret TimeSpan.text
    (plus.Refuses ·) _ (consumes_spaced (show ",".toList ≠ [] by decide)) reads_spaced_comma
    refuses_plus_comma hrest.1 _ hne (fun span hmem _ => reads_span (hbounds span hmem)) hrest.2)

/-- Spans go on behind a comma with a blank: the list that is read is longer. -/
theorem fits_spans_more {times : List TimeSpan} {next : TimeSpan} (hne : times ≠ [])
    (hbounds : ∀ span ∈ times, span.InBounds) (hnext : next.InBounds) (hrest : plus.Refuses rest) :
    spans.Fits ((String.intercalate "," (times.map TimeSpan.text)).toList ++
      ',' :: ' ' :: (next.text.toList ++ rest)) fun forms => times.length < forms.length := by
  have hconsumes : ((spaced ",").andThen span).Consumes :=
    (consumes_spaced (show ",".toList ≠ [] by decide)).andThen
  have hcomma : (spaced ",").Reads (',' :: ' ' :: (next.text.toList ++ rest))
      (next.text.toList ++ rest) fun _ => True :=
    @reads_spaced _ "," _ (refuses_space (by decide))
      (reads_spaces_one (begins_span next rest).refuses_space)
  have hmany : ∀ others : List TimeSpan, (∀ span ∈ others, span.InBounds) →
      (many ((spaced ",").andThen span)).Fits (trail "," (others.map TimeSpan.text) ++
        ',' :: ' ' :: (next.text.toList ++ rest)) fun forms => others.length < forms.length := by
    intro others hothers
    induction others with
    | nil =>
      refine Ends.mono (Ends.many_step hconsumes
        (Ends.andThen hcomma (reads_span hnext hrest)) (fits_many _)) ?_
      rintro _ ⟨form, forms, rfl, -, -⟩
      exact Nat.succ_pos _
    | cons other others ih =>
      obtain ⟨hother, hothers⟩ := List.forall_mem_cons.1 hothers
      have hfollows := @follows_trail _ TimeSpan.text (plus.Refuses ·)
        (',' :: ' ' :: (next.text.toList ++ rest)) refuses_plus_comma (refuses_plus_comma _) others
      rw [List.map_cons, trail_cons, List.append_assoc, List.append_assoc]
      refine Ends.mono (Ends.many_step hconsumes
        (Ends.andThen (reads_spaced_comma other _) (reads_span hother hfollows)) (ih hothers)) ?_
      rintro _ ⟨form, forms, rfl, -, hlt⟩
      exact Nat.succ_lt_succ hlt
  obtain ⟨first, others, rfl⟩ := List.exists_cons_of_ne_nil hne
  obtain ⟨hfirst, hothers⟩ := List.forall_mem_cons.1 hbounds
  have hfollows := @follows_trail _ TimeSpan.text (plus.Refuses ·)
    (',' :: ' ' :: (next.text.toList ++ rest)) refuses_plus_comma (refuses_plus_comma _) others
  rw [List.map_cons, toList_intercalate_cons, List.append_assoc]
  exact Ends.named (Ends.map (Ends.seq (reads_span hfirst hfollows) (hmany others hothers))
    fun _ h => Nat.succ_lt_succ h.2)

end Grammar

end Timetable
