import Timetable.Proofs.Schedule.Bounds

/-!
A set of minutes is written in one way only.

Two schedules with the same minutes are equal (`Schedule.ext_contains`). As the intervals are in
order with a gap between them, the first one begins with the first minute of the set and ends where
the first gap begins; what is left without it is again such a set.
-/

namespace Timetable

namespace Schedule

section FirstInterval

variable {a b : Interval} {as bs : List Interval}

theorem start_le_of_covers (hgap : ∀ later ∈ as, a.stop < later.start) {minute : Nat}
    (h : Covers (a :: as) minute) : a.start ≤ minute := by
  have hlt := a.start_lt_stop
  rcases (covers_cons minute).1 h with hin | hlater
  · exact hin.1
  · have hstop : a.stop < minute :=
      Nat.lt_of_not_le fun hle => not_covers_of_le_stop hgap minute hle hlater
    omega

theorem covers_start (a : Interval) (as : List Interval) : Covers (a :: as) a.start :=
  (covers_cons _).2 (.inl ⟨Nat.le_refl _, a.start_lt_stop⟩)

/-- The end of the first interval is the first gap. -/
theorem not_covers_stop (hgap : ∀ later ∈ as, a.stop < later.start) :
    ¬ Covers (a :: as) a.stop := by
  rw [covers_cons_of_stop_le (Nat.le_refl _)]
  exact not_covers_of_le_stop hgap _ (Nat.le_refl _)

/-- Of two first intervals, one that ends in a gap of the other does not end before it. -/
theorem stop_le_of_not_covers (hstart : a.start = b.start) (h : ¬ Covers (b :: bs) a.stop) :
    b.stop ≤ a.stop := by
  have hlt := a.start_lt_stop
  refine Nat.le_of_not_lt fun hstop => h ((covers_cons _).2 (.inl ⟨?_, hstop⟩))
  omega

/-- The minutes of the later intervals are those after the end of the first one. -/
theorem covers_rest_iff (hgap : ∀ later ∈ as, a.stop < later.start) (minute : Nat) :
    Covers as minute ↔ a.stop ≤ minute ∧ Covers (a :: as) minute := by
  constructor
  · intro h
    have hle : a.stop ≤ minute :=
      Nat.le_of_not_lt fun hlt => not_covers_of_le_stop hgap minute (Nat.le_of_lt hlt) h
    exact ⟨hle, (covers_cons_of_stop_le hle).2 h⟩
  · rintro ⟨hle, h⟩
    exact (covers_cons_of_stop_le hle).1 h

end FirstInterval

theorem eq_of_covers_iff : ∀ {as bs : List Interval},
    as.Pairwise (fun a b => a.stop < b.start) → bs.Pairwise (fun a b => a.stop < b.start) →
    (∀ minute, Covers as minute ↔ Covers bs minute) → as = bs
  | [], [], _, _, _ => rfl
  | [], b :: bs, _, _, h => by
    obtain ⟨interval, hmem, -⟩ := (h b.start).2 (covers_start b bs)
    cases hmem
  | a :: as, [], _, _, h => by
    obtain ⟨interval, hmem, -⟩ := (h a.start).1 (covers_start a as)
    cases hmem
  | a :: as, b :: bs, ha, hb, h => by
    obtain ⟨hagap, hasep⟩ := List.pairwise_cons.1 ha
    obtain ⟨hbgap, hbsep⟩ := List.pairwise_cons.1 hb
    -- Both first intervals begin with the first minute of the set and end with its first gap.
    have hstart : a.start = b.start :=
      Nat.le_antisymm (start_le_of_covers hagap ((h _).2 (covers_start b bs)))
        (start_le_of_covers hbgap ((h _).1 (covers_start a as)))
    have hstop : a.stop = b.stop :=
      Nat.le_antisymm (stop_le_of_not_covers hstart.symm (mt (h _).1 (not_covers_stop hbgap)))
        (stop_le_of_not_covers hstart (mt (h _).2 (not_covers_stop hagap)))
    have hrest : as = bs := eq_of_covers_iff hasep hbsep fun minute => by
      rw [covers_rest_iff hagap, covers_rest_iff hbgap, h minute, hstop]
    rw [Interval.ext hstart hstop, hrest]

/-- Schedules with the same minutes are equal. -/
theorem ext_contains {a b : Schedule} (h : ∀ minute, a.Contains minute ↔ b.Contains minute) :
    a = b := by
  obtain ⟨as, ha⟩ := a
  obtain ⟨bs, hb⟩ := b
  obtain rfl := eq_of_covers_iff ha hb h
  rfl

end Schedule

end Timetable
