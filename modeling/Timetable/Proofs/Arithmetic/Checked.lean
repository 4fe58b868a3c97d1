import Timetable.Proofs.Failure

/-!
Arithmetic with every assumption checked.

Numbers are kept in so many bits, with a sign or without. A calculation that leaves its bits, a
division by zero and a clock time past 48:00 are breaches, and each operation checks for its own.
-/

namespace Timetable

/-- The whole numbers that fit so many bits. -/
structure Width where
  least : Int
  greatest : Int
  deriving DecidableEq

/-- What may go wrong in a calculation. -/
inductive Breach where
  /-- The result does not fit its width. -/
  | outside (width : Width) (result : Int)
  /-- Something is divided by zero. -/
  | zeroDivisor
  /-- A clock time lies before 00:00 or after 48:00. -/
  | offClock (minutes : Int)
  deriving DecidableEq

/-- A calculation that is checked. -/
abbrev Checked := Except Breach

namespace Width

/-- Eight bits without a sign: a week, a day of the month. -/
def unsigned8 : Width := ⟨0, 255⟩

/-- Sixteen bits without a sign: a year, a number of minutes. -/
def unsigned16 : Width := ⟨0, 65535⟩

/-- 32 bits without a sign: parts of a clock time, a number of days to look ahead. -/
def unsigned32 : Width := ⟨0, 4294967295⟩

/-- Sixteen bits with a sign: the minutes by which an event is moved. -/
def signed16 : Width := ⟨-32768, 32767⟩

/-- 32 bits with a sign: what the date of Easter is computed from. -/
def signed32 : Width := ⟨-2147483648, 2147483647⟩

/-- 64 bits with a sign: the milliseconds of a duration. -/
def signed64 : Width := ⟨-9223372036854775808, 9223372036854775807⟩

/-- Whether a number fits. -/
def Fits (width : Width) (number : Int) : Prop := width.least ≤ number ∧ number ≤ width.greatest

instance (width : Width) (number : Int) : Decidable (width.Fits number) :=
  inferInstanceAs (Decidable (_ ∧ _))

/-- Asserts that a number fits. -/
def fit (width : Width) (number : Int) : Checked Int :=
  if width.Fits number then .ok number else .error (.outside width number)

/-- The sum of two numbers. -/
def plus (width : Width) (a b : Int) : Checked Int := width.fit (a + b)

/-- The difference of two numbers. -/
def minus (width : Width) (a b : Int) : Checked Int := width.fit (a - b)

/-- The product of two numbers. -/
def times (width : Width) (a b : Int) : Checked Int := width.fit (a * b)

/-- The quotient of two numbers, rounded towards zero. -/
def quotient (width : Width) (a b : Int) : Checked Int :=
  if b = 0 then .error .zeroDivisor else width.fit (a.tdiv b)

/-- The remainder of that division. It is not defined where the quotient does not fit. -/
def remainder (width : Width) (a b : Int) : Checked Int := do
  let _ ← width.quotient a b
  return a.tmod b

section Rules

variable {α : Type} {width : Width} {a b : Int}

theorem fit_eq (h : width.Fits a) : width.fit a = .ok a := if_pos h

theorem plus_eq (h : width.Fits (a + b)) : width.plus a b = .ok (a + b) := fit_eq h

theorem minus_eq (h : width.Fits (a - b)) : width.minus a b = .ok (a - b) := fit_eq h

theorem times_eq (h : width.Fits (a * b)) : width.times a b = .ok (a * b) := fit_eq h

/-- A calculation goes on with a sum that fits. -/
theorem plus_bind (h : width.Fits (a + b)) (next : Int → Checked α) :
    width.plus a b >>= next = next (a + b) := bind_of_eq_ok (plus_eq h) next

theorem minus_bind (h : width.Fits (a - b)) (next : Int → Checked α) :
    width.minus a b >>= next = next (a - b) := bind_of_eq_ok (minus_eq h) next

theorem times_bind (h : width.Fits (a * b)) (next : Int → Checked α) :
    width.times a b >>= next = next (a * b) := bind_of_eq_ok (times_eq h) next

theorem quotient_eq (hb : b ≠ 0) (h : width.Fits (a.tdiv b)) :
    width.quotient a b = .ok (a.tdiv b) := by
  rw [quotient, if_neg hb, fit_eq h]

/-- A quotient by something positive lies between the dividend and zero. -/
theorem Fits.tdiv (ha : width.Fits a) (hzero : width.Fits 0) (hb : 0 < b) :
    width.Fits (a.tdiv b) := by
  obtain ⟨haleast, hagreatest⟩ := ha
  obtain ⟨hleast, hgreatest⟩ := hzero
  rcases Int.le_total 0 a with hsign | hsign
  · have hnonneg : 0 ≤ a.tdiv b := Int.tdiv_nonneg hsign (Int.le_of_lt hb)
    have hle : a.tdiv b ≤ a := Int.tdiv_le_self b hsign
    exact ⟨by omega, by omega⟩
  · have hsign' : 0 ≤ -a := by omega
    have hnonneg : 0 ≤ (-a).tdiv b := Int.tdiv_nonneg hsign' (Int.le_of_lt hb)
    have hle : (-a).tdiv b ≤ -a := Int.tdiv_le_self b hsign'
    rw [Int.neg_tdiv] at hnonneg hle
    exact ⟨by omega, by omega⟩

/-- The quotient by something positive fits. Multiplied by the divisor, it lies less than a divisor
away from the dividend. -/
theorem exists_quotient (ha : width.Fits a) (hzero : width.Fits 0) (hb : 0 < b) :
    ∃ q, width.quotient a b = .ok q ∧ a.tdiv b = q ∧ b * q - b < a ∧ a < b * q + b := by
  have hdivision := Int.mul_tdiv_add_tmod a b
  have hleast := Int.lt_tmod_of_pos a hb
  have hgreatest := Int.tmod_lt_of_pos a hb
  exact ⟨a.tdiv b, quotient_eq (by omega) (ha.tdiv hzero hb), rfl, by omega, by omega⟩

/-- The remainder by something positive is smaller than the divisor, whatever its sign. -/
theorem exists_remainder (ha : width.Fits a) (hzero : width.Fits 0) (hb : 0 < b) :
    ∃ r, width.remainder a b = .ok r ∧ a.tmod b = r ∧ -b < r ∧ r < b := by
  refine ⟨a.tmod b, ?_, rfl, Int.lt_tmod_of_pos a hb, Int.tmod_lt_of_pos a hb⟩
  rw [remainder, quotient_eq (by omega) (ha.tdiv hzero hb)]
  rfl

theorem fit_natCast {n : Nat} (h : width.Fits n) : width.fit n = .ok (n : Int) := fit_eq h

/-- A remainder of natural numbers does not depend on how they are kept. -/
theorem remainder_natCast_eq {a step : Nat} (ha : width.Fits a) (hzero : width.Fits 0)
    (hstep : 1 ≤ step) : width.remainder a step = .ok ((a % step : Nat) : Int) := by
  have hpos : (0 : Int) < step := by omega
  rw [remainder, quotient_eq (by omega) (ha.tdiv hzero hpos), ok_bind, Int.ofNat_tmod]
  rfl

end Rules

theorem fits_unsigned8 {n : Nat} : unsigned8.Fits n ↔ n ≤ 255 := by
  have hgreatest : unsigned8.greatest = 255 := rfl
  have hleast : unsigned8.least = 0 := rfl
  unfold Fits
  omega

theorem fits_unsigned16 {n : Nat} : unsigned16.Fits n ↔ n ≤ 65535 := by
  have hgreatest : unsigned16.greatest = 65535 := rfl
  have hleast : unsigned16.least = 0 := rfl
  unfold Fits
  omega

theorem fits_unsigned32 {a : Int} : unsigned32.Fits a ↔ 0 ≤ a ∧ a ≤ 4294967295 := Iff.rfl

theorem fits_signed16 {a : Int} : signed16.Fits a ↔ -32768 ≤ a ∧ a ≤ 32767 := Iff.rfl

theorem fits_signed32 {a : Int} : signed32.Fits a ↔ -2147483648 ≤ a ∧ a ≤ 2147483647 := Iff.rfl

theorem fits_signed64 {a : Int} :
    signed64.Fits a ↔ -9223372036854775808 ≤ a ∧ a ≤ 9223372036854775807 := Iff.rfl

end Width

/-! ### Steps of which none fails -/

section Lists

variable {ε α β : Type} {as : List α}

/-- If no element is in breach, a list is mapped as it would be without checks. -/
theorem mapM_eq_ok_map {f : α → Except ε β} {g : α → β} (h : ∀ a ∈ as, f a = .ok (g a)) :
    as.mapM f = .ok (as.map g) := by
  induction as with
  | nil => rfl
  | cons a as ih =>
    obtain ⟨ha, has⟩ := List.forall_mem_cons.1 h
    rw [List.mapM_cons, ha, ih has]
    rfl

theorem anyM_eq_ok_any {f : α → Except ε Bool} {p : α → Bool} (h : ∀ a ∈ as, f a = .ok (p a)) :
    as.anyM f = .ok (as.any p) := by
  induction as with
  | nil => rfl
  | cons a as ih =>
    obtain ⟨ha, has⟩ := List.forall_mem_cons.1 h
    rw [List.anyM_cons, ha, ih has, List.any_cons]
    cases p a <;> rfl

theorem foldlM_eq_ok_foldl {f : β → α → Except ε β} {g : β → α → β}
    (h : ∀ b, ∀ a ∈ as, f b a = .ok (g b a)) (init : β) :
    as.foldlM f init = .ok (as.foldl g init) := by
  induction as generalizing init with
  | nil => rfl
  | cons a as ih =>
    rw [List.foldlM_cons, h init a List.mem_cons_self, List.foldl_cons]
    exact ih (fun b a ha => h b a (List.mem_cons_of_mem _ ha)) _

/-- The elements for which a check comes out true. -/
def keepM (check : α → Except ε Bool) : List α → Except ε (List α)
  | [] => .ok []
  | a :: as => do
    let kept ← check a
    let rest ← keepM check as
    return if kept then a :: rest else rest

theorem keepM_eq_ok_filter {f : α → Except ε Bool} {p : α → Bool} (h : ∀ a ∈ as, f a = .ok (p a)) :
    keepM f as = .ok (as.filter p) := by
  induction as with
  | nil => rfl
  | cons a as ih =>
    obtain ⟨ha, has⟩ := List.forall_mem_cons.1 h
    rw [keepM, ha, ih has, List.filter_cons]
    rfl

/-- Two checks without a breach, of which the second is made only if the first comes out true. -/
theorem andM_eq_ok {first second : Except ε Bool} {a b : Bool} (ha : first = .ok a)
    (hb : second = .ok b) : (first <&&> second) = .ok (a && b) := by
  rw [ha, hb]
  cases a <;> rfl

end Lists

end Timetable
