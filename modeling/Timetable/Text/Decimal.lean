/-!
Decimal numerals.

Of a number without sign: the shortest numeral, one padded with zeros to a width, and the number
that a row of digits denotes.

Of a positive binary number, which is a significand times a power of two: the shortest numeral that
reads back as it. All reals nearer to it than to its neighbours do, and so do those half-way if the
significand is even. Of the decimal grids, the coarsest one is taken that has a point among them; of
two such points the nearer one, and of two that are equally near the greater one. The arithmetic is
exact.
-/

namespace Timetable

namespace Decimal

/-- The digits of a number, with no leading zero. -/
def natural (n : Nat) : String := String.ofList (Nat.toDigits 10 n)

/-- The digits of a number after as many zeros as fill the width; a longer number is not cut. -/
def padded (width n : Nat) : String :=
  let digits := Nat.toDigits 10 n
  String.ofList (List.replicate (width - digits.length) '0' ++ digits)

/-- Two digits at least, as in clock times and week numbers. -/
def twoDigits (n : Nat) : String := padded 2 n

/-- The number that a row of ASCII digits denotes. -/
def value (digits : List Char) : Nat := Nat.ofDigitChars 10 digits 0

theorem value_toDigits (n : Nat) : value (Nat.toDigits 10 n) = n :=
  Nat.ofDigitChars_toDigits (by decide) (by decide)

theorem toList_natural (n : Nat) : (natural n).toList = Nat.toDigits 10 n :=
  String.toList_ofList

end Decimal

namespace Shortest

/-- A positive binary number `significand * 2 ^ exponent`; below a power of two, the neighbour may
be half as far as above. -/
structure Binary where
  significand : Nat
  exponent : Int
  closeBelow : Bool
  deriving DecidableEq, Repr

/-- A decimal number `digits * 10 ^ exponent`. -/
structure Numeral where
  digits : Nat
  exponent : Int
  deriving DecidableEq, Repr

/-- A power of ten; an exponent below zero gives one. -/
def tenTo (exponent : Int) : Nat := Nat.pow 10 exponent.toNat

/-- How often a fraction below one has to be multiplied by ten to reach one; at most the fuel. -/
def leadingZeros : Nat → Nat → Nat → Nat
  | 0, _, _ => 0
  | fuel + 1, numerator, denominator =>
    if denominator ≤ numerator then 0 else leadingZeros fuel (numerator * 10) denominator + 1

/-- The point of the grid `10 ^ exponent` that reads back as a number, if there is one. In units of
a quarter of the last binary place, the number is four times its significand and the numbers that
read back as it lie between `4 * significand - 2` (or `- 1`) and `4 * significand + 2`. -/
def onGrid? (number : Binary) (exponent : Int) : Option Numeral :=
  let scale := tenTo (-exponent) <<< (number.exponent - 2).toNat
  let unit := tenTo exponent <<< (2 - number.exponent).toNat
  let value := 4 * number.significand * scale
  let low := (4 * number.significand - if number.closeBelow then 1 else 2) * scale
  let high := (4 * number.significand + 2) * scale
  let readsBack (point : Nat) : Bool :=
    if number.significand % 2 = 0 then low ≤ point * unit && point * unit ≤ high
    else low < point * unit && point * unit < high
  let below := value / unit
  let above := below + 1
  if readsBack above && (!readsBack below || above * unit - value ≤ value - below * unit) then
    some ⟨above, exponent⟩
  else if readsBack below then some ⟨below, exponent⟩
  else none

/-- The exponent of ten of the first digit of a number. -/
def firstExponent (number : Binary) : Int :=
  let numerator := number.significand <<< number.exponent.toNat
  let denominator := 1 <<< (-number.exponent).toNat
  ((Nat.toDigits 10 (numerator / denominator)).length : Int) - 1 -
    leadingZeros 400 numerator denominator

/-- The shortest decimal number that reads back as a number. Seventeen digits always do, and a
number may round up to a power of ten above it. -/
def numeral (number : Binary) : Numeral :=
  ((List.range 18).findSome? fun (more : Nat) =>
    onGrid? number (firstExponent number + 1 - more)).getD ⟨0, 0⟩

/-- A decimal number without an exponent: a point and as many places as it needs, or neither. -/
def positional (number : Numeral) : String :=
  if 0 ≤ number.exponent then Decimal.natural (number.digits * tenTo number.exponent)
  else
    let unit := tenTo (-number.exponent)
    Decimal.natural (number.digits / unit) ++ "." ++
      Decimal.padded (-number.exponent).toNat (number.digits % unit)

end Shortest

end Timetable
