import Timetable.Text.Decimal

/-!
Places on earth, and the clocks that they follow.

Positions are binary floating-point numbers; `Angle` has the parts that such a number is made of,
its text, and the remainder of a division. Nothing is assumed of time zones: the type of zones is a
parameter of places, and so of all that asks for the times of the sun.
-/

namespace Timetable

namespace Angle

/-- The significand and the exponent of two of a finite number, without its sign. -/
def parts (x : Float) : Nat × Int :=
  let bits : Nat := x.toBits.toNat
  let exponent : Nat := (bits >>> 52) % 2048
  let fraction : Nat := bits % (1 <<< 52)
  if exponent = 0 then (fraction, -1074) else (fraction + (1 <<< 52), (exponent : Int) - 1075)

/-- Whether the sign is a minus; zero has a sign too. -/
def isNegative (x : Float) : Bool := 1 <<< 63 ≤ x.toBits.toNat

/-- The number with its significand and its exponent, for a reader that rounds to nearest. -/
def binary (x : Float) : Shortest.Binary :=
  let (significand, exponent) := parts x
  ⟨significand, exponent, significand == 1 <<< 52 && exponent != -1074⟩

/-- The shortest digits that read back as the number, never with an exponent. A whole number has no
point, and zero keeps its sign. -/
def text (x : Float) : String :=
  let sign := if isNegative x then "-" else ""
  if x.isNaN then "NaN"
  else if x.isInf then sign ++ "inf"
  else if (parts x).1 = 0 then sign ++ "0"
  else sign ++ Shortest.positional (Shortest.numeral (binary x))

/-- What is left of a number after as many whole divisors as it holds, with the sign of the number.
The remainder is exact: on the finer of the two binary grids both numbers are whole. -/
def remainder (x divisor : Float) : Float :=
  let (xs, xe) := parts x
  let (ds, de) := parts divisor
  let grid := min xe de
  let rest := (xs <<< (xe - grid).toNat) % (ds <<< (de - grid).toNat)
  let size := (Float.ofNat rest).scaleB grid
  if isNegative x then -size else size

end Angle

/-- A latitude and a longitude in degrees, within 90 and 180 degrees. A number that is not one does
not lie within any bounds. -/
structure Coordinates where
  lat : Float
  lon : Float
  within : (decide (lat.abs ≤ 90) && decide (lon.abs ≤ 180)) = true

namespace Coordinates

/-- The coordinates, if they are within their bounds (§10.4). -/
def ofDegrees? (lat lon : Float) : Option Coordinates :=
  if h : (decide (lat.abs ≤ 90) && decide (lon.abs ≤ 180)) = true then some ⟨lat, lon, h⟩ else none

/-- Coordinates are compared as numbers: the two zeros are equal. -/
instance : BEq Coordinates := ⟨fun a b => a.lat == b.lat && a.lon == b.lon⟩

/-- The pair in parentheses. -/
def text (coordinates : Coordinates) : String :=
  "(" ++ Angle.text coordinates.lat ++ ", " ++ Angle.text coordinates.lon ++ ")"

end Coordinates

/-- A place and its time zone (`Location`, §10.4). -/
structure Location (Zone : Type) where
  coordinates : Coordinates
  zone : Zone
  deriving BEq

/-- The coordinates and the name of the zone. -/
def Location.text {Zone : Type} (zoneName : Zone → String) (location : Location Zone) : String :=
  location.coordinates.text ++ " " ++ zoneName location.zone

end Timetable
