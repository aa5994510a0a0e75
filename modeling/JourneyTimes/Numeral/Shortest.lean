import JourneyTimes.Numeral
import JourneyTimes.Scalar.Double

/-!
# Shortest numerals of doubles

A double is written with the fewest decimal digits that read back as the same
double, and among those with the digits nearest to it.  Every real number in
an interval around a double reads back as it: the interval ends half way to
either neighbour, and the ends belong to it when the mantissa is even.

The search goes through the decimal grids from coarse to fine.  On each grid
only the two points next to the double can be the nearest hit, so it is
enough to test those two.  All of this happens on whole numbers.
-/

namespace JourneyTimes.Numeral

open JourneyTimes.Double (Parts)

/-- The numbers that read back as one double, as numerators over `scale`. -/
structure Rounding where
  low : Nat
  centre : Nat
  high : Nat
  scale : Nat
  closed : Bool

/-- The interval around a double that is not zero.  The neighbour below a
power of two is only half as far away as the neighbour above. -/
def Rounding.around (parts : Parts) : Rounding :=
  let unit := Nat.pow 2 parts.exponent.toNat
  let below :=
    if parts.mantissa = Double.leadingBit ∧ -1074 < parts.exponent then 1 else 2
  { low := (4 * parts.mantissa - below) * unit
    centre := 4 * parts.mantissa * unit
    high := (4 * parts.mantissa + 2) * unit
    scale := 4 * Nat.pow 2 (-parts.exponent).toNat
    closed := parts.mantissa % 2 = 0 }

/-- The grid of multiples of `10 ^ exponent`, in the numerators of an
interval: `point` grid steps are the numerator `point * step`, after the
numerators of the interval are multiplied by `stretch`. -/
structure Grid where
  exponent : Int
  step : Nat
  stretch : Nat

/-- The grid of multiples of a power of ten over an interval. -/
def Grid.over (interval : Rounding) (exponent : Int) : Grid :=
  { exponent
    step := Nat.pow 10 exponent.toNat * interval.scale
    stretch := Nat.pow 10 (-exponent).toNat }

/-- Whether a grid point reads back as the double. -/
def Grid.hits (grid : Grid) (interval : Rounding) (point : Nat) : Bool :=
  let position := point * grid.step
  let low := interval.low * grid.stretch
  let high := interval.high * grid.stretch
  if interval.closed then low ≤ position && position ≤ high
  else low < position && position < high

/-- The nearest grid point that reads back, if there is one.  A double half
way between two points goes to the upper one. -/
def Grid.nearest? (grid : Grid) (interval : Rounding) : Option Nat :=
  let centre := interval.centre * grid.stretch
  let lower := centre / grid.step
  let rest := centre % grid.step
  match grid.hits interval lower, grid.hits interval (lower + 1) with
  | true, true => some (if 2 * rest < grid.step then lower else lower + 1)
  | true, false => some lower
  | false, true => some (lower + 1)
  | false, false => none

/-- How many digits a number smaller than one has before its first one that is
not zero, counted as a power of ten; `fuel` bounds the search. -/
def leadingPower (numerator denominator : Nat) : Nat → Int
  | 0 => 0
  | fuel + 1 =>
    if denominator ≤ 10 * numerator then 0
    else leadingPower (10 * numerator) denominator fuel - 1

/-- The least power of ten that is greater than the centre of an interval. -/
def Rounding.power (interval : Rounding) : Int :=
  if interval.scale ≤ interval.centre then
    (digitsOf (interval.centre / interval.scale)).length
  else leadingPower interval.centre interval.scale 400

/-- The first grid with a hit, from `10 ^ exponent` to ever finer ones.
Seventeen digits always suffice. -/
def coarsest (interval : Rounding) : Nat → Int → Nat × Int
  | 0, exponent => (0, exponent)
  | fuel + 1, exponent =>
    match (Grid.over interval exponent).nearest? interval with
    | some point => (point, exponent)
    | none => coarsest interval fuel (exponent - 1)

/-- The numeral of a double: the shortest, and then the nearest, that reads
back as it. -/
def ofDouble (value : Float) : Numeral :=
  if value.isNaN then .undefined
  else if value.isInf then .infinite (Double.isNegative value)
  else
    let parts := Double.parts value
    if parts.mantissa = 0 then .decimal (Double.isNegative value) 0 0
    else
      let interval := Rounding.around parts
      let (digits, exponent) := coarsest interval 20 (interval.power - 1)
      .decimal (Double.isNegative value) digits exponent

/-- The double nearest to a numeral.  Beyond four hundred digits in front of
or behind the point nothing but infinity and zero are near. -/
def toDouble : Numeral → Float
  | .decimal negative digits exponent =>
    let size : Int := (digitsOf digits).length + exponent
    let magnitude : Float :=
      if digits = 0 ∨ size < -400 then 0
      else if 400 < size then Scalar.infinity
      else Float.ofScientific digits (exponent < 0) exponent.natAbs
    if negative then -magnitude else magnitude
  | .infinite negative =>
    if negative then -Scalar.infinity else Scalar.infinity
  | .undefined => Float.ofBits 0x7ff8000000000000

instance : Numeric Float where
  ofNumeral := toDouble
  numeral := ofDouble

end JourneyTimes.Numeral
