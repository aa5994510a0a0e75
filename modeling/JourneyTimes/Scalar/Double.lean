import JourneyTimes.Scalar

/-!
# Double precision scalars

Double precision numbers are the scalars a run computes with.  A finite
double is `mantissa * 2 ^ exponent` for whole numbers, and this module takes
doubles apart into that form and puts them together again.  The remainder of
a division is computed on the whole numbers, where it is exact.
-/

namespace JourneyTimes.Double

/-- A finite double without its sign: `mantissa * 2 ^ exponent`. -/
structure Parts where
  mantissa : Nat
  exponent : Int
deriving DecidableEq, Repr

/-- The bit in front of the fraction of a double: `2 ^ 52`. -/
def leadingBit : Nat := 0x10000000000000

/-- The number of values that the exponent field of a double has: `2 ^ 11`. -/
def exponentFields : Nat := 0x800

/-- The sign bit of a double: `2 ^ 63`. -/
def signBit : Nat := 0x8000000000000000

/-- The parts of the magnitude of a finite double. -/
def parts (value : Float) : Parts :=
  let bits : Nat := value.toBits.toNat
  let field : Nat := bits / leadingBit % exponentFields
  let fraction : Nat := bits % leadingBit
  if field = 0 then ⟨fraction, -1074⟩
  else ⟨leadingBit + fraction, (field : Int) - 1075⟩

/-- Whether the sign bit is set, as it also is for negative zero. -/
def isNegative (value : Float) : Bool :=
  value.toBits.toNat / signBit = 1

/-- The double with this sign and these parts, if they fit one exactly. -/
def ofParts (negative : Bool) (parts : Parts) : Float :=
  let magnitude := (Float.ofNat parts.mantissa).scaleB parts.exponent
  if negative then -magnitude else magnitude

/-- The parts of the remainder of two magnitudes, over the smaller of the two
exponents. -/
def Parts.remainder (dividend divisor : Parts) : Parts :=
  let exponent := min dividend.exponent divisor.exponent
  let align (side : Parts) : Nat :=
    side.mantissa * Nat.pow 2 (side.exponent - exponent).toNat
  ⟨align dividend % align divisor, exponent⟩

/-- The remainder of a division, exact and with the sign of the dividend. -/
def remainder (dividend divisor : Float) : Float :=
  if !dividend.isFinite || divisor.isNaN || divisor == 0 then
    Float.ofBits 0x7ff8000000000000
  else if divisor.isInf then dividend
  else ofParts (isNegative dividend) ((parts dividend).remainder (parts divisor))

instance : Scalar Float where
  zero := 0
  natCast := Float.ofNat
  decideLess := fun left right => inferInstanceAs (Decidable (left < right))
  decideAtMost := fun left right => inferInstanceAs (Decidable (left ≤ right))
  infinity := Float.ofBits 0x7ff0000000000000
  isFinite := Float.isFinite
  isUndefined := Float.isNaN
  remainder := remainder
  squareRoot := Float.sqrt
  angle := Float.atan2
  halfTurn := Float.ofBits 0x400921fb54442d18
  wholePart := fun value => value.toUInt64.toNat

end JourneyTimes.Double
