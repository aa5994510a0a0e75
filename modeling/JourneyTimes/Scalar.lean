/-!
# Scalars

Coordinates, lengths, times and costs are scalars.  Everything this library
computes with them goes through the operations gathered here, so that the
same definitions run on double precision numbers and can be studied over an
exact number system extended with infinities.

A scalar may be *undefined*: the difference of two infinities has no value,
and no comparison with an undefined scalar holds, not even with itself.  For
that reason comparisons are decidable propositions of their own and never
derived from one another.
-/

namespace JourneyTimes

/-- The arithmetic that routing needs. -/
class Scalar (α : Type) extends
    Zero α, NatCast α, Add α, Sub α, Mul α, Div α, Neg α, LT α, LE α, BEq α where
  /-- Strict comparison is decidable. -/
  decideLess (left right : α) : Decidable (left < right)
  /-- Comparison is decidable. -/
  decideAtMost (left right : α) : Decidable (left ≤ right)
  /-- The value above every finite one. -/
  infinity : α
  /-- Neither infinite nor undefined. -/
  isFinite : α → Bool
  /-- Whether the scalar has no value at all. -/
  isUndefined : α → Bool
  /-- What is left of the first scalar after taking away the second as often
  as it fits, with the sign of the first. -/
  remainder : α → α → α
  /-- The square root of a scalar that is not negative. -/
  squareRoot : α → α
  /-- The angle of the vector with this height (first) and this width
  (second), in `(-halfTurn, halfTurn]`. -/
  angle : α → α → α
  /-- The angle of half a turn. -/
  halfTurn : α
  /-- The whole part, and `0` for a negative or undefined scalar. -/
  wholePart : α → Nat

attribute [reducible, instance] Scalar.decideLess Scalar.decideAtMost

namespace Scalar

variable {α : Type} [Scalar α]

/-- The whole number `number` as a scalar. -/
def ofNat (number : Nat) : α := (number : α)

/-- The quotient of two whole numbers, such as `36/10`. -/
def ratio (numerator denominator : Nat) : α :=
  ofNat numerator / ofNat denominator

/-- The product of a scalar with itself. -/
def square (value : α) : α := value * value

/-- The smaller of two scalars; an undefined one is passed over. -/
def smaller (left right : α) : α :=
  if isUndefined left then right
  else if right < left then right else left

/-- The larger of two scalars; an undefined one is passed over. -/
def larger (left right : α) : α :=
  if isUndefined left then right
  else if left < right then right else left

end Scalar

end JourneyTimes
