import JourneyTimes.Proofs.Scalar.Ranking
import Mathlib.Algebra.Order.Field.Basic
import Mathlib.Algebra.Order.Floor.Ring
import Mathlib.Data.Rat.Floor
import Mathlib.Data.Sign.Defs
import Mathlib.Order.WithBot
import Mathlib.Tactic.Linarith

/-!
# Exact scalars

Searches compute with double precision numbers, which round.  What a search
finds is stated here over numbers that do not: an ordered field extended with
two infinities and with an undefined scalar, which all operations treat as
double precision arithmetic does.  The difference of two infinities is
undefined, and so is zero times infinity; a scalar divided by zero is infinite;
and no comparison holds of the undefined scalar.

The order is therefore not reflexive, and the usual lemmas about it are stated
again for the scalars that are not undefined.  Durations and costs are never
negative, and such scalars are either finite or infinite.
-/

namespace JourneyTimes

/-- What a field needs besides its arithmetic to measure the plane. -/
class Trigonometry (K : Type) where
  /-- The square root of a number that is not negative. -/
  squareRoot : K → K
  /-- The angle of the vector with this height (first) and width (second). -/
  angle : K → K → K
  /-- The angle of half a turn. -/
  halfTurn : K

/-- Rational numbers measure the plane up to rounding: square roots are those of
squares, and angles are counted in half turns, down to the eighth of a turn. -/
instance : Trigonometry ℚ where
  squareRoot value := (Nat.sqrt value.num.toNat : ℚ) / Nat.sqrt value.den
  angle height width :=
    let eighths : ℚ :=
      if width ≤ 0 then if |height| ≤ -width then 3 / 4 else 1 / 2
      else if |height| < width then 0 else 1 / 4
    if height = 0 then if width < 0 then 1 else 0
    else if 0 < height then eighths else -eighths
  halfTurn := 1

theorem Trigonometry.squareRoot_nonneg (value : ℚ) (_ : 0 ≤ value) : 0 ≤ squareRoot value :=
  div_nonneg (Nat.cast_nonneg _) (Nat.cast_nonneg _)

/-- A number without rounding, an infinity, or no value at all. -/
inductive Exact (K : Type) where
  | negativeInfinity
  | finite (value : K)
  | infinity
  | undefined
deriving DecidableEq, Repr

namespace Exact

section Operations

variable {K : Type} [Field K] [LinearOrder K] [FloorRing K]

/-- The infinity of a sign; zero times infinity has no value. -/
def unbounded : SignType → Exact K
  | .zero => undefined
  | .pos => infinity
  | .neg => negativeInfinity

/-- The sign of a scalar; the undefined one passes for zero. -/
def sign : Exact K → SignType
  | negativeInfinity => .neg
  | finite value => SignType.sign value
  | infinity => .pos
  | undefined => .zero

/-- The sum of two scalars. -/
def add : Exact K → Exact K → Exact K
  | finite left, finite right => finite (left + right)
  | undefined, _ | _, undefined => undefined
  | infinity, negativeInfinity | negativeInfinity, infinity => undefined
  | infinity, _ | _, infinity => infinity
  | negativeInfinity, _ | _, negativeInfinity => negativeInfinity

/-- A scalar with the opposite sign. -/
def neg : Exact K → Exact K
  | negativeInfinity => infinity
  | finite value => finite (-value)
  | infinity => negativeInfinity
  | undefined => undefined

/-- The product of two scalars. -/
def mul : Exact K → Exact K → Exact K
  | finite left, finite right => finite (left * right)
  | undefined, _ | _, undefined => undefined
  | left, right => unbounded (left.sign * right.sign)

/-- The quotient of two scalars. -/
def div : Exact K → Exact K → Exact K
  | finite left, finite right =>
    if right = 0 then unbounded (SignType.sign left) else finite (left / right)
  | undefined, _ | _, undefined => undefined
  | finite _, _ => finite 0
  | left, finite right =>
    if right = 0 then left else unbounded (left.sign * SignType.sign right)
  | _, _ => undefined

/-- The whole number next to a quotient on the side of zero. -/
def truncate (quotient : K) : K :=
  if 0 ≤ quotient then (⌊quotient⌋ : K) else (⌈quotient⌉ : K)

/-- What is left of the first scalar after taking away the second as often as
it fits. -/
def remainder : Exact K → Exact K → Exact K
  | finite left, finite right =>
    if right = 0 then undefined
    else finite (left - right * truncate (left / right))
  | finite left, infinity | finite left, negativeInfinity => finite left
  | _, _ => undefined

/-- The whole part of a scalar, and `0` if it is negative or has none. -/
def wholePart : Exact K → Nat
  | finite value => ⌊value⌋.toNat
  | infinity => 2 ^ 64 - 1
  | _ => 0

/-- Neither infinite nor undefined. -/
def isFinite : Exact K → Bool
  | finite _ => true
  | _ => false

/-- Strict comparison, which never holds of the undefined scalar. -/
def isLess : Exact K → Exact K → Bool
  | finite left, finite right => left < right
  | negativeInfinity, finite _ | negativeInfinity, infinity => true
  | finite _, infinity => true
  | _, _ => false

/-- Comparison, which never holds of the undefined scalar. -/
def isAtMost : Exact K → Exact K → Bool
  | finite left, finite right => left ≤ right
  | undefined, _ | _, undefined => false
  | negativeInfinity, _ | _, infinity => true
  | _, _ => false

end Operations

variable {K : Type} [Field K] [LinearOrder K] [FloorRing K] [Trigonometry K]

/-- The square root of a scalar; a negative one has none. -/
def squareRoot : Exact K → Exact K
  | finite value => if value < 0 then undefined else finite (Trigonometry.squareRoot value)
  | infinity => infinity
  | _ => undefined

/-- The angle of a vector; one of infinite extent has none. -/
def angle : Exact K → Exact K → Exact K
  | finite height, finite width => finite (Trigonometry.angle height width)
  | _, _ => undefined

instance : Scalar (Exact K) where
  zero := finite 0
  natCast number := finite number
  add := add
  sub left right := add left (neg right)
  mul := mul
  div := div
  neg := neg
  lt left right := isLess left right = true
  le left right := isAtMost left right = true
  beq left right := decide (left = right ∧ left ≠ undefined)
  decideLess left right := inferInstanceAs (Decidable (isLess left right = true))
  decideAtMost left right := inferInstanceAs (Decidable (isAtMost left right = true))
  infinity := infinity
  isFinite := isFinite
  isUndefined := fun value => decide (value = undefined)
  remainder := remainder
  squareRoot := squareRoot
  angle := angle
  halfTurn := finite Trigonometry.halfTurn
  wholePart := wholePart

/-- Numbers are scalars. -/
instance : Coe K (Exact K) := ⟨finite⟩

/-! ## Finite scalars -/

theorem zero_eq : (0 : Exact K) = finite 0 := rfl

theorem infinity_eq : (Scalar.infinity : Exact K) = infinity := rfl

@[simp]
theorem finite_add_finite (left right : K) :
    (finite left + finite right : Exact K) = finite (left + right) := rfl

@[simp]
theorem finite_sub_finite (left right : K) :
    (finite left - finite right : Exact K) = finite (left - right) := by
  rw [sub_eq_add_neg]
  rfl

@[simp]
theorem neg_finite (value : K) : (-finite value : Exact K) = finite (-value) := rfl

@[simp]
theorem finite_mul_finite (left right : K) :
    (finite left * finite right : Exact K) = finite (left * right) := rfl

theorem finite_div_finite (left : K) {right : K} (nonzero : right ≠ 0) :
    (finite left / finite right : Exact K) = finite (left / right) :=
  if_neg nonzero

@[simp]
theorem infinity_sub_finite (right : K) : (infinity - finite right : Exact K) = infinity := rfl

@[simp]
theorem finite_add_infinity (left : K) :
    (finite left + infinity : Exact K) = infinity := rfl

@[simp]
theorem infinity_add_finite (right : K) :
    (infinity + finite right : Exact K) = infinity := rfl

@[simp]
theorem infinity_add_infinity : (infinity + infinity : Exact K) = infinity := rfl

@[simp]
theorem finite_lt_finite {left right : K} :
    (finite left : Exact K) < finite right ↔ left < right :=
  decide_eq_true_iff

@[simp]
theorem finite_le_finite {left right : K} :
    (finite left : Exact K) ≤ finite right ↔ left ≤ right :=
  decide_eq_true_iff

@[simp]
theorem finite_lt_infinity (left : K) : (finite left : Exact K) < infinity := rfl

@[simp]
theorem le_infinity (left : K) : (finite left : Exact K) ≤ infinity := rfl

@[simp]
theorem isFinite_finite (value : K) :
    Scalar.isFinite (finite value : Exact K) = true := rfl

theorem isFinite_iff {scalar : Exact K} :
    Scalar.isFinite scalar = true ↔ ∃ value, scalar = finite value := by
  cases scalar <;> simp [Scalar.isFinite, isFinite]

/-! ## The order -/

theorem lt_iff {left right : Exact K} :
    left < right ↔ isLess left right = true := Iff.rfl

theorem le_iff {left right : Exact K} :
    left ≤ right ↔ isAtMost left right = true := Iff.rfl

/-- Where a scalar stands in the order of all of them.  The undefined one stands nowhere. -/
def rank? : Exact K → Option (WithBot (WithTop K))
  | undefined => none
  | negativeInfinity => some ⊥
  | finite value => some ↑(↑value : WithTop K)
  | infinity => some ↑(⊤ : WithTop K)

/-- Scalars are compared by their ranks. -/
def ranking : Scalar.Ranking (Exact K) (WithBot (WithTop K)) where
  rank? := rank?
  le_iff {left right} := by
    cases left <;> cases right <;> simp [le_iff, isAtMost, rank?]
  lt_iff {left right} := by
    cases left <;> cases right <;> simp [lt_iff, isLess, rank?, -WithBot.coe_top]

protected theorem lt_irrefl (scalar : Exact K) : ¬ scalar < scalar :=
  ranking.lt_irrefl scalar

protected theorem le_of_lt {left right : Exact K} (less : left < right) : left ≤ right :=
  ranking.le_of_lt less

protected theorem le_trans {left middle right : Exact K}
    (first : left ≤ middle) (second : middle ≤ right) : left ≤ right :=
  ranking.le_trans first second

instance : Trans (LE.le : Exact K → Exact K → Prop) LE.le LE.le where
  trans := Exact.le_trans

protected theorem lt_of_lt_of_le {left middle right : Exact K}
    (first : left < middle) (second : middle ≤ right) : left < right :=
  ranking.lt_of_lt_of_le first second

protected theorem lt_of_le_of_lt {left middle right : Exact K}
    (first : left ≤ middle) (second : middle < right) : left < right :=
  ranking.lt_of_le_of_lt first second

protected theorem lt_trans {left middle right : Exact K} (first : left < middle)
    (second : middle < right) : left < right :=
  Exact.lt_of_lt_of_le first (Exact.le_of_lt second)

instance : IsStrictOrder (Exact K) (· < ·) where
  irrefl := Exact.lt_irrefl
  trans _ _ _ := Exact.lt_trans

protected theorem le_antisymm {left right : Exact K} (first : left ≤ right)
    (second : right ≤ left) : left = right := by
  cases left <;> cases right <;> simp_all [le_iff, isAtMost]
  exact le_antisymm first second

protected theorem not_lt_of_le {left right : Exact K} (atMost : left ≤ right) :
    ¬ right < left := by
  intro less
  exact Exact.lt_irrefl _ (Exact.lt_of_le_of_lt atMost less)

protected theorem not_infinity_lt (scalar : Exact K) : ¬ infinity < scalar := by
  cases scalar <;> simp [lt_iff, isLess]

theorem eq_infinity_of_le {scalar : Exact K} (atLeast : infinity ≤ scalar) :
    scalar = infinity := by
  cases scalar <;> simp_all [le_iff, isAtMost]

/-- A sum is below infinity exactly if its terms are. -/
theorem add_lt_infinity {left right : Exact K} :
    left + right < infinity ↔ left < infinity ∧ right < infinity := by
  have both : isLess (left + right) infinity = (isLess left infinity && isLess right infinity) := by
    cases left <;> cases right <;> rfl
  rw [lt_iff, lt_iff, lt_iff, both, Bool.and_eq_true]

/-- A comparison that fails holds the other way, unless a side is undefined. -/
theorem le_of_not_lt {left right : Exact K} (leftDefined : left ≤ left)
    (rightDefined : right ≤ right) (notLess : ¬ left < right) :
    right ≤ left :=
  ranking.le_of_not_lt leftDefined rightDefined notLess

/-! ## Scalars that are not negative -/

/-- A scalar that is not negative is a number or infinite. -/
theorem nonneg_iff {scalar : Exact K} :
    0 ≤ scalar ↔ scalar = infinity ∨ ∃ value, 0 ≤ value ∧ scalar = finite value := by
  rw [zero_eq]
  cases scalar <;> simp [le_iff, isAtMost]

theorem finite_nonneg {value : K} : (0 : Exact K) ≤ finite value ↔ 0 ≤ value := by
  rw [zero_eq, finite_le_finite]

/-- What is less than something and not negative is a number. -/
theorem finite_of_nonneg_of_lt {scalar bound : Exact K} (nonneg : 0 ≤ scalar)
    (less : scalar < bound) : ∃ value, 0 ≤ value ∧ scalar = finite value := by
  rcases nonneg_iff.1 nonneg with rfl | finite
  · cases bound <;> simp [lt_iff, isLess] at less
  · exact finite

theorem le_infinity_of_nonneg {scalar : Exact K} (nonneg : 0 ≤ scalar) : scalar ≤ infinity := by
  rcases nonneg_iff.1 nonneg with rfl | ⟨value, -, rfl⟩ <;> rfl

theorem infinity_add_of_nonneg {scalar : Exact K} (nonneg : 0 ≤ scalar) :
    infinity + scalar = infinity := by
  rcases nonneg_iff.1 nonneg with rfl | ⟨value, -, rfl⟩ <;> rfl

theorem le_self_of_le {bound scalar : Exact K} (atMost : bound ≤ scalar) :
    scalar ≤ scalar :=
  ranking.le_self_of_le atMost

variable [IsStrictOrderedRing K]

protected theorem add_nonneg {left right : Exact K} (leftNonneg : 0 ≤ left)
    (rightNonneg : 0 ≤ right) : 0 ≤ left + right := by
  rcases nonneg_iff.1 leftNonneg with rfl | ⟨first, firstNonneg, rfl⟩ <;>
    rcases nonneg_iff.1 rightNonneg with rfl | ⟨second, secondNonneg, rfl⟩
  · simpa using leftNonneg
  · simpa using leftNonneg
  · simpa using rightNonneg
  · rw [finite_add_finite, finite_nonneg]
    linarith

theorem le_add_of_nonneg (value : K) {more : Exact K} (nonneg : 0 ≤ more) :
    finite value ≤ finite value + more := by
  rcases nonneg_iff.1 nonneg with rfl | ⟨extra, extraNonneg, rfl⟩
  · simp
  · rw [finite_add_finite, finite_le_finite]
    linarith

theorem le_add_right_of_nonneg {scalar more : Exact K} (scalarNonneg : 0 ≤ scalar)
    (nonneg : 0 ≤ more) : scalar ≤ scalar + more := by
  rcases nonneg_iff.1 scalarNonneg with rfl | ⟨value, -, rfl⟩
  · rw [infinity_add_of_nonneg nonneg]
    rfl
  · exact le_add_of_nonneg value nonneg

protected theorem add_le_add {left right : Exact K} {less more : K} (le : less ≤ more)
    (nonneg : 0 ≤ left) (atMost : left ≤ right) :
    finite less + left ≤ finite more + right := by
  have rightNonneg := Exact.le_trans nonneg atMost
  rcases nonneg_iff.1 rightNonneg with rfl | ⟨second, -, rfl⟩
  · rcases nonneg_iff.1 nonneg with rfl | ⟨first, -, rfl⟩
    · simpa using atMost
    · simp
  · rcases nonneg_iff.1 nonneg with rfl | ⟨first, -, rfl⟩
    · simp [le_iff, isAtMost] at atMost
    · rw [finite_le_finite] at atMost
      rw [finite_add_finite, finite_add_finite, finite_le_finite]
      linarith

omit [IsStrictOrderedRing K] in
theorem le_add_zero {scalar : Exact K} (nonneg : 0 ≤ scalar) : scalar ≤ scalar + ↑(0 : K) := by
  rcases nonneg_iff.1 nonneg with rfl | ⟨value, -, rfl⟩
  · rfl
  · rw [finite_add_finite, add_zero, finite_le_finite]

/-- An estimate may be replaced by a greater one. -/
theorem le_add_of_le {low high step : Exact K} {more : K} (highNonneg : 0 ≤ high)
    (stepNonneg : 0 ≤ step) (le : low ≤ high + step) (atMost : step ≤ more) :
    low ≤ high + more := by
  apply Exact.le_trans le
  rcases (nonneg_iff.1 highNonneg).symm with ⟨value, -, rfl⟩ | rfl
  · exact Exact.add_le_add le_rfl stepNonneg atMost
  · rw [infinity_add_of_nonneg stepNonneg]
    simp [le_iff, isAtMost]

/-- One estimate after another. -/
theorem le_add_trans {low middle high : Exact K} {first second : K}
    (middleNonneg : 0 ≤ middle) (highNonneg : 0 ≤ high) (lower : low ≤ middle + first)
    (upper : middle ≤ high + second) : low ≤ high + ↑(second + first) := by
  apply Exact.le_trans lower
  rcases nonneg_iff.1 highNonneg with rfl | ⟨value, -, rfl⟩
  · rcases nonneg_iff.1 middleNonneg with rfl | ⟨between, -, rfl⟩ <;> rfl
  · rcases nonneg_iff.1 middleNonneg with rfl | ⟨between, -, rfl⟩
    · simp [le_iff, isAtMost] at upper
    · rw [finite_add_finite, finite_le_finite] at upper
      rw [finite_add_finite, finite_add_finite, finite_le_finite]
      linarith

/-- A difference that is a number is at most what separates its terms. -/
theorem sub_le_of_le_add {left right : Exact K} {between : K} (leftNonneg : 0 ≤ left)
    (rightNonneg : 0 ≤ right) (le : left ≤ right + between)
    (finite : Scalar.isFinite (left - right) = true) : left - right ≤ between := by
  rcases nonneg_iff.1 leftNonneg with rfl | ⟨high, -, rfl⟩ <;>
    rcases nonneg_iff.1 rightNonneg with rfl | ⟨low, -, rfl⟩
  · cases finite
  · cases finite
  · cases finite
  · rw [finite_add_finite, finite_le_finite] at le
    rw [finite_sub_finite, finite_le_finite]
    linarith

/-! ## Sums -/

omit [IsStrictOrderedRing K] in
protected theorem add_comm (left right : Exact K) : left + right = right + left := by
  cases left <;> cases right <;> first | rfl | exact congrArg finite (add_comm ..)

omit [IsStrictOrderedRing K] in
protected theorem zero_add (scalar : Exact K) : 0 + scalar = scalar := by
  cases scalar <;> first | rfl | exact congrArg finite (zero_add _)

instance : Std.LawfulIdentity (HAdd.hAdd : Exact K → Exact K → Exact K) 0 where
  left_id := Exact.zero_add
  right_id scalar := (Exact.add_comm ..).trans (Exact.zero_add scalar)

instance : Std.Associative (HAdd.hAdd : Exact K → Exact K → Exact K) where
  assoc first second third := by
    cases first <;> cases second <;> cases third <;>
      first | rfl | exact congrArg finite (add_assoc ..)

/-- Sums of scalars that are not negative grow with their terms. -/
theorem add_le_add_of_nonneg {low high less more : Exact K} (lowNonneg : 0 ≤ low)
    (lessNonneg : 0 ≤ less) (le : low ≤ high) (atMost : less ≤ more) :
    low + less ≤ high + more := by
  have highNonneg := Exact.le_trans lowNonneg le
  rcases nonneg_iff.1 highNonneg with rfl | ⟨top, -, rfl⟩
  · rw [infinity_add_of_nonneg (Exact.le_trans lessNonneg atMost)]
    exact le_infinity_of_nonneg (Exact.add_nonneg lowNonneg lessNonneg)
  · rcases nonneg_iff.1 lowNonneg with rfl | ⟨bottom, -, rfl⟩
    · simp [le_iff, isAtMost] at le
    · exact Exact.add_le_add (finite_le_finite.mp le) lessNonneg atMost

end Exact

end JourneyTimes
