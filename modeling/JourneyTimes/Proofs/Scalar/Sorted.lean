import JourneyTimes.Proofs.Scalar.Double

/-!
# Scalars that costs are sorted by

That scalars accumulate is enough for a search to come to an end.  For it to settle nodes
in the order of their costs, costs must also stand in one order, and adding nothing must
leave a cost where it is.  Exact scalars and doubles keep these laws too: rounding moves a
sum, but it does not move it when nothing is added.
-/

namespace JourneyTimes.Scalar

/-- Scalars are compared by their places in one order, adding nothing to a cost does not
raise it, zero is not infinite, and a finite scalar leaves nothing when it is taken from
itself. -/
class Sorted (α : Type) [Scalar α] : Prop extends Accumulates α where
  ranked : ∃ (β : Type) (_ : LinearOrder β), Nonempty (Ranking α β)
  add_zero_le {scalar : α} : 0 ≤ scalar → scalar + 0 ≤ scalar
  zero_lt_infinity : (0 : α) < infinity
  sub_self {scalar : α} : isFinite scalar = true → scalar - scalar = 0

end JourneyTimes.Scalar

namespace JourneyTimes.Exact

variable {K : Type} [Field K] [LinearOrder K] [FloorRing K] [Trigonometry K]
  [IsStrictOrderedRing K]

instance : Scalar.Sorted (Exact K) where
  ranked := ⟨_, _, ⟨ranking⟩⟩
  add_zero_le {scalar} nonneg := by
    rcases nonneg_iff.mp nonneg with rfl | ⟨value, -, rfl⟩
    · exact nonneg
    · rw [zero_eq, finite_add_finite, add_zero]
      exact ranking.le_self_of_le nonneg
  zero_lt_infinity := finite_lt_infinity 0
  sub_self {scalar} finite := by
    rcases isFinite_iff.mp finite with ⟨value, rfl⟩
    rw [finite_sub_finite, sub_self]
    rfl

end JourneyTimes.Exact

namespace JourneyTimes.Double

open Float.Model (Format UnpackedFloat)
open Float.Model.UnpackedFloat (Sign pack unpack unpackExponent)

/-- The exponent of a finite double fits its bits. -/
theorem exponent_lt_of_unpack_eq {bits : BitVec Format.binary64.numBits} {sign : Sign}
    {mantissa : Nat} {exponent : Int} {pos : 0 < mantissa}
    (unpacked : unpack .binary64 bits = .finite sign mantissa exponent pos) : exponent < 972 := by
  have field := (unpackExponent bits).isLt
  simp only [unpack, exponentBias_eq] at unpacked field
  split_ifs at unpacked with top zero lowest
  · injection unpacked with _ _ isExponent
    rw [lowest] at isExponent
    simp at isExponent
    omega
  · have notTop : (unpackExponent bits).toNat ≠ 2047 := by
      rw [← BitVec.toNat_inj] at top
      exact top
    injection unpacked with _ _ isExponent
    simp only at *
    omega

/-- Packing a double that comes from bits and unpacking it loses nothing. -/
theorem unpack_pack_unpack {bits : BitVec Format.binary64.numBits} {sign : Sign}
    {mantissa : Nat} {exponent : Int} {pos : 0 < mantissa}
    (unpacked : unpack .binary64 bits = .finite sign mantissa exponent pos) :
    unpack .binary64 (pack .binary64 (.finite sign mantissa exponent pos)) =
      .finite sign mantissa exponent pos := by
  rw [unpack_pack_finite (normalised_of_unpack_eq unpacked),
    if_pos (exponent_lt_of_unpack_eq unpacked)]

theorem add_zero_le {scalar : Float} (nonneg : 0 ≤ scalar) : scalar + 0 ≤ scalar := by
  have isNonneg := isNonneg_of_zero_le nonneg
  rw [le_iff]
  show AtMost (unpack .binary64 (pack .binary64
    (scalar.toModel.unpack.add .binary64 (0 : Float).toModel.unpack))) scalar.toModel.unpack
  have zero : (0 : Float).toModel.unpack = .zero .positive := rfl
  rw [zero]
  rcases unpacked : scalar.toModel.unpack with
    (_ | _) | _ | sign | ⟨_ | _, mantissa, exponent, pos⟩
  all_goals rw [unpacked] at isNonneg
  · cases isNonneg
  · exact isNonneg.atMost_self
  · cases isNonneg
  · cases sign <;> exact (IsNonneg.zero _).zero_atMost _
  · cases isNonneg
  · show AtMost (unpack .binary64 (pack .binary64 (.finite .positive mantissa exponent pos))) _
    rw [unpack_pack_unpack unpacked]
    exact isNonneg.atMost_self

/-- A finite double leaves nothing when it is taken from itself. -/
theorem sub_self_unpacked {value : UnpackedFloat} (finite : value.isFinite = true) :
    value.sub .binary64 value = .zero .positive := by
  rcases value with sign | _ | sign | ⟨sign, mantissa, exponent, pos⟩
  · cases finite
  · cases finite
  · cases sign <;> rfl
  · show UnpackedFloat.normalize .binary64 (_ - _) _ .positive = _
    rw [Int.sub_self]
    rfl

theorem sub_self {scalar : Float} (finite : scalar.isFinite = true) : scalar - scalar = 0 := by
  show Float.ofModel (Float.Model.pack
    (scalar.toModel.unpack.sub .binary64 scalar.toModel.unpack)) = 0
  rw [sub_self_unpacked finite]
  rfl

instance : Scalar.Sorted Float where
  ranked := ⟨_, _, ⟨ranking⟩⟩
  add_zero_le := add_zero_le
  zero_lt_infinity := by decide +kernel
  sub_self := sub_self

end JourneyTimes.Double
