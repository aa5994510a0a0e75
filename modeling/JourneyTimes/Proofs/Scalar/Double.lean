import JourneyTimes.Proofs.Scalar.Accumulates
import JourneyTimes.Proofs.Scalar.Rounding

/-!
# Costs in double precision

Doubles are compared as if each one stood at a fixed place in one order, apart from those
that are undefined.  A sum of doubles is rounded, but the sum of two that are not
negative is not below either of them.  So doubles accumulate, and what is shown of any
scalars that do holds of the ones a run computes with.
-/

namespace JourneyTimes.Double

open Float.Model (Format UnpackedFloat)
open Float.Model.UnpackedFloat (Sign pack unpack)

/-! ## The order of doubles -/

/-- Where a double stands in the order of all of them.  What is undefined stands nowhere. -/
def rank? : UnpackedFloat → Option (Int ×ₗ Int ×ₗ Int)
  | .notANumber => none
  | .infinity .negative => some (toLex (-2, toLex (0, 0)))
  | .finite .negative mantissa exponent _ =>
      some (toLex (-1, toLex (-exponent, -(mantissa : Int))))
  | .zero _ => some (toLex (0, toLex (0, 0)))
  | .finite .positive mantissa exponent _ =>
      some (toLex (1, toLex (exponent, (mantissa : Int))))
  | .infinity .positive => some (toLex (2, toLex (0, 0)))

theorem compare_toLex {α β : Type} [LinearOrder α] [LinearOrder β] (first second : α × β) :
    compare (toLex first) (toLex second) =
      (compare first.1 second.1).then (compare first.2 second.2) :=
  rfl

theorem compare_neg_neg (first second : Int) :
    compare (-first) (-second) = (compare first second).swap := by
  rw [Int.compare_swap]
  simp only [Int.compare_eq_ite_lt, neg_lt_neg_iff]

theorem compare_natCast (first second : Nat) :
    compare (first : Int) (second : Int) = compare first second := by
  simp only [Int.compare_eq_ite_lt, Nat.compare_eq_ite_lt, Int.ofNat_lt]

/-- The comparison of two doubles is that of their ranks. -/
theorem compare_eq (left right : UnpackedFloat) :
    left.compare right =
      (rank? left).bind fun first => (rank? right).map fun second => compare first second := by
  rcases left with (_ | _) | _ | _ | ⟨_ | _, _, _, _⟩ <;>
    rcases right with (_ | _) | _ | _ | ⟨_ | _, _, _, _⟩ <;>
    simp only [rank?, UnpackedFloat.compare, compare_toLex, compare_neg_neg, compare_natCast,
      Ordering.swap_then, Option.bind_none, Option.bind_some, Option.map_none,
      Option.map_some] <;>
    rfl

/-- Whether the double on the left has a rank that is at most the one on the right. -/
def AtMost (left right : UnpackedFloat) : Prop :=
  ∃ first ∈ rank? left, ∃ second ∈ rank? right, first ≤ second

theorem le_iff {left right : Float} :
    left ≤ right ↔ AtMost left.toModel.unpack right.toModel.unpack := by
  change decide (left.toModel ≤ right.toModel) = true ↔ _
  rw [decide_eq_true_iff]
  change (UnpackedFloat.compare _ _).any _ = true ↔ _
  rw [compare_eq, AtMost]
  cases rank? left.toModel.unpack <;> cases rank? right.toModel.unpack <;>
    simp [← Ordering.ne_gt_iff_isLE, ← compare_le_iff_le]

theorem lt_iff {left right : Float} :
    left < right ↔
      ∃ first ∈ rank? left.toModel.unpack, ∃ second ∈ rank? right.toModel.unpack,
        first < second := by
  change decide (left.toModel < right.toModel) = true ↔ _
  rw [decide_eq_true_iff]
  change (UnpackedFloat.compare _ _ == some .lt) = true ↔ _
  rw [compare_eq]
  cases rank? left.toModel.unpack <;> cases rank? right.toModel.unpack <;>
    simp [compare_lt_iff_lt]

/-! ## Sums of doubles -/

/-- The doubles that are not negative, among them both zeros. -/
inductive IsNonneg : UnpackedFloat → Prop where
  | zero (sign : Sign) : IsNonneg (.zero sign)
  | finite {mantissa : Nat} {exponent : Int} (normalised : Normalised mantissa exponent) :
      IsNonneg (.finite .positive mantissa exponent normalised.pos)
  | infinity : IsNonneg (.infinity .positive)

theorem isNonneg_of_zero_le {value : Float} (nonneg : 0 ≤ value) :
    IsNonneg value.toModel.unpack := by
  have zero : (0 : Float).toModel.unpack = .zero .positive := rfl
  rw [le_iff, zero] at nonneg
  rcases unpacked : value.toModel.unpack with
    (_ | _) | _ | sign | ⟨_ | _, mantissa, exponent, pos⟩
  all_goals rw [unpacked] at nonneg
  · simp [AtMost, rank?, Prod.Lex.toLex_le_toLex] at nonneg
  · exact .infinity
  · simp [AtMost, rank?] at nonneg
  · exact .zero sign
  · simp [AtMost, rank?, Prod.Lex.toLex_le_toLex] at nonneg
  · exact .finite (normalised_of_unpack_eq unpacked)

theorem atMost_finite_iff {mantissa other : Nat} {exponent another : Int}
    {pos : 0 < mantissa} {posOther : 0 < other} :
    AtMost (.finite .positive mantissa exponent pos) (.finite .positive other another posOther) ↔
      toLex (exponent, (mantissa : Int)) ≤ toLex (another, (other : Int)) := by
  simp [AtMost, rank?, Prod.Lex.toLex_le_toLex]

theorem AtMost.trans {left middle right : UnpackedFloat} (first : AtMost left middle)
    (second : AtMost middle right) : AtMost left right := by
  rcases first with ⟨low, isLow, mid, isMid, lowMid⟩
  rcases second with ⟨same, isSame, high, isHigh, midHigh⟩
  obtain rfl : mid = same := Option.mem_unique isMid isSame
  exact ⟨low, isLow, high, isHigh, lowMid.trans midHigh⟩

/-- Two doubles are added at the smaller one of their exponents, and the sum is rounded. -/
theorem add_finite_eq {mantissa other shift shiftOther : Nat} {exponent another : Int}
    (pos : 0 < mantissa) (posOther : 0 < other)
    (aligned : exponent = min exponent another + shift)
    (alignedOther : another = min exponent another + shiftOther) :
    UnpackedFloat.add .binary64 (.finite .positive mantissa exponent pos)
        (.finite .positive other another posOther) =
      UnpackedFloat.round .binary64 .positive (mantissa * 2 ^ shift + other * 2 ^ shiftOther)
        (min exponent another) := by
  have toNat : (exponent - min exponent another).toNat = shift := by omega
  have toNatOther : (another - min exponent another).toNat = shiftOther := by omega
  have posSum : 0 < mantissa * 2 ^ shift + other * 2 ^ shiftOther := by positivity
  change UnpackedFloat.normalize .binary64
    (((mantissa <<< (exponent - min exponent another).toNat : Nat) : Int) +
      ((other <<< (another - min exponent another).toNat : Nat) : Int))
    (min exponent another) .positive = _
  rw [toNat, toNatOther, Nat.shiftLeft_eq, Nat.shiftLeft_eq, ← Nat.cast_add,
    UnpackedFloat.normalize, Int.compare_eq_gt.mpr (Int.natCast_pos.mpr posSum)]
  rfl

namespace IsNonneg

variable {value more : UnpackedFloat}

theorem zero_atMost (nonneg : IsNonneg value) (sign : Sign) : AtMost (.zero sign) value := by
  cases nonneg <;> simp [AtMost, rank?, Prod.Lex.toLex_le_toLex]

theorem atMost_self (nonneg : IsNonneg value) : AtMost value value := by
  cases nonneg <;> simp [AtMost, rank?]

theorem atMost_infinity (nonneg : IsNonneg value) : AtMost value (.infinity .positive) := by
  cases nonneg <;> simp [AtMost, rank?, Prod.Lex.toLex_le_toLex]

/-- Packing may make a double infinite, and no smaller. -/
theorem atMost_packed (nonneg : IsNonneg value) :
    AtMost value (unpack .binary64 (pack .binary64 value)) := by
  cases nonneg with
  | zero sign =>
    rw [pack, UnpackedFloat.unpack_packedZero]
    exact (IsNonneg.zero sign).atMost_self
  | finite normalised =>
    rw [unpack_pack_finite normalised]
    split_ifs
    · exact (IsNonneg.finite normalised).atMost_self
    · exact (IsNonneg.finite normalised).atMost_infinity
  | infinity =>
    rw [unpack_pack_infinity]
    exact infinity.atMost_self

theorem add_finite {mantissa other : Nat} {exponent another : Int}
    (normalised : Normalised mantissa exponent) (posOther : 0 < other) :
    let summand := UnpackedFloat.finite .positive mantissa exponent normalised.pos
    let sum := summand.add .binary64 (.finite .positive other another posOther)
    IsNonneg sum ∧ AtMost summand sum := by
  intro summand sum
  obtain ⟨shift, aligned⟩ : ∃ shift : Nat, exponent = min exponent another + shift :=
    ⟨(exponent - min exponent another).toNat, by omega⟩
  obtain ⟨shiftOther, alignedOther⟩ : ∃ shift : Nat, another = min exponent another + shift :=
    ⟨(another - min exponent another).toNat, by omega⟩
  have sumEq : sum = _ := add_finite_eq normalised.pos posOther aligned alignedOther
  rcases exists_round_eq (aligned ▸ normalised) (Nat.le_add_right _ (other * 2 ^ shiftOther)) with
    ⟨rounded, reached, normalised', isRounded, atMost⟩
  rw [sumEq, isRounded, atMost_finite_iff]
  exact ⟨.finite normalised', aligned ▸ atMost⟩

/-- A sum of doubles that are not negative is not negative, and not below the first of them. -/
theorem add (nonneg : IsNonneg value) (nonnegMore : IsNonneg more) :
    IsNonneg (value.add .binary64 more) ∧ AtMost value (value.add .binary64 more) := by
  cases nonneg with
  | zero sign =>
    have isNonneg : IsNonneg ((UnpackedFloat.zero sign).add .binary64 more) := by
      cases nonnegMore with
      | zero other => cases sign <;> cases other <;> exact .zero _
      | finite normalised => exact .finite normalised
      | infinity => exact .infinity
    exact ⟨isNonneg, isNonneg.zero_atMost sign⟩
  | finite normalised =>
    cases nonnegMore with
    | zero other => exact ⟨.finite normalised, atMost_self (.finite normalised)⟩
    | finite others => exact add_finite normalised others.pos
    | infinity => exact ⟨.infinity, atMost_infinity (.finite normalised)⟩
  | infinity => cases nonnegMore <;> exact ⟨.infinity, atMost_self .infinity⟩

end IsNonneg

/-- Doubles are compared by their ranks. -/
def ranking : Scalar.Ranking Float (Int ×ₗ Int ×ₗ Int) where
  rank? value := rank? value.toModel.unpack
  le_iff := le_iff
  lt_iff := lt_iff

theorem le_add {scalar more : Float} (nonneg : 0 ≤ scalar) (nonnegMore : 0 ≤ more) :
    scalar ≤ scalar + more := by
  rcases (isNonneg_of_zero_le nonneg).add (isNonneg_of_zero_le nonnegMore) with
    ⟨nonnegSum, atMost⟩
  exact le_iff.mpr (atMost.trans nonnegSum.atMost_packed)

instance : Scalar.Accumulates Float :=
  .of_ranking ranking (by decide +kernel) le_add

end JourneyTimes.Double
