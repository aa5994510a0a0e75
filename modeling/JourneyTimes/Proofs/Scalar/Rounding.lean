import JourneyTimes.Scalar.Double
import Mathlib

/-!
# Rounding to double precision

A finite double is a mantissa and an exponent, and a larger one has a larger exponent or a
larger mantissa.  A number that does not fit is shifted to the right, rounded, and shifted
once more if rounding made its mantissa too long.  None of this takes a number below a
double that it was not below before, and the result has the form of a double.

Packing a double of that form into its bits and unpacking it loses nothing, unless
its exponent is too large.
-/

namespace JourneyTimes.Double

open Float.Model (Format UnpackedFloat totalExponent)
open Float.Model.UnpackedFloat (ExtendedMantissa Sign decreaseExponent pack packComponents
  roundWithAccuracy shiftToTargetExponent unpack unpackExponent
  unpackExponent_packComponents unpackMantissa unpackMantissa_packComponents
  unpackSign_packComponents)

/-- The form of a finite double: the mantissa has its full length, unless the exponent is the
lowest one. -/
structure Normalised (mantissa : Nat) (exponent : Int) : Prop where
  pos : 0 < mantissa
  lt : mantissa < 2 ^ 53
  least : -1074 ≤ exponent
  full : 2 ^ 52 ≤ mantissa ∨ exponent = -1074

/-! ## Shifts -/

/-- The exponent that a number is rounded to. -/
def target (mantissa : Nat) (exponent : Int) : Int :=
  Format.binary64.targetExponent (totalExponent mantissa exponent)

theorem target_eq (mantissa : Nat) (exponent : Int) :
    target mantissa exponent = max (mantissa.log2 + exponent - 52) (-1074) := by
  change max (((mantissa.log2 : Int) + 1 + exponent) - 53) (-1074) = _
  omega

theorem Normalised.target_eq {mantissa : Nat} {exponent : Int}
    (normalised : Normalised mantissa exponent) : target mantissa exponent = exponent := by
  have short := (Nat.log2_lt normalised.pos.ne').mpr normalised.lt
  have long := Nat.le_log2 (k := 52) normalised.pos.ne'
  have least := normalised.least
  rw [Double.target_eq]
  rcases normalised.full with full | lowest <;> omega

theorem log2_add_le {mantissa more shift : Nat} (pos : 0 < mantissa)
    (atMost : mantissa * 2 ^ shift ≤ more) : mantissa.log2 + shift ≤ more.log2 := by
  have posMore : 0 < more := lt_of_lt_of_le (by positivity) atMost
  rw [Nat.le_log2 posMore.ne', pow_add]
  exact le_trans (Nat.mul_le_mul_right _ (Nat.log2_self_le pos.ne')) atMost

theorem shiftRight_mantissa (extended : ExtendedMantissa) (shift : Nat) :
    (extended >>> shift).mantissa = extended.mantissa / 2 ^ shift := by
  change (shift.repeat ExtendedMantissa.shiftRightOne extended).mantissa = _
  induction shift with
  | zero => simp [Nat.repeat]
  | succ shift ih =>
    rw [Nat.repeat, pow_succ, ← Nat.div_div_eq_div_mul, ← ih]
    rfl

/-- Rounding goes to one of the two nearest mantissas. -/
theorem roundedMantissa_cases (extended : ExtendedMantissa) :
    extended.roundedMantissa = extended.mantissa ∨
      extended.roundedMantissa = extended.mantissa + 1 := by
  rcases extended with ⟨mantissa, _ | _, _ | _⟩
  · exact .inl rfl
  · exact .inl rfl
  · change mantissa + mantissa % 2 = mantissa ∨ mantissa + mantissa % 2 = mantissa + 1
    omega
  · exact .inr rfl

theorem shiftToTargetExponent_eq {mantissa shift : Nat} {exponent : Int}
    (reached : target mantissa exponent = exponent + shift) :
    shiftToTargetExponent .binary64 mantissa exponent .exact =
      (ExtendedMantissa.mk mantissa false false >>> shift, exponent + shift) := by
  change (ExtendedMantissa.mk mantissa false false >>> (target mantissa exponent - exponent).toNat,
    exponent + ((target mantissa exponent - exponent).toNat : Int)) = _
  rw [reached, add_sub_cancel_left, Int.toNat_natCast]

/-- What a mantissa becomes that is shifted as far as rounding asks for. -/
theorem shifted_bounds {mantissa shift : Nat} {exponent : Int}
    (pos : 0 < mantissa) (reached : target mantissa exponent = exponent + shift) :
    mantissa / 2 ^ shift < 2 ^ 53 ∧
      (2 ^ 52 ≤ mantissa / 2 ^ shift ∨ exponent + shift = -1074) := by
  rw [target_eq] at reached
  constructor
  · rw [Nat.div_lt_iff_lt_mul (by positivity), ← pow_add, ← Nat.log2_lt pos.ne']
    omega
  · rcases max_choice ((mantissa.log2 : Int) + exponent - 52) (-1074) with long | lowest
    · left
      rw [Nat.le_div_iff_mul_le (by positivity), ← pow_add, ← Nat.le_log2 pos.ne']
      omega
    · right
      omega

/-- A mantissa that rounding made too long is shifted once more. -/
theorem exists_carry {mantissa : Nat} {exponent : Int} (pos : 0 < mantissa)
    (le : mantissa ≤ 2 ^ 53) (least : -1074 ≤ exponent)
    (full : 2 ^ 52 ≤ mantissa ∨ exponent = -1074) :
    ∃ shift : Nat, target mantissa exponent = exponent + shift ∧
      Normalised (mantissa / 2 ^ shift) (exponent + shift) ∧
      toLex (exponent, (mantissa : Int)) ≤
        toLex (exponent + shift, ((mantissa / 2 ^ shift : Nat) : Int)) := by
  rcases le.lt_or_eq with lt | rfl
  · have normalised : Normalised mantissa exponent := ⟨pos, lt, least, full⟩
    refine ⟨0, ?_, ?_, ?_⟩
    · simpa using normalised.target_eq
    · simpa using normalised
    · simp
  · refine ⟨1, ?_, ⟨by decide, by decide, by omega, .inl (by decide)⟩, ?_⟩
    · rw [target_eq, Nat.log2_two_pow]
      omega
    · exact Prod.Lex.toLex_le_toLex.mpr (.inl (lt_add_one _))

/-! ## Rounding -/

/-- Rounding a number that has bits enough shifts it, rounds its mantissa, and shifts it
again. -/
theorem round_eq {sign : Sign} {mantissa shift rounded again : Nat} {exponent : Int}
    (reached : target mantissa exponent = exponent + shift)
    (isRounded : (ExtendedMantissa.mk mantissa false false >>> shift).roundedMantissa = rounded)
    (reachedAgain : target rounded (exponent + shift) = exponent + shift + again)
    (pos : 0 < rounded / 2 ^ again) :
    UnpackedFloat.round .binary64 sign mantissa exponent =
      .finite sign (rounded / 2 ^ again) (exponent + shift + again) pos := by
  have kept : decreaseExponent mantissa exponent (target mantissa exponent) =
      (mantissa, exponent) := by
    have noShift : (exponent - target mantissa exponent).toNat = 0 := by omega
    rw [decreaseExponent, noShift]
    simp
  change roundWithAccuracy .binary64 sign
    (decreaseExponent mantissa exponent (target mantissa exponent)).1
    (decreaseExponent mantissa exponent (target mantissa exponent)).2 .exact = _
  simp only [kept, roundWithAccuracy, shiftToTargetExponent_eq reached, isRounded,
    shiftToTargetExponent_eq reachedAgain, shiftRight_mantissa, dif_neg pos.ne']

/-- A number that is not below a double is rounded to one that is not below it either. -/
theorem exists_round_eq {sign : Sign} {mantissa shift more : Nat} {exponent : Int}
    (normalised : Normalised mantissa (exponent + shift))
    (atMost : mantissa * 2 ^ shift ≤ more) :
    ∃ rounded reached, ∃ normalised' : Normalised rounded reached,
      UnpackedFloat.round .binary64 sign more exponent =
        .finite sign rounded reached normalised'.pos ∧
      toLex (exponent + shift, (mantissa : Int)) ≤ toLex (reached, (rounded : Int)) := by
  have pos : 0 < more := (Nat.mul_pos normalised.pos (by positivity)).trans_le atMost
  have least := normalised.least
  have higher : exponent + shift ≤ target more exponent := by
    have log := log2_add_le normalised.pos atMost
    rw [← normalised.target_eq, target_eq, target_eq]
    omega
  obtain ⟨steps, reached⟩ : ∃ steps : Nat, target more exponent = exponent + steps :=
    ⟨(target more exponent - exponent).toNat, by omega⟩
  rcases shifted_bounds pos reached with ⟨short, full⟩
  have first : toLex (exponent + shift, (mantissa : Int)) ≤
      toLex (exponent + steps, ((more / 2 ^ steps : Nat) : Int)) := by
    rcases (reached ▸ higher).lt_or_eq with further | same
    · exact Prod.Lex.toLex_le_toLex.mpr (.inl further)
    · obtain rfl : shift = steps := by omega
      have := (Nat.le_div_iff_mul_le (by positivity)).mpr atMost
      exact Prod.Lex.toLex_le_toLex.mpr (.inr ⟨rfl, Int.ofNat_le.mpr this⟩)
  have posQuotient : 0 < more / 2 ^ steps := by
    have := normalised.pos
    rcases Prod.Lex.toLex_le_toLex.mp first with further | ⟨-, atLeast⟩ <;>
      simp only at * <;> omega
  have choice := roundedMantissa_cases (ExtendedMantissa.mk more false false >>> steps)
  rw [shiftRight_mantissa] at choice
  generalize isRounded :
    (ExtendedMantissa.mk more false false >>> steps).roundedMantissa = rounded at choice
  simp only at choice
  have second : toLex (exponent + steps, ((more / 2 ^ steps : Nat) : Int)) ≤
      toLex (exponent + steps, (rounded : Int)) :=
    Prod.Lex.toLex_le_toLex.mpr (.inr ⟨rfl, Int.ofNat_le.mpr (by omega)⟩)
  have roundedFull : 2 ^ 52 ≤ rounded ∨ exponent + steps = -1074 := by omega
  rcases exists_carry (by omega) (by omega) (by omega) roundedFull with
    ⟨again, reachedAgain, normalised', third⟩
  exact ⟨_, _, normalised', round_eq reached isRounded reachedAgain _,
    first.trans (second.trans third)⟩

/-! ## Packing -/

theorem append_leadingBit (fraction : BitVec 52) :
    (1#1 ++ fraction).toNat = 2 ^ 52 + fraction.toNat := by
  rw [BitVec.toNat_append, ← Nat.shiftLeft_add_eq_or_of_lt fraction.isLt]
  rfl

theorem exponentBias_eq : Format.binary64.exponentBias = 1023 := rfl

theorem unpack_normal {sign : Sign} {field : BitVec 11} {fraction : BitVec 52}
    (notLeast : field ≠ 0#11) (notTop : field ≠ -1#11) :
    unpack .binary64 (packComponents .binary64 sign field fraction) =
      .finite sign (2 ^ 52 + fraction.toNat) (field.toNat - 1075) (by omega) := by
  simp only [unpack, unpackExponent_packComponents, unpackMantissa_packComponents,
    unpackSign_packComponents, Sign.ofBitVec_toBitVec, if_neg notLeast, if_neg notTop,
    append_leadingBit, exponentBias_eq]
  rfl

theorem unpack_subnormal {sign : Sign} {fraction : BitVec 52} (pos : 0 < fraction.toNat) :
    unpack .binary64 (packComponents .binary64 sign 0#11 fraction) =
      .finite sign fraction.toNat (-1074) pos := by
  have nonzero : fraction ≠ 0#52 := by
    rintro rfl
    exact absurd pos (by decide)
  have notTop : 0#11 ≠ -1#11 := by decide
  simp only [unpack, unpackExponent_packComponents, unpackMantissa_packComponents,
    unpackSign_packComponents, Sign.ofBitVec_toBitVec, if_neg notTop, dif_neg nonzero,
    exponentBias_eq]
  rfl

theorem unpack_pack_infinity (sign : Sign) :
    unpack .binary64 (pack .binary64 (.infinity sign)) = .infinity sign := by
  cases sign <;> rfl

theorem log2_add_one_eq_iff {mantissa : Nat} {exponent : Int}
    (normalised : Normalised mantissa exponent) :
    mantissa.log2 + 1 = Format.binary64.mantissaBits ↔ 2 ^ 52 ≤ mantissa := by
  have short := (Nat.log2_lt normalised.pos.ne').mpr normalised.lt
  rw [← Nat.le_log2 normalised.pos.ne', Format.mantissaBits]
  simp only
  omega

/-- The double is packed as an infinite one if its exponent is too large for its bits. -/
theorem unpack_pack_finite {sign : Sign} {mantissa : Nat} {exponent : Int}
    (normalised : Normalised mantissa exponent) :
    unpack .binary64 (pack .binary64 (.finite sign mantissa exponent normalised.pos)) =
      if exponent < 972 then .finite sign mantissa exponent normalised.pos
      else .infinity sign := by
  have isNormal := log2_add_one_eq_iff normalised
  rcases normalised with ⟨pos, lt, least, full⟩
  have biased : (exponent + (1023 : Nat) + (52 : Nat)).toNat = (exponent + 1075).toNat := by
    omega
  simp only [pack, exponentBias_eq, isNormal, biased]
  rcases lt_or_ge exponent 972 with small | large
  · rw [if_pos small, if_neg (by omega)]
    split_ifs with normal
    · have field : (BitVec.ofNat 11 (exponent + 1075).toNat).toNat = (exponent + 1075).toNat := by
        rw [BitVec.toNat_ofNat, Nat.mod_eq_of_lt (by omega)]
      have fraction : (BitVec.ofNat 52 mantissa).toNat = mantissa - 2 ^ 52 := by
        rw [BitVec.toNat_ofNat]
        omega
      rw [unpack_normal]
      · congr 1 <;> omega
      · rw [Ne, ← BitVec.toNat_inj, field, BitVec.toNat_zero]
        omega
      · rw [Ne, ← BitVec.toNat_inj, field]
        change _ ≠ 2047
        omega
    · obtain rfl : exponent = -1074 := by omega
      have fraction : (BitVec.ofNat 52 mantissa).toNat = mantissa := by
        rw [BitVec.toNat_ofNat]
        omega
      rw [unpack_subnormal (by omega)]
      congr 1
  · rw [if_neg large.not_gt, if_pos (by omega)]
    exact unpack_pack_infinity sign

/-- What is unpacked from the bits of a double has the form of one. -/
theorem normalised_of_unpack_eq {bits : BitVec Format.binary64.numBits} {sign : Sign}
    {mantissa : Nat} {exponent : Int} {pos : 0 < mantissa}
    (unpacked : unpack .binary64 bits = .finite sign mantissa exponent pos) :
    Normalised mantissa exponent := by
  have inside := (unpackMantissa bits).isLt
  simp only [unpack, exponentBias_eq] at unpacked inside
  split_ifs at unpacked with top zero lowest
  · injection unpacked with _ isMantissa isExponent
    rw [lowest] at isExponent
    exact ⟨pos, by omega, by simp at isExponent; omega, .inr (by simp at isExponent; omega)⟩
  · have nonzero : (unpackExponent bits).toNat ≠ 0 := by
      rwa [← BitVec.toNat_inj] at lowest
    injection unpacked with _ isMantissa isExponent
    have := append_leadingBit (unpackMantissa bits)
    simp only at *
    exact ⟨pos, by omega, by omega, .inl (by omega)⟩

end JourneyTimes.Double
