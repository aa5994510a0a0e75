import JourneyTimes.Numeral

/-!
# Whole numbers

Whole numbers are read digit by digit and must fit a given range.  Reading
stops at the first thing that is wrong, so a number that has already grown
too large is refused as such even when something that is no digit follows.
-/

namespace JourneyTimes.WholeNumber

/-- Why a text is not a whole number in range. -/
inductive Fault where
  | empty
  | badDigit
  | outOfRange
deriving DecidableEq, Repr

/-- The value of a digit in a radix up to sixteen. -/
def digit? (radix : Nat) (character : Char) : Option Nat :=
  let value? :=
    if character.isDigit then some (character.toNat - '0'.toNat)
    else if 'a' ≤ character ∧ character ≤ 'f' then
      some (character.toNat - 'a'.toNat + 10)
    else if 'A' ≤ character ∧ character ≤ 'F' then
      some (character.toNat - 'A'.toNat + 10)
    else none
  value?.filter (· < radix)

/-- Read digits onto the number read so far, none of them beyond `limit`. -/
def readDigits (radix limit : Nat) : Nat → List Char → Except Fault Nat
  | total, [] => .ok total
  | total, character :: rest =>
    match digit? radix character with
    | none => .error .badDigit
    | some value =>
      let next := radix * total + value
      if limit < next then .error .outOfRange
      else readDigits radix limit next rest

/-- Read a number from `0` to `limit`; a plus may stand in front of it. -/
def readNat (limit : Nat) (text : String) : Except Fault Nat :=
  match text.toList with
  | [] => .error .empty
  | ['+'] => .error .badDigit
  | '+' :: digits => readDigits 10 limit 0 digits
  | digits => readDigits 10 limit 0 digits

/-- The largest number of a signed word of 64 bits: `2 ^ 63 - 1`. -/
def largest : Nat := 0x7fffffffffffffff

/-- Read a signed word of 64 bits in a radix, with an optional sign. -/
def readInt (radix : Nat) (text : List Char) : Except Fault Int :=
  match text with
  | [] => .error .empty
  | ['+'] | ['-'] => .error .badDigit
  | '+' :: digits => (readDigits radix largest 0 digits).map Int.ofNat
  | '-' :: digits =>
    (readDigits radix (largest + 1) 0 digits).map fun total => -(total : Int)
  | digits => (readDigits radix largest 0 digits).map Int.ofNat

end JourneyTimes.WholeNumber
