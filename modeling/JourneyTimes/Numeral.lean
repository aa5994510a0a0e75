/-!
# Numerals

A numeral is a number as people write it: a sign, decimal digits and a power
of ten, or one of the words for an infinity and for the lack of a value.
Reading a text and writing a scalar both go through this type, so what a
digit string means is said once, apart from how a scalar stores it.

Texts are read strictly: no blank around the number, no grouping of digits.
Texts are written positionally, without a power of ten and without a
fraction that is zero.
-/

namespace JourneyTimes

/-- A number as written. -/
inductive Numeral where
  /-- The number `digits * 10 ^ exponent`, negated if asked for. -/
  | decimal (negative : Bool) (digits : Nat) (exponent : Int)
  | infinite (negative : Bool)
  | undefined
deriving DecidableEq, Repr

namespace Numeral

/-- Why a text is not a numeral. -/
inductive Fault where
  | empty
  | malformed
deriving DecidableEq, Repr

/-- The value of a decimal digit. -/
def digitValue (digit : Char) : Nat := digit.toNat - '0'.toNat

/-- The number a run of decimal digits stands for, continuing `start`. -/
def digitsValue (start : Nat) (digits : List Char) : Nat :=
  digits.foldl (fun total digit => 10 * total + digitValue digit) start

/-- A sign, if the text begins with one: whether it is a minus, and the rest. -/
def readSign : List Char → Bool × List Char
  | '-' :: rest => (true, rest)
  | '+' :: rest => (false, rest)
  | text => (false, text)

/-- The power of ten at the end of a numeral; nothing stands for power `0`. -/
def readPower : List Char → Option Int
  | [] => some 0
  | mark :: rest =>
    if mark = 'e' ∨ mark = 'E' then
      let (negative, digits) := readSign rest
      if digits ≠ [] ∧ digits.all Char.isDigit then
        let power : Int := digitsValue 0 digits
        some (if negative then -power else power)
      else none
    else none

/-- The digits after the decimal point, and what follows them. -/
def readFraction : List Char → List Char × List Char
  | '.' :: rest => rest.span Char.isDigit
  | text => ([], text)

/-- Digits with an optional point and power of ten.  There is at least one
digit, on either side of the point. -/
def readDecimal (negative : Bool) (text : List Char) : Option Numeral :=
  let (whole, rest) := text.span Char.isDigit
  let (fraction, rest) := readFraction rest
  if whole = [] ∧ fraction = [] then none
  else (readPower rest).map fun power =>
    .decimal negative (digitsValue (digitsValue 0 whole) fraction)
      (power - fraction.length)

/-- Read a numeral.  The words for infinity and for an undefined number are
taken in any mixture of capital and small letters. -/
def read (text : String) : Except Fault Numeral :=
  if text.isEmpty then .error .empty
  else
    let (negative, rest) := readSign text.toList
    let word := String.ofList (rest.map Char.toLower)
    if word = "inf" ∨ word = "infinity" then .ok (.infinite negative)
    else if word = "nan" then .ok .undefined
    else match readDecimal negative rest with
      | some numeral => .ok numeral
      | none => .error .malformed

/-- The decimal digits of a whole number. -/
def digitsOf (number : Nat) : List Char := Nat.toDigits 10 number

/-- Drop the zeros at the end of a run of digits, counting them as powers of
ten; `fuel` bounds how many are dropped. -/
def stripZeros : Nat → Nat → Int → Nat × Int
  | fuel + 1, digits, exponent =>
    if digits % 10 = 0 then stripZeros fuel (digits / 10) (exponent + 1)
    else (digits, exponent)
  | 0, digits, exponent => (digits, exponent)

/-- The positional layout of `digits * 10 ^ exponent`. -/
def positional (digits : Nat) (exponent : Int) : List Char :=
  if digits = 0 then ['0']
  else
    let (digits, exponent) :=
      stripZeros (digitsOf digits).length digits exponent
    let written := digitsOf digits
    if 0 ≤ exponent then
      written ++ List.replicate exponent.toNat '0'
    else
      let places := (-exponent).toNat
      if places < written.length then
        written.take (written.length - places) ++
          '.' :: written.drop (written.length - places)
      else
        '0' :: '.' :: List.replicate (places - written.length) '0' ++ written

/-- The text of a numeral. -/
def text : Numeral → String
  | .decimal negative digits exponent =>
    let sign := if negative then ['-'] else []
    String.ofList (sign ++ positional digits exponent)
  | .infinite false => "inf"
  | .infinite true => "-inf"
  | .undefined => "NaN"

end Numeral

/-- Scalars that can be read from numerals and written as numerals. -/
class Numeric (α : Type) where
  /-- The scalar nearest to the number a numeral stands for. -/
  ofNumeral : Numeral → α
  /-- The numeral a scalar is written as. -/
  numeral : α → Numeral

namespace Numeric

variable {α : Type} [Numeric α]

/-- The text of a scalar. -/
def text (value : α) : String := (numeral value).text

/-- Read a scalar from a text. -/
def read (text : String) : Except Numeral.Fault α :=
  (Numeral.read text).map ofNumeral

end Numeric

end JourneyTimes
