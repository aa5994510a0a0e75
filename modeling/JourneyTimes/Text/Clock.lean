import JourneyTimes.Error
import JourneyTimes.Scalar
import JourneyTimes.Text.Blank

/-!
# Times of the clock

A time is written as hours, minutes and, optionally, seconds between colons.
Hours and minutes are whole numbers and seconds may be any number.  The hour
may be 24 or later: timetables go on counting when a vehicle runs past
midnight.

The seconds of hours and minutes are counted in a word of 32 bits, and there
are times that such a word does not hold.
-/

namespace JourneyTimes.Clock

/-- What becomes of a sum of seconds that is too large for a word.  Checked
arithmetic gives up, and arithmetic that wraps drops what is too much. -/
class Arithmetic where
  wraps : Bool

/-- Arithmetic is checked unless it is said to wrap. -/
instance checked : Arithmetic := ⟨false⟩

variable {α : Type} [Scalar α] [Numeric α]

/-- The largest number of an unsigned word of 32 bits: `2 ^ 32 - 1`. -/
def largestField : Nat := 0xffffffff

/-- Read hours or minutes. -/
def readField (text : String) : Except Error UInt32 :=
  match WholeNumber.readNat largestField text with
  | .ok number => .ok (UInt32.ofNat number)
  | .error fault => .error (.input (.wholeNumber fault))

/-- Read a number that may have a fraction. -/
def readNumber (text : String) : Except Error α :=
  (Numeric.read text).mapError fun fault => .input (.number fault)

/-- The seconds from midnight to a full minute. -/
def secondsOf [Arithmetic] (hours minutes : UInt32) : Except Error α :=
  let seconds := hours * 3600 + minutes * 60
  if Arithmetic.wraps ∨
      hours.toNat * 3600 + minutes.toNat * 60 < UInt32.size then
    .ok (Scalar.ofNat seconds.toNat)
  else .error (.input .clockOverflow)

/-- Read a time as seconds since midnight. -/
def read [Arithmetic] (text : String) : Except Error α := do
  match (Text.trim text).splitOn ":" with
  | [hours, minutes] =>
    let hours ← readField hours
    let minutes ← readField minutes
    secondsOf hours minutes
  | [hours, minutes, seconds] =>
    let hours ← readField hours
    let minutes ← readField minutes
    let seconds ← readNumber seconds
    pure ((← secondsOf hours minutes) + seconds)
  | _ => throw (.input (.clockTime text))

end JourneyTimes.Clock
