import JourneyTimes.Random.Isaac

/-!
# Random samples

A sample takes some of the numbers `0, 1, ..., size - 1`, each at most once.
Every choice is made from a range by multiplying a random number with the
length of the range and keeping the upper half of the product.  Products whose
lower half is too large are drawn again, so all choices are equally likely.
-/

namespace JourneyTimes.Random

/-- The number of values of a word of 32 bits: `2 ^ 32`. -/
def wordSize : Nat := 0x100000000

/-- The largest lower half of a product that is accepted for a range: the
length moved to the top of a word of 32 bits, less one. -/
def acceptance (range : Nat) : Nat :=
  range * Nat.pow 2 (31 - Nat.log2 range) - 1

/-- Draw until a number is accepted; `fuel` bounds the draws. -/
def drawBelow (range : Nat) : Nat → Generator → Nat × Generator
  | 0, generator => (0, generator)
  | fuel + 1, generator =>
    let (number, generator) := generator.next
    let product := number.toNat * range
    if product % wordSize ≤ acceptance range then
      (product / wordSize, generator)
    else drawBelow range fuel generator

/-- A number from `low` to `high`, both included. -/
def between (low high : Nat) (generator : Generator) : Nat × Generator :=
  let (offset, generator) := drawBelow (high - low + 1) 10000 generator
  (low + offset, generator)

/-- Put a number in front of the first occurrence of another, or at the end if
there is none. -/
def insertBefore (mark number : Nat) : List Nat → Option (List Nat)
  | [] => none
  | head :: rest =>
    if head = mark then some (number :: head :: rest)
    else (insertBefore mark number rest).map (head :: ·)

/-- Take `last` into a sample of smaller numbers: choose one up to `last`; if
it is in the sample already, `last` itself goes in front of it. -/
def takeOne (state : List Nat × Generator) (last : Nat) :
    List Nat × Generator :=
  let (choice, generator) := between 0 last state.2
  match insertBefore choice last state.1 with
  | some sample => (sample, generator)
  | none => (state.1 ++ [choice], generator)

/-- A sample that grows number by number. -/
def growingSample (size amount : Nat) (generator : Generator) : List Nat :=
  (((List.range amount).map (· + (size - amount))).foldl takeOne
    ([], generator)).1

/-- Swap a position of an array with a random one from there on. -/
def shuffleOne (size : Nat) (state : Array Nat × Generator) (position : Nat) :
    Array Nat × Generator :=
  let (choice, generator) := between position (size - 1) state.2
  (state.1.swapIfInBounds position choice, generator)

/-- A sample from the front of a shuffled array. -/
def shuffledSample (size amount : Nat) (generator : Generator) : List Nat :=
  let shuffled := (List.range amount).foldl (shuffleOne size)
    (Array.range size, generator)
  shuffled.1.toList.take amount

/-- A sample of `amount` of the first `size` numbers.  Large shares of the
numbers are taken from a shuffled array. -/
def sample (seed : UInt64) (size amount : Nat) : List Nat :=
  let generator := Generator.ofSeed seed
  if 11 < amount ∧ 10 * size < (100 + 16 * amount) * amount then
    shuffledSample size amount generator
  else growingSample size amount generator

end JourneyTimes.Random
