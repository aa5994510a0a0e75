/-!
# Stamped vectors

A search labels nodes, and a path tree searches again and again.  A stamped
vector is reset to its default in one step: every entry remembers in which
generation it was written, and only entries of the current generation count.

Generations are words of 32 bits.  When they run out, all stamps are cleared
once, so that no entry of an early generation can pass for a current one.
-/

namespace JourneyTimes

/-- A vector of fixed size with a reset that leaves the entries untouched. -/
structure Stamped (β : Type) where
  data : Array β
  stamps : Array UInt32
  current : UInt32
  default : β

namespace Stamped

variable {β : Type}

/-- A vector in which nothing is set.  Generation zero is never current, so
the first stamps are all out of date. -/
def make (size : Nat) (default : β) : Stamped β :=
  { data := Array.replicate size default
    stamps := Array.replicate size 0
    current := 1
    default }

/-- The number of entries. -/
def size (vector : Stamped β) : Nat := vector.data.size

/-- Forget everything that was set. -/
def reset (vector : Stamped β) : Stamped β :=
  let next := vector.current + 1
  if next = 0 then
    { vector with
      stamps := Array.replicate vector.stamps.size 0
      current := 1 }
  else { vector with current := next }

/-- Set an entry. -/
def set (vector : Stamped β) (index : Nat) (value : β) : Stamped β :=
  { vector with
    data := vector.data.setIfInBounds index value
    stamps := vector.stamps.setIfInBounds index vector.current }

/-- Whether an entry was set since the last reset. -/
def isSet (vector : Stamped β) (index : Nat) : Bool :=
  vector.stamps[index]? == some vector.current

/-- The value of an entry: the one set since the last reset, or else the
default. -/
def get (vector : Stamped β) (index : Nat) : β :=
  if vector.isSet index then vector.data.getD index vector.default
  else vector.default

end Stamped

end JourneyTimes
