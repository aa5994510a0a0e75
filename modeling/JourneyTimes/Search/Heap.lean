import JourneyTimes.Scalar

/-!
# Binary heaps

A heap holds nodes with scores and gives back one with the least score.  It
is a binary tree laid out in an array: below position `n` are the positions
`2 n + 1` and `2 n + 2`, and no score is less than the one above it.

Nodes of equal score come out in an order that is fixed by the layout.  Scores
that improve after a node has been settled, as negative costs allow, make
that order visible, so it is part of what this module promises: a new entry
rises only past greater scores; the last entry takes the place of one that
was taken out, sinks to the bottom along the smaller children, the right one
when both are equal, and rises again.
-/

namespace JourneyTimes

/-- A node with a score. -/
structure Heap.Entry (α : Type) where
  score : α
  node : Nat
deriving Repr, DecidableEq

/-- Entries laid out as a binary tree. -/
structure Heap (α : Type) where
  entries : Array (Heap.Entry α)
deriving Repr, DecidableEq

namespace Heap

variable {α : Type} [Scalar α]

/-- Whether the score at one position is less than the one at another. -/
def isLess (entries : Array (Entry α)) (left right : Nat) : Bool :=
  match entries[left]?, entries[right]? with
  | some first, some second => first.score < second.score
  | _, _ => false

/-- Let an entry rise past the greater scores above it. -/
def rise (entries : Array (Entry α)) (position : Nat) : Array (Entry α) :=
  if position = 0 then entries
  else
    let parent := (position - 1) / 2
    if isLess entries position parent then
      rise (entries.swapIfInBounds position parent) parent
    else entries
termination_by position
decreasing_by omega

/-- Let an entry sink to the bottom of the tree along the smaller children,
and say where it arrives. -/
def sink (entries : Array (Entry α)) (position : Nat) :
    Array (Entry α) × Nat :=
  let left := 2 * position + 1
  if left + 1 < entries.size then
    let child := if isLess entries left (left + 1) then left else left + 1
    sink (entries.swapIfInBounds position child) child
  else if left + 1 = entries.size then
    (entries.swapIfInBounds position left, left)
  else (entries, position)
termination_by entries.size - position
decreasing_by
  simp only [Array.size_swapIfInBounds]
  split <;> omega

/-- No entries. -/
def empty : Heap α := ⟨#[]⟩

/-- Add a node with a score. -/
def push (heap : Heap α) (node : Nat) (score : α) : Heap α :=
  ⟨rise (heap.entries.push ⟨score, node⟩) heap.entries.size⟩

/-- A node with the least score, and the heap without it. -/
def pop? (heap : Heap α) : Option (Entry α × Heap α) :=
  match heap.entries[0]?, heap.entries.back? with
  | some first, some last =>
    let shorter := heap.entries.pop
    if shorter.isEmpty then some (first, empty)
    else
      let (entries, position) := sink (shorter.setIfInBounds 0 last) 0
      some (first, ⟨rise entries position⟩)
  | _, _ => none

end Heap

end JourneyTimes
