import JourneyTimes.Search.Sweep

/-!
# Landmarks

A landmark is a node with known least costs to and from every other node.  By
the triangle inequality, each landmark bounds the cost between any two nodes
from below: the way from a landmark to the destination is no longer than the
way over the origin, and the way from the origin to a landmark is no longer
than the way over the destination.
-/

namespace JourneyTimes

/-- A node with the least costs from it and to it. -/
structure Landmark (α : Type) where
  node : Nat
  costsFrom : Array α
  costsTo : Array α
deriving Repr, DecidableEq

/-- The landmarks of a graph with `size` nodes, in the order chosen. -/
structure Landmarks (α : Type) where
  size : Nat
  members : List (Landmark α)
deriving Repr, DecidableEq

namespace Landmark

variable {α : Type} [Scalar α]

/-- The cost from the landmark to a node. -/
def costFrom (landmark : Landmark α) (node : Nat) : α :=
  landmark.costsFrom.getD node Scalar.infinity

/-- The cost from a node to the landmark. -/
def costTo (landmark : Landmark α) (node : Nat) : α :=
  landmark.costsTo.getD node Scalar.infinity

/-- The landmark at a node, with its costs found by two sweeps. -/
def prepare (graph : Graph α) (cost : CostModel α) (node : Nat) :
    Except Error (Landmark α) := do
  let costsFrom ← Sweep.costs graph cost .outgoing node
  let costsTo ← Sweep.costs graph cost .incoming node
  pure { node, costsFrom, costsTo }

end Landmark

namespace Landmarks

variable {α : Type} [Scalar α]

/-- Raise a bound to a difference of costs.  Differences that are not finite
come from nodes that the landmark is not connected with and say nothing. -/
def raise (bound difference : α) : α :=
  if Scalar.isFinite difference ∧ bound < difference then difference else bound

/-- Raise a bound by what one landmark says about two nodes. -/
def raiseBy (origin destination : Nat) (bound : α) (landmark : Landmark α) : α :=
  raise
    (raise bound
      (landmark.costFrom destination - landmark.costFrom origin))
    (landmark.costTo origin - landmark.costTo destination)

/-- A lower bound on the cost from one node to another, never less than
zero. -/
def lowerBound (landmarks : Landmarks α) (origin destination : Nat) : α :=
  landmarks.members.foldl (raiseBy origin destination) 0

/-- Whether the landmarks can be asked about a node.  Without landmarks there
is nothing to look up, and any node will do. -/
def answers (landmarks : Landmarks α) (node : Nat) : Bool :=
  landmarks.members.isEmpty || node < landmarks.size

/-- The chosen nodes. -/
def nodes (landmarks : Landmarks α) : List Nat :=
  landmarks.members.map (·.node)

end Landmarks

end JourneyTimes
