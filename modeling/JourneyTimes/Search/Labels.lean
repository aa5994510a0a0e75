import JourneyTimes.Scalar
import JourneyTimes.Search.Stamped

/-!
# Labels

A search keeps a label for every node: what the best way to it takes, the last
link of that way, and whether the node has been settled or pruned.

The parts of the labels are kept in vectors of their own, and a search writes
only the parts that it learns something about.  All of them are reset together
before the next search.
-/

namespace JourneyTimes

/-- What a search knows about a node: the cost, arrival time and distance of
the best way found to it, and the last link of that way. -/
structure Label (α : Type) where
  cost : α
  time : α
  distance : α
  via : Option Nat
  settled : Bool
  pruned : Bool
deriving Repr, DecidableEq

/-- The labels of all nodes, with a stamped vector for each of their parts. -/
structure Labels (α : Type) where
  costs : Stamped α
  times : Stamped α
  distances : Stamped α
  vias : Stamped (Option Nat)
  settled : Stamped Bool
  pruned : Stamped Bool

variable {α : Type} [Scalar α]

/-- The label of a node that nothing is known about. -/
def Label.unknown : Label α :=
  { cost := Scalar.infinity
    time := Scalar.infinity
    distance := Scalar.infinity
    via := none
    settled := false
    pruned := false }

/-- The label of the source. -/
def Label.origin (start : α) : Label α :=
  { cost := 0, time := start, distance := 0, via := none
    settled := false, pruned := false }

namespace Labels

/-- Labels that know no node. -/
def make (size : Nat) : Labels α :=
  { costs := Stamped.make size Scalar.infinity
    times := Stamped.make size Scalar.infinity
    distances := Stamped.make size Scalar.infinity
    vias := Stamped.make size none
    settled := Stamped.make size false
    pruned := Stamped.make size false }

/-- The label of a node. -/
def get (labels : Labels α) (node : Nat) : Label α :=
  { cost := labels.costs.get node
    time := labels.times.get node
    distance := labels.distances.get node
    via := labels.vias.get node
    settled := labels.settled.get node
    pruned := labels.pruned.get node }

/-- Forget all that is known. -/
def reset (labels : Labels α) : Labels α :=
  { costs := labels.costs.reset
    times := labels.times.reset
    distances := labels.distances.reset
    vias := labels.vias.reset
    settled := labels.settled.reset
    pruned := labels.pruned.reset }

/-- Begin a way at the source. -/
def depart (labels : Labels α) (source : Nat) (start : α) : Labels α :=
  { labels with
    costs := labels.costs.set source 0
    times := labels.times.set source start
    distances := labels.distances.set source 0 }

/-- Take down a better way to a node, which is then no longer settled. -/
def improve (labels : Labels α) (node : Nat) (found : Label α) : Labels α :=
  { labels with
    costs := labels.costs.set node found.cost
    times := labels.times.set node found.time
    distances := labels.distances.set node found.distance
    vias := labels.vias.set node found.via
    settled := labels.settled.set node false }

/-- Mark a node as settled. -/
def settle (labels : Labels α) (node : Nat) : Labels α :=
  { labels with settled := labels.settled.set node true }

/-- Mark a node as pruned. -/
def prune (labels : Labels α) (node : Nat) : Labels α :=
  { labels with pruned := labels.pruned.set node true }

end Labels

end JourneyTimes
