import JourneyTimes.Cost.Model
import JourneyTimes.Search.Heap

/-!
# Sweeps

A sweep finds the least cost between one node, its root, and every other one,
where every link costs its minimum.  Followed forwards it gives the costs
from the root, and followed backwards the costs to the root.  Nodes that are
not connected with the root have infinite cost.
-/

namespace JourneyTimes.Sweep

variable {α : Type} [Scalar α]

/-- What a sweep knows so far. -/
structure State (α : Type) where
  scores : Array α
  visited : Array Bool
  waiting : Heap α
  /-- Whether a link was met that the cost model has no price for. -/
  stray : Bool

/-- The score of a node. -/
def State.score (state : State α) (node : Nat) : α :=
  state.scores.getD node Scalar.infinity

/-- Whether a node has been visited; one that does not exist need not be. -/
def State.isVisited (state : State α) (node : Nat) : Bool :=
  state.visited.getD node true

/-- Lower the score of the node that a link leads to, if the way along the
link is better. -/
def relax (cost : CostModel α) (direction : Graph.Direction) (score : α)
    (state : State α) (link : Graph.Link α) : State α :=
  let next := link.target direction
  if state.isVisited next then state
  else if !cost.prices link then { state with stray := true }
  else
    let total := score + cost.minimum link
    if total < state.score next then
      { state with
        scores := state.scores.setIfInBounds next total
        waiting := state.waiting.push next total }
    else state

/-- Visit the nodes that wait, the one with the least score first; `fuel`
bounds how many entries are taken from the heap. -/
def visit (graph : Graph α) (cost : CostModel α)
    (direction : Graph.Direction) : Nat → State α → State α
  | 0, state => state
  | fuel + 1, state =>
    match state.waiting.pop? with
    | none => state
    | some (entry, waiting) =>
      let state := { state with waiting }
      if state.isVisited entry.node then visit graph cost direction fuel state
      else
        let state :=
          { state with visited := state.visited.setIfInBounds entry.node true }
        visit graph cost direction fuel
          ((graph.linksAt direction entry.node).foldl
            (relax cost direction entry.score) state)

/-- The state before the root is visited. -/
def start (graph : Graph α) (root : Nat) : State α :=
  { scores :=
      (Array.replicate graph.size Scalar.infinity).setIfInBounds root 0
    visited := Array.replicate graph.size false
    waiting := Heap.empty.push root 0
    stray := false }

/-- The sweep from a root.  Every link puts a node on the heap at most once,
so there are never more entries than links and the root. -/
def run (graph : Graph α) (cost : CostModel α) (direction : Graph.Direction)
    (root : Nat) : State α :=
  visit graph cost direction (graph.links.size + 2) (start graph root)

/-- The least costs between a root and every node; a link without a price is
an error. -/
def costs (graph : Graph α) (cost : CostModel α) (direction : Graph.Direction)
    (root : Nat) : Except Error (Array α) :=
  let final := run graph cost direction root
  if final.stray then .error .unpriced else .ok final.scores

end JourneyTimes.Sweep
