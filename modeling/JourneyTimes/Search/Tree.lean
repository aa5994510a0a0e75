import JourneyTimes.Cost.Model
import JourneyTimes.Landmarks.Basic
import JourneyTimes.Search.Frontier
import JourneyTimes.Search.Labels

/-!
# Path trees

A path tree answers questions about least-cost paths from one node, departing
at one time.  Links are priced at the time they are entered, which is when
the path so far arrives at their origin.

A search without a goal settles nodes in the order of their cost and never
returns to one.  It may stop at targets, or prune nodes beyond a distance or
a travel time: these are neither reported nor left again.  A search for a goal
is guided by landmarks, which may be wrong about where to look first, so it
returns to settled nodes when it finds a better way to them.

Costs may be negative, and may change with the time.  A search for a goal can
then find better ways for ever and never come to an end, or leave last links
that go round in a circle.  Nothing bounds how long a search goes on or how
far last links are followed, and no answer at all is an outcome of its own.

A path tree owns its labels, its frontier and the list of the nodes that it has
settled, and uses them again for every query.  A query that ends early leaves
all of them as they happen to be, and the next one begins with a reset.
-/

namespace JourneyTimes

/-- Where a search ends. -/
inductive SearchBounds (α : Type) where
  | unbounded
  /-- Stop as soon as all of these nodes are settled. -/
  | targets (nodes : List Nat)
  /-- Prune nodes at this distance or farther away. -/
  | maxDistance (distance : α)
  /-- Prune nodes that are reached this many seconds after the start or
  later. -/
  | maxTravelTime (duration : α)
deriving Repr, DecidableEq

/-- A path with what it takes as a whole. -/
structure Path (α : Type) where
  /-- The nodes from the source to the destination, both included. -/
  nodes : List Nat
  /-- The links between them. -/
  links : List Nat
  travelTime : α
  cost : α
  distance : α
deriving Repr, DecidableEq

/-- What searches write, and leave to the next search. -/
structure Search.Scratch (α : Type) where
  labels : Labels α
  frontier : Frontier α
  /-- The nodes that have been settled, in order, unless there is a goal. -/
  settled : Array Nat

/-- A graph with a cost model, perhaps with landmarks, and what the last query
has left. -/
structure PathTree (α : Type) where
  graph : Graph α
  cost : CostModel α
  landmarks : Option (Landmarks α)
  scratch : Search.Scratch α
  source : Option Nat
  startTime : α

variable {α : Type} [Scalar α]

/-- Whether a node with this travel time and distance is pruned. -/
def SearchBounds.prunes (bounds : SearchBounds α) (elapsed distance : α) :
    Bool :=
  match bounds with
  | .maxDistance limit => limit ≤ distance
  | .maxTravelTime limit => limit ≤ elapsed
  | _ => false

/-- The targets that are not settled yet at the start of a search. -/
def SearchBounds.awaited : SearchBounds α → Option (List Nat)
  | .targets nodes => some nodes
  | _ => none

namespace Search

/-- What is asked of a search. -/
structure Query (α : Type) where
  graph : Graph α
  cost : CostModel α
  source : Nat
  start : α
  bounds : SearchBounds α
  goal : Option Nat
  /-- A lower bound on the cost from a node to the goal. -/
  potential : Nat → α

/-- What a search knows so far. -/
structure State (α : Type) extends Scratch α where
  /-- The targets still to be settled, if the search stops at targets. -/
  awaited : Option (List Nat)
  /-- Whether a link was met that the cost model has no price for. -/
  stray : Bool

/-- Whether a label is final: pruned, or settled by a search that does not
return to settled nodes. -/
def Query.isFinal (query : Query α) (label : Label α) : Bool :=
  label.pruned || (label.settled && query.goal.isNone)

/-- The label at the end of a link, coming from a labelled node. -/
def extend (query : Query α) (here : Label α) (link : Graph.Link α)
    (duration : α) : Label α :=
  { cost := here.cost + query.cost.disutility link here.time
    time := here.time + duration
    distance := here.distance + link.length
    via := some link.index
    settled := false
    pruned := false }

/-- Take a link from a settled node with a label, if that is a better way to
its destination. -/
def relax (query : Query α) (here : Label α) (state : State α)
    (link : Graph.Link α) : State α :=
  let next := link.destination
  let known := state.labels.get next
  if query.isFinal known then state
  else if !query.cost.prices link then { state with stray := true }
  else
    let duration := query.cost.travelTime link here.time
    if !Scalar.isFinite duration then state
    else
      let found := extend query here link duration
      if found.cost < known.cost then
        { state with
          labels := state.labels.improve next found
          frontier :=
            state.frontier.push next (found.cost + query.potential next) }
      else state

/-- Settle a node that came out of the frontier. -/
def settle (query : Query α) (node : Nat) (state : State α) : State α :=
  { state with
    labels := state.labels.settle node
    settled := if query.goal.isNone then state.settled.push node
      else state.settled
    awaited := state.awaited.map (·.filter (· != node)) }

/-- Whether a search ends when a node has been settled. -/
def isOver (query : Query α) (node : Nat) (state : State α) : Bool :=
  query.goal == some node || state.awaited == some []

variable (query : Query α) in
/-- Take nodes out of the frontier until there are none or the search is over.
Every round reads the state that the one before has left.  A search that meets
a link without a price goes no further, and one that never comes to an end has
no last state. -/
def loop : ReaderT (State α) Option (State α) := fun state =>
  match state.frontier.pop? with
  | none => some state
  | some (node, frontier) =>
    let label := state.labels.get node
    let state := { state with frontier }
    if query.bounds.prunes (label.time - query.start) label.distance then
      loop.run { state with labels := state.labels.prune node }
    else
      let state := settle query node state
      if isOver query node state then some state
      else
        let state :=
          (query.graph.linksAt .outgoing node).foldl (relax query label) state
        if state.stray then some state else loop.run state
partial_fixpoint

/-- Forget all that the search before has left. -/
def Scratch.reset (scratch : Scratch α) : Scratch α :=
  { labels := scratch.labels.reset
    frontier := Frontier.empty
    settled := #[] }

/-- The state in which a search begins: the source has a label and waits. -/
def initial (query : Query α) (scratch : Scratch α) : State α :=
  { labels := scratch.labels.depart query.source query.start
    frontier := scratch.frontier.push query.source (query.potential query.source)
    settled := scratch.settled
    awaited := query.bounds.awaited
    stray := false }

/-- The last state of a search, if the search comes to an end and the cost
model prices every link that it meets. -/
def run (query : Query α) (scratch : Scratch α) : Except Error (State α) :=
  match loop query (initial query scratch) with
  | none => .error (.config .endless)
  | some final => if final.stray then .error .unpriced else .ok final

end Search

namespace PathTree

/-- A path tree that has answered nothing yet. -/
def make (graph : Graph α) (cost : CostModel α) : PathTree α :=
  { graph, cost
    landmarks := none
    scratch :=
      { labels := Labels.make graph.size
        frontier := Frontier.empty
        settled := #[] }
    source := none
    startTime := 0 }

/-- A path tree whose searches for a goal are guided by landmarks of its
graph. -/
def withLandmarks (graph : Graph α) (cost : CostModel α)
    (landmarks : Landmarks α) : PathTree α :=
  { make graph cost with landmarks := some landmarks }

/-- The lower bound on the cost from a node to a goal; zero without a goal or
without landmarks. -/
def potential (tree : PathTree α) (goal : Option Nat) (node : Nat) : α :=
  match goal, tree.landmarks with
  | some goal, some landmarks => landmarks.lowerBound node goal
  | _, _ => 0

/-- The query that a tree puts to a search. -/
def query (tree : PathTree α) (source : Nat) (start : α)
    (bounds : SearchBounds α) (goal : Option Nat) : Search.Query α :=
  { graph := tree.graph
    cost := tree.cost
    source, start, bounds, goal
    potential := tree.potential goal }

/-- Forget the last query. -/
def reset (tree : PathTree α) (source : Nat) (start : α) : PathTree α :=
  { tree with
    scratch := tree.scratch.reset
    source := some source
    startTime := start }

/-- Forget the last query and search. -/
def search (tree : PathTree α) (source : Nat) (start : α)
    (bounds : SearchBounds α) (goal : Option Nat) :
    Except Error (PathTree α) := do
  let tree := tree.reset source start
  let final ← Search.run (tree.query source start bounds goal) tree.scratch
  pure { tree with scratch := final.toScratch }

/-- Refuse targets that are not nodes. -/
def checkTargets (tree : PathTree α) : SearchBounds α → Except Error Unit
  | .targets nodes => nodes.forM tree.graph.checkNode
  | _ => .ok ()

/-- Find least-cost ways from a source, departing at a time, to every node
that the bounds allow. -/
def calculate (tree : PathTree α) (source : Nat) (start : α)
    (bounds : SearchBounds α) : Except Error (PathTree α) := do
  tree.graph.checkNode source
  tree.checkTargets bounds
  tree.search source start bounds none

/-- What is known about a node. -/
def label (tree : PathTree α) (node : Nat) : Label α :=
  tree.scratch.labels.get node

/-- The nodes that the last query settled, in order, unless it had a goal. -/
def reached (tree : PathTree α) : Array Nat := tree.scratch.settled

/-- Whether the last query settled a node and did not prune it. -/
def isReached (tree : PathTree α) (node : Nat) : Bool :=
  node < tree.graph.size && (tree.label node).settled &&
    !(tree.label node).pruned

/-- When the last query arrives at a node. -/
def time? (tree : PathTree α) (node : Nat) : Option α :=
  if tree.isReached node then some (tree.label node).time else none

/-- The cost of a node in the last query. -/
def cost? (tree : PathTree α) (node : Nat) : Option α :=
  if tree.isReached node then some (tree.label node).cost else none

/-- The distance of a node in the last query. -/
def distance? (tree : PathTree α) (node : Nat) : Option α :=
  if tree.isReached node then some (tree.label node).distance else none

/-- The last link of the way to a node. -/
def lastLink? (tree : PathTree α) (node : Nat) : Option (Graph.Link α) :=
  (tree.label node).via.bind fun link => tree.graph.links[link]?

variable (lastLink? : Nat → Option (Graph.Link α)) in
/-- Follow last links back from a node, for as long as there are any: the nodes
and the links of the way to it.  There is no such way if the links go round in
a circle. -/
def followBack : ReaderT Nat Option (List Nat × List Nat) := fun node =>
  match lastLink? node with
  | none => some ([node], [])
  | some link => do
    let (nodes, links) ← followBack.run link.origin
    pure (nodes ++ [node], links ++ [link.index])
partial_fixpoint

/-- The way to a node that last links lead back along. -/
def trace (tree : PathTree α) (node : Nat) : Option (List Nat × List Nat) :=
  followBack tree.lastLink? node

/-- The path to a node, if the last query reached it and last links lead back
from it to the source. -/
def path? (tree : PathTree α) (node : Nat) : Option (Path α) := do
  let time ← tree.time? node
  let (nodes, links) ← tree.trace node
  pure
    { nodes, links
      travelTime := time - tree.startTime
      cost := (tree.label node).cost
      distance := (tree.label node).distance }

/-- The path to a node, if the last query reached it.  From a node that was
reached and has no path, last links are followed for ever. -/
def findPath (tree : PathTree α) (node : Nat) :
    Except Error (Option (Path α)) :=
  match tree.path? node with
  | some path => .ok (some path)
  | none =>
    if tree.isReached node then .error (.config .endless) else .ok none

/-- Search for a way from one node to another.  With landmarks this is a search
for a goal, and otherwise one that stops at a target. -/
def searchPath (tree : PathTree α) (origin destination : Nat) (start : α) :
    Except Error (PathTree α) :=
  if tree.landmarks.isSome then
    tree.search origin start .unbounded (some destination)
  else tree.search origin start (.targets [destination]) none

/-- The least-cost path from one node to another, departing at a time. -/
def calculatePath (tree : PathTree α) (origin destination : Nat) (start : α) :
    Except Error (Option (Path α) × PathTree α) := do
  tree.graph.checkNode origin
  tree.graph.checkNode destination
  let tree ← tree.searchPath origin destination start
  pure (← tree.findPath destination, tree)

end PathTree

end JourneyTimes
