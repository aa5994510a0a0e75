/-!
# Strongly connected components

Two nodes belong together when each reaches the other.  The components are
found in two passes.  The first follows edges backwards and lists the nodes
in the order in which it is done with them.  The second takes the nodes from
the end of that list and follows edges forwards: what a node still reaches is
its component.

The order of the components matters only where several are equally large;
then the last of them counts as the largest.
-/

namespace JourneyTimes.Components

/-- Edges between the nodes `0, 1, ..., size - 1`, by their ends. -/
structure Relation where
  size : Nat
  successors : Array (List Nat)
  predecessors : Array (List Nat)

/-- Put an item at the end of a list unless the list has it. -/
def addOnce (item : Nat) (items : List Nat) : List Nat :=
  if items.contains item then items else items ++ [item]

/-- The relation of a list of edges.  A repeated edge counts once, where it
occurs first. -/
def Relation.ofEdges (size : Nat) (edges : List (Nat × Nat)) : Relation :=
  edges.foldl
    (fun relation (origin, destination) =>
      { relation with
        successors := relation.successors.modify origin (addOnce destination)
        predecessors :=
          relation.predecessors.modify destination (addOnce origin) })
    ⟨size, Array.replicate size [], Array.replicate size []⟩

/-- The number of steps that bounds either pass. -/
def Relation.steps (relation : Relation) : Nat :=
  let edges := relation.successors.foldl (fun total next => total + next.length) 0
  2 * (relation.size + edges) + 2

/-- The state of the backward pass. -/
structure Finishing where
  discovered : Array Bool
  /-- Nodes done with, the latest first. -/
  finished : List Nat

/-- Work off a stack of nodes backwards.  The top node is entered when it is
new, and is done with when it comes to the top again. -/
def finish (relation : Relation) : Nat → List Nat → Finishing → Finishing
  | 0, _, state => state
  | _, [], state => state
  | steps + 1, node :: rest, state =>
    if state.discovered.getD node true then
      if state.finished.contains node then finish relation steps rest state
      else finish relation steps rest
        { state with finished := node :: state.finished }
    else
      let discovered := state.discovered.setIfInBounds node true
      let fresh := (relation.predecessors.getD node []).filter
        fun previous => !discovered.getD previous true
      finish relation steps (fresh.reverse ++ node :: rest)
        { state with discovered }

/-- All nodes, from the one that the backward pass was done with last. -/
def finishOrder (relation : Relation) : List Nat :=
  let start : Finishing := ⟨Array.replicate relation.size false, []⟩
  let final := (List.range relation.size).foldl
    (fun state node =>
      if state.discovered.getD node true then state
      else finish relation relation.steps [node] state)
    start
  final.finished

/-- Collect what a stack of nodes still reaches forwards. -/
def collect (relation : Relation) :
    Nat → List Nat → Array Bool × List Nat → Array Bool × List Nat
  | 0, _, state => state
  | _, [], state => state
  | steps + 1, node :: rest, (discovered, members) =>
    if discovered.getD node true then
      collect relation steps rest (discovered, members)
    else
      let discovered := discovered.setIfInBounds node true
      let fresh := (relation.successors.getD node []).filter
        fun next => !discovered.getD next true
      collect relation steps (fresh.reverse ++ rest) (discovered, node :: members)

/-- The strongly connected components, in the order in which they are
found. -/
def components (relation : Relation) : List (List Nat) :=
  let start : Array Bool × List (List Nat) :=
    (Array.replicate relation.size false, [])
  let final := (finishOrder relation).foldl
    (fun (discovered, found) node =>
      if discovered.getD node true then (discovered, found)
      else
        let (discovered, members) :=
          collect relation relation.steps [node] (discovered, [])
        (discovered, members.reverse :: found))
    start
  final.2.reverse

/-- The largest of some components, the last of equally large ones. -/
def largest? (components : List (List Nat)) : Option (List Nat) :=
  components.foldl
    (fun best members =>
      match best with
      | none => some members
      | some largest =>
        if largest.length ≤ members.length then some members else best)
    none

end JourneyTimes.Components
