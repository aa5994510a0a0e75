import JourneyTimes.Graph.Components
import JourneyTimes.Network.Basic

/-!
# Clean networks

A complete matrix of journey times exists only if every node reaches every
other.  Cleaning a network keeps a largest part of it in which that is so.
-/

namespace JourneyTimes.Network

variable {α : Type} [Scalar α]

/-- The ends of a link, as positions of nodes. -/
def ends? (network : Network α) (link : Link α) : Option (Nat × Nat) := do
  let origin ← network.positions[link.origin]?
  let destination ← network.positions[link.destination]?
  pure (origin, destination)

/-- Which nodes the links lead to and from. -/
def relation (network : Network α) : Components.Relation :=
  Components.Relation.ofEdges network.nodes.size
    (network.links.toList.filterMap network.ends?)

/-- The part of the network on the nodes at some positions: those nodes, and
the links with both ends among them. -/
def restrict (network : Network α) (positions : List Nat) : Network α :=
  let nodes := network.nodes.toList.zipIdx.filterMap fun (node, position) =>
    if positions.contains position then some node else none
  let bare := ofParts nodes []
  let links := network.links.toList.filter fun link =>
    bare.positions.contains link.origin && bare.positions.contains link.destination
  { bare with links := links.toArray }

/-- The network on a largest strongly connected component, the last one found
of equally large ones. -/
def clean (network : Network α) : Network α :=
  match Components.largest? (Components.components network.relation) with
  | none => empty
  | some members => network.restrict members

end JourneyTimes.Network
