import JourneyTimes.Graph.Components
import JourneyTimes.Graph.FirstOut
import JourneyTimes.Network.Basic

/-!
# Routing graphs

A graph is a network made ready for searching: nodes and links are addressed
by number, in the order in which the network has them, and the links at a
node are found without looking up any id.

Every graph has an identity of its own, so that work done once for a graph
can be found again.  Identities are given out by a `GraphSupply`, one after
another.
-/

namespace JourneyTimes

namespace Graph

/-- A node and its number. -/
structure Node (α : Type) where
  index : Nat
  id : String
  place : Point α
deriving Repr, DecidableEq

/-- A link, its number and the numbers of its ends. -/
structure Link (α : Type) where
  index : Nat
  id : String
  origin : Nat
  destination : Nat
  length : α
  freeSpeed : α
  /-- The part of a timetable that the link stands for.  Links of streets and
  walking transfers have none. -/
  stretch : Option Stretch
deriving Repr, DecidableEq

/-- Following links from origin to destination, or the other way. -/
inductive Direction where
  | outgoing
  | incoming
deriving Repr, DecidableEq

end Graph

/-- A graph that searches run on. -/
structure Graph (α : Type) where
  identity : Nat
  nodes : Array (Graph.Node α)
  links : Array (Graph.Link α)
  positions : Std.HashMap String Nat
  outgoing : FirstOut
  incoming : FirstOut

namespace Graph

variable {α : Type} [Scalar α]

/-- The node of a network at a position, with that position as its number. -/
def Node.ofNetwork (node : Network.Node α) (index : Nat) : Node α :=
  ⟨index, node.id, node.place⟩

/-- The number of the node with an id; an id that no node has is an error. -/
def resolve (positions : Std.HashMap String Nat) (id : String) :
    Except Error Nat :=
  match positions[id]? with
  | some index => .ok index
  | none => .error (.unknownNode id)

/-- The link of a network at a position, with that position as its number and
its ends resolved. -/
def Link.ofNetwork (positions : Std.HashMap String Nat)
    (link : Network.Link α) (index : Nat) : Except Error (Link α) := do
  let origin ← resolve positions link.origin
  let destination ← resolve positions link.destination
  pure
    { index, origin, destination
      id := link.id
      length := link.length
      freeSpeed := link.freeSpeed
      stretch := link.stretch }

/-- The graph of a network, with a given identity.  Both ends of every link
must be nodes of the network. -/
def ofNetwork (identity : Nat) (network : Network α) :
    Except Error (Graph α) := do
  let nodes := network.nodes.toList.zipIdx.map fun (node, index) =>
    Node.ofNetwork node index
  let positions : Std.HashMap String Nat :=
    nodes.foldl (fun positions node => positions.insert node.id node.index) ∅
  let links ← network.links.toList.zipIdx.mapM fun (link, index) =>
    Link.ofNetwork positions link index
  pure
    { identity, positions
      nodes := nodes.toArray
      links := links.toArray
      outgoing := FirstOut.ofKeys nodes.length (links.map (·.origin))
      incoming := FirstOut.ofKeys nodes.length (links.map (·.destination)) }

/-- The number of nodes. -/
def size (graph : Graph α) : Nat := graph.nodes.size

/-- The number of the node with an id. -/
def nodeIndex? (graph : Graph α) (id : String) : Option Nat :=
  graph.positions[id]?

/-- The id of the node with a number, and an empty text if there is none. -/
def nodeId (graph : Graph α) (index : Nat) : String :=
  match graph.nodes[index]? with
  | some node => node.id
  | none => ""

/-- Refuse numbers that no node has. -/
def checkNode (graph : Graph α) (index : Nat) : Except Error Unit :=
  if index < graph.size then .ok () else .error (.nodeOutOfRange index)

/-- The links that leave or enter a node, in increasing order. -/
def linksAt (graph : Graph α) (direction : Direction) (node : Nat) :
    List (Link α) :=
  let adjacency := match direction with
    | .outgoing => graph.outgoing
    | .incoming => graph.incoming
  (adjacency.linksAt node).filterMap fun index => graph.links[index]?

/-- The end of a link that following it in a direction leads to. -/
def Link.target (link : Link α) : Direction → Nat
  | .outgoing => link.destination
  | .incoming => link.origin

/-- Which nodes the links lead to and from. -/
def relation (graph : Graph α) : Components.Relation :=
  Components.Relation.ofEdges graph.size
    (graph.links.toList.map fun link => (link.origin, link.destination))

/-- The strongly connected components. -/
def components (graph : Graph α) : List (List Nat) :=
  Components.components graph.relation

/-- Whether every node reaches every other. -/
def isStronglyConnected (graph : Graph α) : Bool :=
  graph.components.length ≤ 1

end Graph

/-- A source of graphs, each with an identity that no other graph from the
same source has. -/
structure GraphSupply where
  nextIdentity : Nat
deriving Repr, DecidableEq

namespace GraphSupply

variable {α : Type} [Scalar α]

/-- A source that has made no graph yet. -/
def start : GraphSupply := ⟨0⟩

/-- Make the graph of a network. -/
def make (supply : GraphSupply) (network : Network α) :
    Except Error (Graph α × GraphSupply) := do
  let graph ← Graph.ofNetwork supply.nextIdentity network
  pure (graph, ⟨supply.nextIdentity + 1⟩)

end GraphSupply

end JourneyTimes
