import Std.Data.HashMap
import JourneyTimes.Error
import JourneyTimes.Geometry.Point

/-!
# Networks

A network describes streets or transit lines from the outside: nodes with ids
and places, and directed links between them that name their ends by id.
Routing works on a graph that is made of a network once; nothing of the
network is used after that.

A network is only ever extended through `addNode` and `addLink`, or through
functions that keep its promises: ids are distinct, every id is found at its
node's position, and both ends of every link exist.
-/

namespace JourneyTimes

/-- The stretch of a transit route that a link covers: the position of the
route in its schedule, and the positions of the stops at either end. -/
structure Stretch where
  route : Nat
  fromStop : Nat
  toStop : Nat
deriving DecidableEq, Repr

namespace Network

/-- A place of a network that links begin and end at. -/
structure Node (α : Type) where
  id : String
  place : Point α
deriving Repr, DecidableEq

/-- A directed link between two nodes. -/
structure Link (α : Type) where
  id : String
  origin : String
  destination : String
  length : α
  freeSpeed : α
  capacity : α
  lanes : α
  modes : List String
  /-- The part of a timetable that the link stands for, if any. -/
  stretch : Option Stretch
deriving Repr, DecidableEq

variable {α : Type} [Scalar α]

/-- A link for cars, with the usual capacity and one lane. -/
def Link.road (id origin destination : String) (length freeSpeed : α) :
    Link α :=
  { id, origin, destination, length, freeSpeed
    capacity := Scalar.ofNat 1000
    lanes := Scalar.ofNat 1
    modes := ["car"]
    stretch := none }

/-- Whether the link is open to a mode of transport. -/
def Link.hasMode (link : Link α) (mode : String) : Bool :=
  link.modes.contains mode

end Network

/-- Nodes and links in the order they were added, with the position of every
node by its id. -/
structure Network (α : Type) where
  nodes : Array (Network.Node α)
  links : Array (Network.Link α)
  positions : Std.HashMap String Nat

namespace Network

variable {α : Type} [Scalar α]

/-- The network without nodes. -/
def empty : Network α := ⟨#[], #[], ∅⟩

/-- Add a node.  A node with an id that exists already moves to the new
place. -/
def addNode (network : Network α) (id : String) (place : Point α) :
    Network α :=
  match network.positions[id]? with
  | some position =>
    { network with
      nodes := network.nodes.modify position fun node => { node with place } }
  | none =>
    { network with
      nodes := network.nodes.push ⟨id, place⟩
      positions := network.positions.insert id network.nodes.size }

/-- The first of some ids that no node has. -/
def unknownId? (network : Network α) (ids : List String) : Option String :=
  ids.find? fun id => !network.positions.contains id

/-- Add a link.  Both of its ends must exist. -/
def addLink (network : Network α) (link : Link α) : Except Error (Network α) :=
  match network.unknownId? [link.origin, link.destination] with
  | some id => .error (.unknownNode id)
  | none => .ok { network with links := network.links.push link }

/-- The node with an id. -/
def node? (network : Network α) (id : String) : Option (Node α) :=
  network.positions[id]?.bind fun position => network.nodes[position]?

/-- A network of some nodes, with some links that are known to join them. -/
def ofParts (nodes : List (Node α)) (links : List (Link α)) : Network α :=
  let bare := nodes.foldl (fun network node => network.addNode node.id node.place)
    empty
  { bare with links := links.toArray }

/-- The links that are open to a mode, and the nodes they touch. -/
def filterByMode (network : Network α) (mode : String) : Network α :=
  let links := network.links.toList.filter (·.hasMode mode)
  let touched : Std.HashMap String Unit :=
    links.foldl (fun ids link => (ids.insert link.origin ()).insert link.destination ()) ∅
  let nodes := network.nodes.toList.filter fun node => touched.contains node.id
  ofParts nodes links

end Network

end JourneyTimes
