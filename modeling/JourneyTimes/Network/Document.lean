import JourneyTimes.Markup.Reader
import JourneyTimes.Network.Basic
import JourneyTimes.Text.Blank

/-!
# Network documents

A network is written as a document with an element for every node and every
link.  Where in the document these elements stand does not matter, except
that the nodes a link joins must come before it.  Links from a node to itself
are left out.
-/

namespace JourneyTimes.Network

open JourneyTimes.Markup (Attribute Event)

variable {α : Type} [Scalar α] [Numeric α]

/-- A number that an element must have. -/
def requireNumber (attributes : List Attribute) (element name : String) :
    Except Error α := do
  Markup.readNumber (← Markup.require attributes element name)

/-- A number that an element may have, with the value to take otherwise. -/
def numberOr (attributes : List Attribute) (name : String) (otherwise : α) :
    Except Error α :=
  match Markup.attribute? attributes name with
  | some value => Markup.readNumber value
  | none => .ok otherwise

/-- The modes of a list with commas, without the blanks around them. -/
def readModes (modes : String) : List String :=
  (modes.splitOn ",").map Text.trim

/-- Add the node of an element. -/
def readNode (network : Network α) (attributes : List Attribute) :
    Except Error (Network α) := do
  let id ← Markup.require attributes "node" "id"
  let x ← requireNumber attributes "node" "x"
  let y ← requireNumber attributes "node" "y"
  pure (network.addNode id ⟨x, y⟩)

/-- Add the link of an element, unless it leads back to where it begins. -/
def readLink (network : Network α) (attributes : List Attribute) :
    Except Error (Network α) := do
  let id ← Markup.require attributes "link" "id"
  let origin ← Markup.require attributes "link" "from"
  let destination ← Markup.require attributes "link" "to"
  if destination = origin then pure network
  else
    let length ← requireNumber attributes "link" "length"
    let freeSpeed ← requireNumber attributes "link" "freespeed"
    let link := Link.road id origin destination length freeSpeed
    let capacity ← numberOr attributes "capacity" link.capacity
    let lanes ← numberOr attributes "permlanes" link.lanes
    let modes := match Markup.attribute? attributes "modes" with
      | some modes => readModes modes
      | none => link.modes
    network.addLink { link with capacity, lanes, modes }

/-- Take in the start of an element. -/
def readElement (network : Network α) (name : String)
    (attributes : List Attribute) : Except Error (Network α) :=
  if name = "node" then network.readNode attributes
  else if name = "link" then network.readLink attributes
  else .ok network

/-- Take in the events of a document until it ends. -/
def readEvents : Network α → List Event → Except Error (Network α)
  | network, .documentEnd :: _ => .ok network
  | network, .elementStart name attributes :: rest => do
    readEvents (← network.readElement name attributes) rest
  | network, .elementEnd _ :: rest => readEvents network rest
  | network, .characters _ :: rest => readEvents network rest
  | network, .other :: rest => readEvents network rest
  | _, .malformed :: _ => .error .malformedMarkup
  | _, [] => .error .malformedMarkup

/-- The network of a document. -/
def ofDocument (document : String) : Except Error (Network α) :=
  readEvents empty (Markup.events document)

end JourneyTimes.Network
