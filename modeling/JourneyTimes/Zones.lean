import Std.Data.HashMap
import JourneyTimes.Geometry.Nearby
import JourneyTimes.Graph.Basic
import JourneyTimes.Table.Columns
import JourneyTimes.Text.Blank

/-!
# Zones

A zone is an area whose journeys all begin and end at one node of the graph,
its central node.  That is the node nearest to the middle of the zone.
-/

namespace JourneyTimes

/-- An area, by the point in its middle. -/
structure Zone (α : Type) where
  id : String
  centroid : Point α
deriving Repr, DecidableEq

namespace Zone

variable {α : Type} [Scalar α] [Numeric α]

/-- Read a coordinate; blanks around it do not count. -/
def readCoordinate (field : String) : Except Error α :=
  (Numeric.read (Text.trim field)).mapError fun fault => .input (.number fault)

/-- The zone of a record with the columns `id`, `x` and `y`. -/
def ofRow (row : Csv.Row) : Except Error (Zone α) := do
  let x ← readCoordinate (← row.require "zones" "x")
  let y ← readCoordinate (← row.require "zones" "y")
  let id ← row.require "zones" "id"
  pure ⟨Text.trim id, ⟨x, y⟩⟩

/-- The zones of a table. -/
def ofTable (text : String) : Except Error (List (Zone α)) :=
  Csv.mapRows text ofRow

end Zone

/-- The central node of every zone. -/
abbrev CentralNodes := Std.HashMap String Nat

namespace CentralNodes

variable {α : Type} [Scalar α]

/-- The central node of every zone in a list; of zones with one id the last
counts.  There must be a node to choose, and all places must be finite. -/
def ofZones (graph : Graph α) (zones : List (Zone α)) :
    Except Error CentralNodes := do
  let places ← Places.ofList
    (graph.nodes.toList.map fun node => (node.place, node.index))
  zones.foldlM
    (fun (central : CentralNodes) zone => do
      match ← places.nearest? zone.centroid with
      | some node => pure (central.insert zone.id node)
      | none => throw (.config (.noNodeNear zone.id)))
    ∅

/-- Every node as a zone of its own. -/
def ofNodes (graph : Graph α) : CentralNodes :=
  graph.nodes.foldl (fun central node => central.insert node.id node.index) ∅

end CentralNodes

end JourneyTimes
