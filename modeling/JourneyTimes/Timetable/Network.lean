import JourneyTimes.Geometry.Nearby
import JourneyTimes.Network.Basic
import JourneyTimes.RouterSettings
import JourneyTimes.Timetable.Basic

/-!
# Transit networks

The network that a transit router searches has a node for every stop of every
route, so that staying in a vehicle and changing to another one are different
links.  Consecutive stops of a route are joined by rides.  From every stop
where people get off, transfers lead to the stops of other routes within
walking distance where people get on.
-/

namespace JourneyTimes.Timetable

variable {α : Type} [Scalar α]

/-- A stop of a route as a node of the network. -/
structure Halt (α : Type) where
  id : String
  place : Point α
  route : Nat
  stop : Nat
  mode : String
  /-- People get off everywhere but at the first stop of a route. -/
  canAlight : Bool
  /-- People get on everywhere but at the last stop of a route. -/
  canBoard : Bool
deriving Repr, DecidableEq

/-- The id of the node of a stop: line, route and position. -/
def haltId (route : Route α) (stop : Nat) : String :=
  route.line ++ "/" ++ route.id ++ "/" ++ toString stop

/-- The node of the stop at a position of a route. -/
def haltOf (timetable : Timetable α) (route : Route α) (routeIndex : Nat)
    (stop : Stop α) (stopIndex : Nat) : Except Error (Halt α) := do
  let place ← timetable.placeOf stop.facility
  pure
    { id := haltId route stopIndex
      place
      route := routeIndex
      stop := stopIndex
      mode := route.mode
      canAlight := 0 < stopIndex
      canBoard := stopIndex + 1 < route.stops.length }

/-- The nodes of a route, stop after stop. -/
def haltsOfRoute (timetable : Timetable α) (route : Route α)
    (routeIndex : Nat) : Except Error (List (Halt α)) :=
  route.stops.zipIdx.mapM fun (stop, stopIndex) =>
    haltOf timetable route routeIndex stop stopIndex

/-- The nodes of all routes, route after route. -/
def halts (timetable : Timetable α) : Except Error (List (List (Halt α))) :=
  timetable.routes.toList.zipIdx.mapM fun (route, routeIndex) =>
    haltsOfRoute timetable route routeIndex

/-- The id of the link from one node to another. -/
def linkId (origin destination : Halt α) : String :=
  origin.id ++ ">" ++ destination.id

/-- Riding from a stop to the next one of the route. -/
def ride (origin destination : Halt α) : Network.Link α :=
  { Network.Link.road (linkId origin destination) origin.id destination.id
      (origin.place.distance destination.place) Scalar.infinity with
    modes := [origin.mode]
    stretch := some ⟨origin.route, origin.stop, destination.stop⟩ }

/-- The rides along a route. -/
def rides : List (Halt α) → List (Network.Link α)
  | origin :: destination :: rest =>
    ride origin destination :: rides (destination :: rest)
  | _ => []

/-- The mode of transfers. -/
def transferMode : String := "walk"

/-- Walking from a stop of one route to a stop of another. -/
def transfer (walkSpeed : α) (origin destination : Halt α) : Network.Link α :=
  { Network.Link.road (linkId origin destination) origin.id destination.id
      (origin.place.distance destination.place) walkSpeed with
    modes := [transferMode] }

/-- The transfers that begin at a stop, to the stops of other routes within
the radius, in the order of the stops. -/
def transfersFrom (settings : RouterSettings α) (boarding : Places α (Halt α))
    (origin : Halt α) : Except Error (List (Network.Link α)) := do
  let near ← boarding.within origin.place settings.transferRadius
  let others := near.filter fun destination => destination.route != origin.route
  pure (others.map (transfer settings.walkSpeed origin))

/-- The transfers between some stops. -/
def transfers (settings : RouterSettings α) (stops : List (Halt α)) :
    Except Error (List (Network.Link α)) := do
  let boarding ← Places.ofList
    ((stops.filter (·.canBoard)).map fun halt => (halt.place, halt))
  let found ← (stops.filter (·.canAlight)).mapM (transfersFrom settings boarding)
  pure found.flatten

/-- The network of a timetable: rides first, route after route, and then the
transfers, stop after stop. -/
def toNetwork (timetable : Timetable α) (settings : RouterSettings α) :
    Except Error (Network α) := do
  let byRoute ← halts timetable
  let stops := byRoute.flatten
  let nodes : Network α :=
    stops.foldl (fun network halt => network.addNode halt.id halt.place)
      Network.empty
  let walks ← transfers settings stops
  (byRoute.flatMap rides ++ walks).foldlM Network.addLink nodes

end JourneyTimes.Timetable
