import Std.Data.HashMap
import JourneyTimes.Error
import JourneyTimes.Geometry.Point

/-!
# Timetables

A timetable consists of stop facilities, which are places with ids, and of
routes.  A route lists the facilities it serves, with the times at which a
vehicle arrives and departs counted from its departure at the first stop, and
the times of day at which vehicles leave that stop.
-/

namespace JourneyTimes

namespace Timetable

/-- A place where vehicles stop. -/
structure Facility (α : Type) where
  id : String
  link : Option String
  place : Point α
deriving Repr, DecidableEq

/-- When a vehicle is at a stop, in seconds since it left its first stop.  At
least one of the two times is known; the other then counts as the same. -/
inductive Offsets (α : Type) where
  | arrivalOnly (arrival : α)
  | departureOnly (departure : α)
  | both (arrival departure : α)
deriving Repr, DecidableEq

namespace Offsets

variable {α : Type}

/-- The offsets of the times that are known; none if neither is. -/
def ofKnown? : Option α → Option α → Option (Offsets α)
  | some arrival, some departure => some (.both arrival departure)
  | some arrival, none => some (.arrivalOnly arrival)
  | none, some departure => some (.departureOnly departure)
  | none, none => none

/-- When the vehicle arrives. -/
def arrival : Offsets α → α
  | .arrivalOnly arrival => arrival
  | .departureOnly departure => departure
  | .both arrival _ => arrival

/-- When the vehicle departs. -/
def departure : Offsets α → α
  | .arrivalOnly arrival => arrival
  | .departureOnly departure => departure
  | .both _ departure => departure

end Offsets

/-- A stop on a route: the facility and the times there. -/
structure Stop (α : Type) where
  facility : String
  offsets : Offsets α
deriving Repr, DecidableEq

/-- A vehicle leaving the first stop of a route. -/
structure Departure (α : Type) where
  id : String
  time : α
  vehicle : Option String
deriving Repr, DecidableEq

/-- A route of a transit line. -/
structure Route (α : Type) where
  line : String
  id : String
  mode : String
  stops : List (Stop α)
  departures : List (Departure α)
deriving Repr, DecidableEq

variable {α : Type}

/-- A stop at a facility with the times that are known there. -/
def Stop.make (facility : String) (arrival departure : Option α) :
    Except Error (Stop α) :=
  match Offsets.ofKnown? arrival departure with
  | some offsets => .ok ⟨facility, offsets⟩
  | none => .error (.input (.stopWithoutOffset facility))

/-- A route without stops and departures. -/
def Route.bare (line id mode : String) : Route α := ⟨line, id, mode, [], []⟩

/-- Put a stop at the end of a route. -/
def Route.addStop (route : Route α) (stop : Stop α) : Route α :=
  { route with stops := route.stops ++ [stop] }

/-- Let one more vehicle serve a route. -/
def Route.addDeparture (route : Route α) (departure : Departure α) : Route α :=
  { route with departures := route.departures ++ [departure] }

end Timetable

/-- Facilities by id, and routes in the order they were added. -/
structure Timetable (α : Type) where
  facilities : Std.HashMap String (Timetable.Facility α)
  routes : Array (Timetable.Route α)

namespace Timetable

variable {α : Type}

/-- The timetable without facilities and routes. -/
def empty : Timetable α := ⟨∅, #[]⟩

/-- Add a facility, in place of any other with its id. -/
def addFacility (timetable : Timetable α) (facility : Facility α) :
    Timetable α :=
  { timetable with
    facilities := timetable.facilities.insert facility.id facility }

/-- The first facility that a route stops at and the timetable lacks. -/
def unknownFacility? (timetable : Timetable α) (route : Route α) :
    Option String :=
  (route.stops.find? fun stop => !timetable.facilities.contains stop.facility).map
    (·.facility)

/-- Add a route whether or not its facilities exist. -/
def addRouteUnchecked (timetable : Timetable α) (route : Route α) :
    Timetable α :=
  { timetable with routes := timetable.routes.push route }

/-- Add a route.  All of its facilities must exist. -/
def addRoute (timetable : Timetable α) (route : Route α) :
    Except Error (Timetable α) :=
  match timetable.unknownFacility? route with
  | some id => .error (.unknownNode id)
  | none => .ok (timetable.addRouteUnchecked route)

/-- The place of a facility that a route needs. -/
def placeOf (timetable : Timetable α) (facility : String) :
    Except Error (Point α) :=
  match timetable.facilities[facility]? with
  | some found => .ok found.place
  | none => .error (.unknownNode facility)

/-- The stop at a position of the route at a position. -/
def stop? (timetable : Timetable α) (route stop : Nat) : Option (Stop α) := do
  let route ← timetable.routes[route]?
  route.stops[stop]?

end Timetable

end JourneyTimes
