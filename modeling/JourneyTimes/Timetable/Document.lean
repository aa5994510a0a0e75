import JourneyTimes.Markup.Reader
import JourneyTimes.Text.Clock
import JourneyTimes.Timetable.Basic

/-!
# Timetable documents

A timetable is written as a document with elements for stop facilities, for
transit lines, and inside these for routes.  A route has an element for its
mode, one for every stop and one for every departure.

A route belongs to the line that began last, and is complete when its element
ends; its facilities must have been read by then.  Stops and departures
outside routes do not count.
-/

namespace JourneyTimes.Timetable

open JourneyTimes.Markup (Attribute Event)

variable {α : Type} [Scalar α] [Numeric α] [Clock.Arithmetic]

/-- What has been read of a document. -/
structure Draft (α : Type) where
  timetable : Timetable α
  /-- The id of the line that began last. -/
  line : String
  /-- The route that is being read. -/
  route : Option (Route α)

namespace Draft

/-- Nothing has been read. -/
def empty : Draft α := ⟨Timetable.empty, "", none⟩

/-- Change the route that is being read, if there is one. -/
def changeRoute (draft : Draft α)
    (change : Route α → Except Error (Route α)) : Except Error (Draft α) :=
  match draft.route with
  | some route => do pure { draft with route := some (← change route) }
  | none => .ok draft

/-- Give the route that is being read a mode. -/
def setMode (draft : Draft α) (text : String) : Draft α :=
  { draft with
    route := draft.route.map fun route => { route with mode := Text.trim text } }

/-- Add the facility of an element. -/
def readFacility (draft : Draft α) (attributes : List Attribute) :
    Except Error (Draft α) := do
  let x ← Markup.readNumber (← Markup.require attributes "stopFacility" "x")
  let y ← Markup.readNumber (← Markup.require attributes "stopFacility" "y")
  let id ← Markup.require attributes "stopFacility" "id"
  let link := Markup.attribute? attributes "linkRefId"
  pure { draft with timetable := draft.timetable.addFacility ⟨id, link, ⟨x, y⟩⟩ }

/-- Begin the line of an element. -/
def readLine (draft : Draft α) (attributes : List Attribute) :
    Except Error (Draft α) := do
  pure { draft with line := ← Markup.require attributes "transitLine" "id" }

/-- Begin the route of an element. -/
def readRoute (draft : Draft α) (attributes : List Attribute) :
    Except Error (Draft α) := do
  let id ← Markup.require attributes "transitRoute" "id"
  pure { draft with route := some (Route.bare draft.line id "") }

/-- A time that a stop may have. -/
def readOffset (attributes : List Attribute) (name : String) :
    Except Error (Option α) :=
  match Markup.attribute? attributes name with
  | some value => (Clock.read value).map some
  | none => .ok none

/-- The stop of an element. -/
def readStop (attributes : List Attribute) : Except Error (Stop α) := do
  let arrival ← readOffset attributes "arrivalOffset"
  let departure ← readOffset attributes "departureOffset"
  let facility ← Markup.require attributes "stop" "refId"
  Stop.make facility arrival departure

/-- The departure of an element. -/
def readDeparture (attributes : List Attribute) :
    Except Error (Departure α) := do
  let id ← Markup.require attributes "departure" "id"
  let time ← Markup.require attributes "departure" "departureTime"
  pure ⟨id, ← Clock.read time, Markup.attribute? attributes "vehicleRefId"⟩

/-- Take in the start of an element other than a mode. -/
def readElement (draft : Draft α) (name : String)
    (attributes : List Attribute) : Except Error (Draft α) :=
  match name with
  | "stopFacility" => draft.readFacility attributes
  | "transitLine" => draft.readLine attributes
  | "transitRoute" => draft.readRoute attributes
  | "stop" =>
    draft.changeRoute fun route => do
      pure (route.addStop (← readStop attributes))
  | "departure" =>
    draft.changeRoute fun route => do
      pure (route.addDeparture (← readDeparture attributes))
  | _ => .ok draft

/-- Take in the end of an element: the end of a route completes it. -/
def endElement (draft : Draft α) (name : String) : Except Error (Draft α) :=
  match name, draft.route with
  | "transitRoute", some route => do
    pure
      { draft with
        timetable := ← draft.timetable.addRoute route
        route := none }
  | _, _ => .ok draft

/-- Take in the events of a document until it ends.  Text must follow
directly when the element of a mode starts. -/
def readEvents : Draft α → List Event → Except Error (Draft α)
  | draft, .documentEnd :: _ => .ok draft
  | draft, .elementStart "transportMode" _ :: .characters text :: rest =>
    readEvents (draft.setMode text) rest
  | _, .elementStart "transportMode" _ :: .malformed :: _ =>
    .error .malformedMarkup
  | _, .elementStart "transportMode" _ :: _ =>
    .error (.input .modeWithoutText)
  | draft, .elementStart name attributes :: rest => do
    readEvents (← draft.readElement name attributes) rest
  | draft, .elementEnd name :: rest => do
    readEvents (← draft.endElement name) rest
  | draft, .characters _ :: rest => readEvents draft rest
  | draft, .other :: rest => readEvents draft rest
  | _, .malformed :: _ => .error .malformedMarkup
  | _, [] => .error .malformedMarkup

end Draft

/-- The timetable of a document. -/
def ofDocument (document : String) : Except Error (Timetable α) :=
  (Draft.readEvents Draft.empty (Markup.events document)).map (·.timetable)

end JourneyTimes.Timetable
