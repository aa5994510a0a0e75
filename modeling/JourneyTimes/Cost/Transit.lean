import JourneyTimes.Cost.Model
import JourneyTimes.RouterSettings
import JourneyTimes.Timetable.Departures

/-!
# Costs of transit

On a transit network a ride is priced by the timetable: waiting for the next
departure and riding to the next stop.  A link that stands for no stretch of
a route is a transfer and is priced by its length.

Travel time and cost differ here.  Seconds in a vehicle, seconds on foot and
changes of line are worth different amounts, according to the settings of the
router.
-/

namespace JourneyTimes.Transit

variable {α : Type} [Scalar α]

/-- The seconds that a transfer takes. -/
def transferTime (settings : RouterSettings α) (link : Graph.Link α) : α :=
  settings.walkTimeOver link.length + settings.transferTime

/-- The cost of a transfer that takes some seconds. -/
def transferCost (settings : RouterSettings α) (duration : α) : α :=
  let waiting := settings.transferTime
  let walking := duration - waiting
  (-walking) * settings.walkingUtility - waiting * settings.waitingUtility -
    settings.changingUtility

/-- The cost of a ride that takes some seconds. -/
def rideCost (settings : RouterSettings α) (link : Graph.Link α)
    (duration : α) : α :=
  (-duration) * settings.ridingTimeUtility -
    link.length * settings.ridingDistanceUtility

/-- What a link costs that takes some seconds. -/
def costOf (settings : RouterSettings α) (link : Graph.Link α)
    (duration : α) : α :=
  match link.stretch with
  | some _ => rideCost settings link duration
  | none => transferCost settings duration

/-- The stops at the ends of a stretch, if the timetable has them. -/
def ends? (timetable : Timetable α) (stretch : Stretch) :
    Option (Timetable.Stop α × Timetable.Stop α) := do
  let origin ← timetable.stop? stretch.route stretch.fromStop
  let destination ← timetable.stop? stretch.route stretch.toStop
  pure (origin, destination)

/-- Whether a link is a transfer or a stretch of the timetable. -/
def prices (timetable : Timetable α) (link : Graph.Link α) : Bool :=
  match link.stretch with
  | some stretch => (ends? timetable stretch).isSome
  | none => true

/-- The seconds that a link takes when entered at a time, given the sorted
departures of every route.  A stretch that is not in the timetable cannot be
travelled. -/
def travelTime (timetable : Timetable α) (departures : Nat → List α)
    (settings : RouterSettings α) (link : Graph.Link α) (time : α) : α :=
  match link.stretch with
  | none => transferTime settings link
  | some stretch =>
    match ends? timetable stretch with
    | none => Scalar.infinity
    | some (origin, destination) =>
      Timetable.rideTime (departures stretch.route) origin.offsets.departure
        destination.offsets.arrival time

/-- The least cost of a link: without waiting, and with no less than no time
in the vehicle. -/
def minimumCost (timetable : Timetable α) (settings : RouterSettings α)
    (link : Graph.Link α) : α :=
  match link.stretch with
  | none => transferCost settings (transferTime settings link)
  | some stretch =>
    match ends? timetable stretch with
    | none => Scalar.infinity
    | some (origin, destination) =>
      rideCost settings link
        (Scalar.larger (destination.offsets.arrival - origin.offsets.departure) 0)

/-- The sorted departures of every route of a timetable. -/
def allDepartures (timetable : Timetable α) : Array (List α) :=
  timetable.routes.map (·.sortedDepartures)

/-- The cost model of a timetable. -/
def costModel (timetable : Timetable α) (settings : RouterSettings α) :
    CostModel α :=
  let sorted := allDepartures timetable
  let duration := travelTime timetable (fun route => sorted.getD route []) settings
  { travelTime := duration
    disutility := fun link time => costOf settings link (duration link time)
    minimum := minimumCost timetable settings
    prices := prices timetable }

end JourneyTimes.Transit
