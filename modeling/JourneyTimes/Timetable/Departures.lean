import JourneyTimes.Scalar
import JourneyTimes.Timetable.Basic

/-!
# Departures

Vehicles leave the first stop of a route at the same times every day.  This
module finds the next departure from any stop of a route, given when vehicles
leave the first one and how long they take to the stop.

The question is put to the first stop: a traveller who is at the stop at some
time looks for a vehicle that left the first stop no earlier than that time
less the offset of the stop.  Times beyond one day are folded into a day, and
the departure that is found is moved on by whole days until it is not in the
past.
-/

namespace JourneyTimes.Timetable

variable {α : Type} [Scalar α]

/-- The seconds of a day. -/
def day : α := Scalar.ofNat (24 * 3600)

/-- Departure times from the earliest to the latest. -/
def sortTimes (times : List α) : List α :=
  times.mergeSort fun left right => !decide (right < left)

/-- When vehicles leave the first stop of a route, from early to late. -/
def Route.sortedDepartures (route : Route α) : List α :=
  sortTimes (route.departures.map (·.time))

/-- A time at the first stop, folded into a day unless it is before the end of
the first one. -/
def fold (time : α) : α :=
  if day ≤ time then Scalar.remainder time day else time

/-- The first departure at or after a time of the day, or else the first one
of the next day.  There is none if the route never departs. -/
def firstFrom? (departures : List α) (time : α) : Option α :=
  match departures.find? fun departure => !decide (departure < time) with
  | some departure => some departure
  | none => departures.head?

/-- Move a departure on by whole days until it is no longer before a time;
`fuel` bounds the number of days. -/
def addDays (time : α) : Nat → α → α
  | 0, departure => departure
  | fuel + 1, departure =>
    if departure < time then addDays time fuel (departure + day) else departure

/-- A bound on the number of days from a departure to a time. -/
def daysBetween (departure time : α) : Nat :=
  Scalar.wholePart ((time - departure) / day) + 2

/-- The next departure at or after a time from a stop with an offset, given
the sorted departures from the first stop.  It is infinite if the route never
departs.  A stop that no vehicle of the day reaches by the time gets the first
departure after midnight. -/
def nextDeparture (departures : List α) (offset time : α) : α :=
  match firstFrom? departures (fold (time - offset)) with
  | none => Scalar.infinity
  | some departure =>
    let candidate := departure + offset
    addDays time (daysBetween candidate time) candidate

/-- The time from being at a stop until arriving at a later one: waiting for
the next departure, and riding.  Arriving before having been there means that
the departure is after midnight, a day later. -/
def rideTime (departures : List α) (departureOffset arrivalOffset time : α) :
    α :=
  let departure := nextDeparture departures departureOffset time
  let duration := (departure - time) + (arrivalOffset - departureOffset)
  if duration < 0 then duration + day else duration

end JourneyTimes.Timetable
