import JourneyTimes.Graph.Basic

/-!
# Cost models

A cost model says how long it takes to travel along a link, and what that is
worth to the traveller.  Both may depend on when the link is entered.  Lower
is better; a link with an infinite travel time cannot be used.

A model also gives a lower bound on the cost of every link over all times,
and says which links it can price at all: a link may stand for a stretch of a
timetable other than the one the model knows.
-/

namespace JourneyTimes

/-- How links are priced. -/
structure CostModel (α : Type) where
  /-- The seconds that a link takes when entered at a time. -/
  travelTime : Graph.Link α → α → α
  /-- The cost of a link when entered at a time. -/
  disutility : Graph.Link α → α → α
  /-- A lower bound on the cost of a link, whenever it is entered. -/
  minimum : Graph.Link α → α
  /-- Whether the model knows the link. -/
  prices : Graph.Link α → Bool := fun _ => true

namespace CostModel

variable {α : Type} [Scalar α]

/-- Driving without delay: a link takes its length divided by its free speed,
and the cost is that time. -/
def freeSpeed : CostModel α where
  travelTime link _ := link.length / link.freeSpeed
  disutility link _ := link.length / link.freeSpeed
  minimum link := link.length / link.freeSpeed

end CostModel

end JourneyTimes
