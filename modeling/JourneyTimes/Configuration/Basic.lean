import JourneyTimes.Landmarks.Selection
import JourneyTimes.Network.Grid
import JourneyTimes.RouterSettings

/-!
# Configurations

A configuration says what a run computes: where the links come from, which
zones and pairs of nodes are asked for, when journeys depart, and where the
results go.
-/

namespace JourneyTimes

/-- The files of a dataset, by their paths, and the mode whose links count. -/
structure Dataset where
  network : Option String
  timetable : Option String
  mode : Option String
deriving Repr, DecidableEq

/-- Where the links of a run come from. -/
inductive Source (α : Type) where
  | grid (plan : Network.GridPlan α)
  | dataset (files : Dataset)
deriving Repr

/-- What a run computes. -/
structure Configuration (α : Type) where
  source : Source α
  /-- The path of the table of zones; without one every node is a zone. -/
  zones : Option String
  /-- The path of the table of pairs of nodes. -/
  pairs : Option String
  /-- The path of the folder for the results. -/
  output : String
  departure : α
  workers : Nat
  /-- How far around every node times are listed, in metres. -/
  maxDistance : Option α
  landmarks : Nat
  selection : Selection
  router : RouterSettings α
deriving Repr

end JourneyTimes
