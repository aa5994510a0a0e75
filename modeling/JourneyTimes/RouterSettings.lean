import JourneyTimes.Geometry.Point

/-!
# Settings of the transit router

How fast people walk, how far they walk to change vehicles, and what riding,
walking, waiting and changing are worth.  Utilities follow the convention of
scoring: bad things have negative utility, so a cost is a time or a distance
multiplied by a negated utility.
-/

namespace JourneyTimes

/-- The settings of the transit router. -/
structure RouterSettings (α : Type) where
  /-- Metres walked per second. -/
  walkSpeed : α
  /-- How much longer a walk is than the straight line. -/
  beelineFactor : α
  /-- The greatest distance in metres between stops to change at. -/
  transferRadius : α
  /-- Seconds that every change takes in addition to the walk. -/
  transferTime : α
  /-- Utility of a second in a vehicle. -/
  ridingTimeUtility : α
  /-- Utility of a metre in a vehicle. -/
  ridingDistanceUtility : α
  /-- Utility of a second of walking. -/
  walkingUtility : α
  /-- Utility of a second of waiting for a change. -/
  waitingUtility : α
  /-- Utility of changing to another line. -/
  changingUtility : α
deriving Repr, DecidableEq

namespace RouterSettings

variable {α : Type} [Scalar α]

/-- The settings of a run that asks for nothing else. -/
def default : RouterSettings α :=
  { walkSpeed := Scalar.ofNat 3 / Scalar.ratio 36 10
    beelineFactor := Scalar.ratio 13 10
    transferRadius := Scalar.ofNat 100
    transferTime := 0
    ridingTimeUtility := -(Scalar.ratio 6 3600)
    ridingDistanceUtility := 0
    walkingUtility := -(Scalar.ratio 12 3600)
    waitingUtility := -(Scalar.ratio 6 3600)
    changingUtility := -(Scalar.ofNat 1) }

/-- One named setting: where it is kept. -/
structure Entry (α : Type) where
  /-- The name of the setting in a configuration. -/
  key : String
  /-- The value that settings have for it. -/
  value : RouterSettings α → α
  /-- The settings with another value for it. -/
  put : RouterSettings α → α → RouterSettings α

/-- All settings, in the order in which a configuration is searched for them. -/
def entries : List (Entry α) :=
  [⟨"walk_speed_mps", walkSpeed, fun settings value => { settings with walkSpeed := value }⟩,
    ⟨"beeline_dist_factor", beelineFactor,
      fun settings value => { settings with beelineFactor := value }⟩,
    ⟨"transfer_radius_m", transferRadius,
      fun settings value => { settings with transferRadius := value }⟩,
    ⟨"additional_transfer_time_s", transferTime,
      fun settings value => { settings with transferTime := value }⟩,
    ⟨"marginal_utility_travel_time_pt_utl_s", ridingTimeUtility,
      fun settings value => { settings with ridingTimeUtility := value }⟩,
    ⟨"marginal_utility_travel_distance_pt_utl_m", ridingDistanceUtility,
      fun settings value => { settings with ridingDistanceUtility := value }⟩,
    ⟨"marginal_utility_travel_time_walk_utl_s", walkingUtility,
      fun settings value => { settings with walkingUtility := value }⟩,
    ⟨"marginal_utility_waiting_utl_s", waitingUtility,
      fun settings value => { settings with waitingUtility := value }⟩,
    ⟨"utility_of_line_switch_utl", changingUtility,
      fun settings value => { settings with changingUtility := value }⟩]

/-- Metres of straight line walked per second. -/
def beelineWalkSpeed (settings : RouterSettings α) : α :=
  settings.walkSpeed / settings.beelineFactor

/-- The seconds it takes to walk a straight-line distance. -/
def walkTimeOver (settings : RouterSettings α) (distance : α) : α :=
  distance / settings.beelineWalkSpeed

/-- The seconds it takes to walk from one point to another. -/
def walkTime (settings : RouterSettings α) (origin destination : Point α) : α :=
  settings.walkTimeOver (origin.distance destination)

end RouterSettings

end JourneyTimes
