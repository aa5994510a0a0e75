import JourneyTimes.Proofs.Cost.Readers
import JourneyTimes.Proofs.Cost.Transit
import JourneyTimes.Proofs.Timetable.Overnight

/-!
# Boarding in order

A search drops whoever comes to a stop later than someone else and has paid no less.
That is right where boarding keeps the order in which people come.  A link of a route
does so exactly if the route joins the next day, which the reader of timetables does
not check.
-/

namespace JourneyTimes

variable {K : Type} [Field K] [LinearOrder K] [FloorRing K] [Trigonometry K]

/-- People leave a link in the order in which they enter it. -/
def CostModel.KeepsOrder (cost : CostModel (Exact K)) (link : Graph.Link (Exact K)) : Prop :=
  ∀ early late : K, early ≤ late →
    (early : Exact K) + cost.travelTime link early ≤ (late : Exact K) + cost.travelTime link late

namespace Transit

variable {timetable : Timetable (Exact K)}

theorem departuresOf_eq {number : Nat} {route : Timetable.Route (Exact K)}
    (found : timetable.routes[number]? = some route) :
    departuresOf timetable number = route.sortedDepartures := by
  rw [departuresOf, allDepartures, Array.getD_eq_getD_getElem?, Array.getElem?_map, found]
  rfl

theorem sortedDepartures_finite {route : Timetable.Route (Exact K)}
    (fromMidnight : route.DepartsFromMidnight) :
    Timetable.HasFiniteDepartures route.sortedDepartures := by
  rcases Timetable.Route.exists_clocks fromMidnight.finite with ⟨clocks, sortedEq, -⟩
  rw [sortedEq]
  intro departure member
  rcases List.mem_map.mp member with ⟨clock, -, rfl⟩
  exact ⟨clock, rfl⟩

variable [IsStrictOrderedRing K]

/-- People leave a link of a route in the order in which they enter it, and the stop at
its origin in the order in which they come there, exactly if the route joins the next
day. -/
theorem costModel_keepsOrder_iff {link : Graph.Link (Exact K)} {stretch : Stretch}
    (isRide : link.stretch = some stretch) {origin destination : Timetable.Stop (Exact K)}
    (ends : ends? timetable stretch = some (origin, destination))
    {route : Timetable.Route (Exact K)}
    (found : timetable.routes[stretch.route]? = some route)
    (fromMidnight : route.DepartsFromMidnight) {departure arrival : K}
    (departureEq : origin.offsets.departure = departure)
    (arrivalEq : destination.offsets.arrival = arrival) (forward : departure ≤ arrival)
    (settings : RouterSettings (Exact K)) :
    ((costModel timetable settings).KeepsOrder link ↔ route.JoinsNextDay) ∧
      (route.LeavesInOrder departure ↔ route.JoinsNextDay) := by
  have atStop := fromMidnight.leavesInOrder_iff departure
  have finite := sortedDepartures_finite fromMidnight
  refine ⟨?_, atStop⟩
  rw [← atStop]
  refine forall₃_congr fun early late _ => ?_
  rw [travelTime_stretch settings isRide ends, travelTime_stretch settings isRide ends,
    departureEq, arrivalEq, departuresOf_eq found, Timetable.add_rideTime finite forward,
    Timetable.add_rideTime finite forward]
  by_cases none : route.sortedDepartures = []
  · rw [none, Timetable.nextDeparture_nil, Timetable.nextDeparture_nil]
    exact Iff.rfl
  · rcases Timetable.nextDeparture_finite finite none departure (early : Exact K) with
      ⟨first, firstEq⟩
    rcases Timetable.nextDeparture_finite finite none departure (late : Exact K) with
      ⟨second, secondEq⟩
    rw [firstEq, secondEq, Exact.finite_add_finite, Exact.finite_add_finite,
      Exact.finite_le_finite, Exact.finite_le_finite, add_le_add_iff_right]

/-- A line of two stops that leaves at these times. -/
def lateLine (departures : List ℚ) : Timetable.Route (Exact ℚ) where
  line := "L"
  id := "l"
  mode := "bus"
  stops := [⟨"p", .departureOnly (0 : ℚ)⟩, ⟨"q", .arrivalOnly (100 : ℚ)⟩]
  departures := departures.map fun clock : ℚ => ⟨"d", (clock : Exact ℚ), none⟩

/-- The timetable of the line. -/
def lateTimetable (departures : List ℚ) : Timetable (Exact ℚ) :=
  Timetable.empty.addRouteUnchecked (lateLine departures)

/-- The link between the stops of the line. -/
def lateLink : Graph.Link (Exact ℚ) :=
  ⟨0, "L/l/0>L/l/1", 0, 1, (1000 : ℚ), .infinity, some ⟨0, 0, 1⟩⟩

theorem lateLine_departs {departures : List ℚ} {clock : ℚ} :
    (lateLine departures).Departs clock ↔ clock ∈ departures := by
  simp [lateLine, Timetable.Route.Departs]

theorem lateLine_fromMidnight {departures : List ℚ} (nonneg : ∀ clock ∈ departures, 0 ≤ clock) :
    (lateLine departures).DepartsFromMidnight := by
  intro departure member
  rcases List.mem_map.mp member with ⟨clock, clockMember, rfl⟩
  exact ⟨clock, nonneg clock clockMember, rfl⟩

/-- A vehicle five minutes after midnight that is listed at 24:05, before the first one
of the next day at 0:10, keeps everybody in order. -/
theorem costModel_keepsOrder_lateLine :
    (costModel (lateTimetable [600, 85800, 86700]) .default).KeepsOrder lateLink ∧
      (lateLine [600, 85800, 86700]).LeavesInOrder 0 := by
  have joins : (lateLine [600, 85800, 86700]).JoinsNextDay := by
    intro first after isLeast afterLeast
    have known := lateLine_departs.mp isLeast.1
    have atMost : after ≤ 86700 := afterLeast.2 ⟨lateLine_departs.mpr (by simp), by norm_num⟩
    simp at known ⊢
    rcases known with rfl | rfl | rfl <;> linarith
  have isRide : lateLink.stretch = some ⟨0, 0, 1⟩ := rfl
  have found : (lateTimetable [600, 85800, 86700]).routes[0]? =
      some (lateLine [600, 85800, 86700]) := rfl
  have settled := costModel_keepsOrder_iff isRide rfl found (lateLine_fromMidnight (by norm_num))
    rfl rfl (show (0 : ℚ) ≤ 100 by norm_num) .default
  exact ⟨settled.1.mpr joins, settled.2.mpr joins⟩

/-- A vehicle that is listed at 25:00, after the first one of the next day at 0:10, does
not: whoever comes in the evening has to wait for it, and whoever comes at midnight
arrives fifty minutes earlier. -/
theorem costModel_lateLine_not_keepsOrder :
    (lateLine [600, 90000]).DepartsFromMidnight ∧
      (costModel (lateTimetable [600, 90000]) .default).travelTime lateLink (80000 : ℚ) =
        (10100 : ℚ) ∧
      (costModel (lateTimetable [600, 90000]) .default).travelTime lateLink (86400 : ℚ) =
        (700 : ℚ) ∧
      ¬ (costModel (lateTimetable [600, 90000]) .default).KeepsOrder lateLink := by
  have sorted : departuresOf (lateTimetable [600, 90000]) 0 =
      [((600 : ℚ) : Exact ℚ), ((90000 : ℚ) : Exact ℚ)] := by
    rw [departuresOf_eq rfl]
    apply List.mergeSort_of_pairwise
    decide +kernel
  have takes (time : Exact ℚ) :
      (costModel (lateTimetable [600, 90000]) .default).travelTime lateLink time =
        Timetable.rideTime [((600 : ℚ) : Exact ℚ), ((90000 : ℚ) : Exact ℚ)] (0 : ℚ) (100 : ℚ)
          time := by
    have isRide : lateLink.stretch = some ⟨0, 0, 1⟩ := rfl
    rw [travelTime_stretch .default isRide rfl, sorted]
    rfl
  have evening : Timetable.rideTime [((600 : ℚ) : Exact ℚ), ((90000 : ℚ) : Exact ℚ)] (0 : ℚ)
      (100 : ℚ) (80000 : ℚ) = (10100 : ℚ) := by
    decide +kernel
  have midnight : Timetable.rideTime [((600 : ℚ) : Exact ℚ), ((90000 : ℚ) : Exact ℚ)] (0 : ℚ)
      (100 : ℚ) (86400 : ℚ) = (700 : ℚ) := by
    decide +kernel
  refine ⟨lateLine_fromMidnight (by norm_num), (takes _).trans evening, (takes _).trans midnight,
    ?_⟩
  intro keeps
  have ordered := keeps 80000 86400 (by norm_num)
  rw [takes, takes, evening, midnight, Exact.finite_add_finite, Exact.finite_add_finite,
    Exact.finite_le_finite] at ordered
  norm_num at ordered

end Transit

end JourneyTimes
