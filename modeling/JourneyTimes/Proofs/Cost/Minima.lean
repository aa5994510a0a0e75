import JourneyTimes.Proofs.Cost.Transit
import JourneyTimes.Proofs.Search.GuidedPath

/-!
# Minima of transit costs

The least cost of a ride is that of the time between its two stops, or of no time if the
vehicle seems to arrive before it leaves.  A ride takes no less, since nobody boards a
vehicle that is gone.  Longer rides cost more, and transfers always cost the same, so no
link of a transit network costs less than its minimum.
-/

namespace JourneyTimes

variable {K : Type} [Field K] [LinearOrder K] [FloorRing K] [Trigonometry K]

theorem Exact.larger_finite (left right : K) :
    Scalar.larger (left : Exact K) right = ↑(max left right) := by
  change (if (left : Exact K) < right then (right : Exact K) else left) = _
  split_ifs with less
  · rw [max_eq_right (Exact.finite_lt_finite.mp less).le]
  · rw [Exact.finite_lt_finite, not_lt] at less
    rw [max_eq_left less]

namespace Transit

variable [IsStrictOrderedRing K] {timetable : Timetable (Exact K)}
  {settings : RouterSettings (Exact K)} {link : Graph.Link (Exact K)}

/-- Longer rides cost more. -/
theorem rideCost_mono (charges : settings.ChargesRides) {length : K}
    (lengthEq : link.length = length) {less more : K} (le : less ≤ more) :
    rideCost settings link less ≤ rideCost settings link more := by
  rcases charges.ridingTime with ⟨time, timeLe, timeEq⟩
  rcases charges.ridingDistance with ⟨distance, distanceEq⟩
  have byTime := mul_le_mul_of_nonpos_right (neg_le_neg le) timeLe
  rw [rideCost, rideCost, timeEq, distanceEq, lengthEq]
  simpa using byTime

omit [IsStrictOrderedRing K] in
/-- The minimum of a stretch between two stops. -/
theorem minimum_stretch (settings : RouterSettings (Exact K)) {stretch : Stretch}
    (isRide : link.stretch = some stretch) {origin destination : Timetable.Stop (Exact K)}
    (ends : ends? timetable stretch = some (origin, destination)) {departure arrival : K}
    (departureEq : origin.offsets.departure = departure)
    (arrivalEq : destination.offsets.arrival = arrival) :
    (costModel timetable settings).minimum link =
      rideCost settings link (max (arrival - departure) 0 : K) := by
  change minimumCost timetable settings link = _
  rw [minimumCost, isRide]
  dsimp only
  rw [ends]
  dsimp only
  rw [departureEq, arrivalEq, Exact.finite_sub_finite, Exact.zero_eq, Exact.larger_finite]

/-- A transfer takes a number of seconds, and costs its minimum. -/
theorem transfer_minimum (timetable : Timetable (Exact K)) (charges : settings.ChargesRides)
    (isTransfer : link.stretch = none) {length : K} (lengthEq : link.length = length)
    (lengthNonneg : 0 ≤ length) (time : Exact K) :
    ∃ duration price : K, 0 ≤ duration ∧
      (costModel timetable settings).travelTime link time = duration ∧
      (costModel timetable settings).minimum link = price ∧
      (costModel timetable settings).disutility link time = price := by
  rcases transferTime_finite charges lengthEq lengthNonneg with
    ⟨walk, pause, walkNonneg, pauseNonneg, pauseEq, takes⟩
  rcases charges.walking with ⟨walking, walkingEq⟩
  rcases charges.waiting with ⟨waiting, waitingEq⟩
  rcases charges.changing with ⟨changing, changingEq⟩
  have price := transferCost_eq walk pauseEq walkingEq waitingEq changingEq
  refine ⟨walk + pause, -walk * walking - pause * waiting - changing,
    add_nonneg walkNonneg pauseNonneg, ?_, ?_, ?_⟩
  · simpa [costModel, travelTime, isTransfer] using takes
  · simpa [costModel, minimumCost, isTransfer, takes] using price
  · simpa [costModel, costOf, travelTime, isTransfer, takes] using price

/-- A ride that takes some seconds costs no less than the minimum of its stretch. -/
theorem ride_minimum_le (charges : settings.ChargesRides) {stretch : Stretch}
    (isRide : link.stretch = some stretch) {origin destination : Timetable.Stop (Exact K)}
    (ends : ends? timetable stretch = some (origin, destination)) {departure arrival : K}
    (departureEq : origin.offsets.departure = departure)
    (arrivalEq : destination.offsets.arrival = arrival) {length : K}
    (lengthEq : link.length = length) {duration : K} (atLeast : arrival - departure ≤ duration)
    (nonneg : 0 ≤ duration) :
    (costModel timetable settings).minimum link ≤ rideCost settings link duration := by
  rw [minimum_stretch settings isRide ends departureEq arrivalEq]
  exact rideCost_mono charges lengthEq (max_le atLeast nonneg)

/-- No link of a transit network costs less than its minimum. -/
theorem costModel_respectsMinima (penalises : settings.Penalises)
    (finite : timetable.HasFiniteTimes) {graph : Graph (Exact K)}
    (lengths : ∀ link ∈ graph.links, ∃ length : K, 0 ≤ length ∧ link.length = length)
    (forward : RunsForward timetable graph) :
    (costModel timetable settings).RespectsMinima graph := by
  constructor
  case minima =>
    intro link member
    rcases lengths link member with ⟨length, lengthNonneg, lengthEq⟩
    cases stretchEq : link.stretch with
    | none =>
        rcases transferCost_nonneg penalises lengthEq lengthNonneg with ⟨price, nonneg, priceEq⟩
        have least : (costModel timetable settings).minimum link = price := by
          simpa [costModel, minimumCost, stretchEq] using priceEq
        rw [least]
        exact Exact.finite_nonneg.mpr nonneg
    | some stretch =>
        cases endsEq : ends? timetable stretch with
        | none =>
            have least : (costModel timetable settings).minimum link = .infinity := by
              simp [costModel, minimumCost, stretchEq, endsEq, Exact.infinity_eq]
            rw [least]
            exact Exact.nonneg_iff.mpr (.inl rfl)
        | some pair =>
            rcases ends?_finite finite endsEq with ⟨departure, arrival, departureEq, arrivalEq⟩
            rcases rideCost_nonneg penalises lengthEq lengthNonneg
                (le_max_right (arrival - departure) 0) with
              ⟨price, nonneg, priceEq⟩
            rw [minimum_stretch settings stretchEq endsEq departureEq arrivalEq, priceEq]
            exact Exact.finite_nonneg.mpr nonneg
  case le =>
    intro link member time usable
    rcases lengths link member with ⟨length, lengthNonneg, lengthEq⟩
    cases stretchEq : link.stretch with
    | none =>
        rcases transfer_minimum timetable penalises.chargesRides stretchEq lengthEq lengthNonneg
            (time : Exact K) with
          ⟨-, price, -, -, least, costs⟩
        rw [least, costs]
        exact Exact.finite_le_finite.mpr le_rfl
    | some stretch =>
        rcases exists_ride finite stretchEq usable with
          ⟨origin, destination, endsEq, departure, arrival, duration, departureEq, arrivalEq,
            price, atLeast, nonneg⟩
        have order := forward link member stretch stretchEq origin destination endsEq departure
          arrival departureEq arrivalEq
        rw [price]
        exact ride_minimum_le penalises.chargesRides stretchEq endsEq departureEq arrivalEq
          lengthEq atLeast (nonneg order)

/-- A link takes no negative time and, whenever it can be used, costs no less than its minimum,
whatever is paid for anything but time in a vehicle.  It takes forever exactly if it is a
stretch of a route without departures. -/
theorem costModel_minimum_le (charges : settings.ChargesRides)
    (finite : timetable.HasFiniteTimes) (priced : prices timetable link = true) {length : K}
    (lengthEq : link.length = length) (walks : link.stretch = none → 0 ≤ length)
    (forward : ∀ stretch origin destination, link.stretch = some stretch →
      ends? timetable stretch = some (origin, destination) →
        origin.offsets.departure ≤ destination.offsets.arrival + Timetable.day) (time : K) :
    0 ≤ (costModel timetable settings).travelTime link time ∧
      ((costModel timetable settings).travelTime link time = .infinity ↔
        ∃ stretch route, link.stretch = some stretch ∧
          timetable.routes[stretch.route]? = some route ∧ route.departures = []) ∧
      (Scalar.isFinite ((costModel timetable settings).travelTime link time) = true →
        (costModel timetable settings).minimum link ≤
          (costModel timetable settings).disutility link time) := by
  cases stretchEq : link.stretch with
  | none =>
      rcases transfer_minimum timetable charges stretchEq lengthEq (walks stretchEq)
          (time : Exact K) with
        ⟨duration, price, nonneg, takes, least, costs⟩
      rw [takes, least, costs]
      exact ⟨Exact.finite_nonneg.mpr nonneg, by simp, fun _ => Exact.finite_le_finite.mpr le_rfl⟩
  | some stretch =>
      rcases Option.isSome_iff_exists.mp (by simpa [prices, stretchEq] using priced) with
        ⟨⟨origin, destination⟩, endsEq⟩
      rcases ends?_finite finite endsEq with ⟨departure, arrival, departureEq, arrivalEq⟩
      rcases ends?_route endsEq with ⟨route, routeFound⟩
      have noneLeaves : (∃ other item, some stretch = some other ∧
          timetable.routes[other.route]? = some item ∧ item.departures = []) ↔
          departuresOf timetable stretch.route = [] := by
        simp [departuresOf_eq_nil_iff routeFound, routeFound]
      rw [noneLeaves]
      rcases
          travelTime_stretch_cases settings finite stretchEq endsEq departureEq arrivalEq time with
        ⟨none, never⟩ | ⟨some, duration, takes, atLeast, nonneg⟩
      · rw [never]
        refine ⟨Exact.nonneg_iff.mpr (.inl rfl), iff_of_true rfl none, ?_⟩
        intro usable
        cases usable
      · have order := forward stretch origin destination stretchEq endsEq
        rw [departureEq, arrivalEq, Timetable.day_eq, Exact.finite_add_finite,
          Exact.finite_le_finite] at order
        have costs : (costModel timetable settings).disutility link time =
            rideCost settings link duration := by
          rw [← takes]
          simp [costModel, costOf, stretchEq]
        rw [costs, takes]
        refine ⟨Exact.finite_nonneg.mpr (nonneg order), iff_of_false (by simp) some, fun _ => ?_⟩
        exact ride_minimum_le charges stretchEq endsEq departureEq arrivalEq lengthEq atLeast
          (nonneg order)

/-- A ride over midnight, whose arrival seems to come long before its departure. -/
def overnightRide : Graph.Link (Exact ℚ) where
  index := 0
  id := "pq"
  origin := 0
  destination := 1
  length := (1000 : ℚ)
  freeSpeed := .infinity
  stretch := some ⟨0, 0, 1⟩

/-- A line that leaves its first stop in the evening and is at its second one in the early
morning. -/
def overnightLine : Timetable (Exact ℚ) :=
  Timetable.empty.addRouteUnchecked
    { line := "N"
      id := "n"
      mode := "bus"
      stops := [⟨"p", .departureOnly (80000 : ℚ)⟩, ⟨"q", .arrivalOnly (3600 : ℚ)⟩]
      departures := [⟨"a", (30000 : ℚ), none⟩] }

/-- The view is worth more than the time in the vehicle, and walks are worth something. -/
def scenic : RouterSettings (Exact ℚ) where
  walkSpeed := (1 : ℚ)
  beelineFactor := (1 : ℚ)
  transferRadius := (100 : ℚ)
  transferTime := (0 : ℚ)
  ridingTimeUtility := (-1 / 100 : ℚ)
  ridingDistanceUtility := (1 : ℚ)
  walkingUtility := (2 : ℚ)
  waitingUtility := (-1 : ℚ)
  changingUtility := (0 : ℚ)

theorem scenic_chargesRides : scenic.ChargesRides where
  walkSpeed := ⟨1, by norm_num, rfl⟩
  beelineFactor := ⟨1, by norm_num, rfl⟩
  transferTime := ⟨0, le_rfl, rfl⟩
  ridingTime := ⟨-1 / 100, by norm_num, rfl⟩
  ridingDistance := ⟨1, rfl⟩
  walking := ⟨2, rfl⟩
  waiting := ⟨-1, rfl⟩
  changing := ⟨0, rfl⟩

/-- The vehicle leaves after midnight and arrives before it would, so the ride takes part of a
day, and it costs more than no time in the vehicle would. -/
theorem costModel_minimum_le_overnight :
    let model := costModel overnightLine scenic
    0 ≤ model.travelTime overnightRide (90000 : ℚ) ∧
      model.travelTime overnightRide (90000 : ℚ) = (30000 : ℚ) ∧
      model.minimum overnightRide = (-1000 : ℚ) ∧
      model.disutility overnightRide (90000 : ℚ) = (-700 : ℚ) ∧
      model.minimum overnightRide ≤ model.disutility overnightRide (90000 : ℚ) := by
  intro model
  have finite : overnightLine.HasFiniteTimes := by
    apply Timetable.HasFiniteTimes.of_routes
    decide +kernel
  have ends : ends? overnightLine ⟨0, 0, 1⟩ =
      some (⟨"p", .departureOnly (80000 : ℚ)⟩, ⟨"q", .arrivalOnly (3600 : ℚ)⟩) := rfl
  have departs : departuresOf overnightLine 0 = [((30000 : ℚ) : Exact ℚ)] := by
    simp [departuresOf, allDepartures, overnightLine, Timetable.empty,
      Timetable.addRouteUnchecked, Timetable.Route.sortedDepartures, Timetable.sortTimes]
  have takes : model.travelTime overnightRide (90000 : ℚ) = (30000 : ℚ) := by
    rw [travelTime_stretch scenic rfl ends, departs]
    decide +kernel
  have costs : model.disutility overnightRide (90000 : ℚ) = (-700 : ℚ) := by
    change rideCost scenic overnightRide (model.travelTime overnightRide (90000 : ℚ)) = _
    rw [takes]
    decide +kernel
  have isRide : overnightRide.stretch ≠ none := by decide
  have forward (stretch : Stretch) (origin destination : Timetable.Stop (Exact ℚ))
      (same : overnightRide.stretch = some stretch)
      (found : ends? overnightLine stretch = some (origin, destination)) :
      origin.offsets.departure ≤ destination.offsets.arrival + Timetable.day := by
    obtain rfl : ⟨0, 0, 1⟩ = stretch := Option.some.inj same
    rw [ends] at found
    cases found
    decide +kernel
  rcases costModel_minimum_le scenic_chargesRides finite (by decide) rfl
      (fun isTransfer => absurd isTransfer isRide) forward 90000 with
    ⟨nonneg, -, atLeast⟩
  refine ⟨nonneg, takes, by decide +kernel, costs, atLeast ?_⟩
  change Scalar.isFinite (model.travelTime overnightRide (90000 : ℚ)) = true
  rw [takes]
  rfl

end Transit

end JourneyTimes
