import JourneyTimes.Cost.Transit
import JourneyTimes.Proofs.Search.LeastCost
import JourneyTimes.Proofs.Timetable.Departures

/-!
# What transit costs

Transfers take the same time and cost the same at any time of the day.  What a
ride takes depends on when the next vehicle leaves, but not whether it can be
taken at all.  If utilities are not positive, nobody walks a negative distance
and vehicles do not travel back in time, no link has a negative cost.
-/

namespace JourneyTimes

variable {K : Type} [Field K] [LinearOrder K] [FloorRing K] [Trigonometry K]

/-- The times of all stops and departures of a timetable are numbers. -/
structure Timetable.HasFiniteTimes (timetable : Timetable (Exact K)) : Prop where
  offsets : ∀ route position stop, timetable.stop? route position = some stop →
    ∃ arrival departure : K, stop.offsets.arrival = arrival ∧
      stop.offsets.departure = departure
  departures : ∀ route ∈ timetable.routes, ∀ departure ∈ route.departures,
    ∃ time : K, departure.time = time

theorem Timetable.HasFiniteTimes.of_routes {timetable : Timetable (Exact K)}
    (finite : ∀ route ∈ timetable.routes.toList,
      (∀ stop ∈ route.stops, Scalar.isFinite stop.offsets.arrival = true ∧
        Scalar.isFinite stop.offsets.departure = true) ∧
      ∀ departure ∈ route.departures, Scalar.isFinite departure.time = true) :
    timetable.HasFiniteTimes where
  offsets := by
    intro route position stop found
    rcases Option.bind_eq_some_iff.mp found with ⟨route, routeFound, stopFound⟩
    have known := (finite route (Array.mem_of_getElem? routeFound).val).1 stop
      (List.mem_of_getElem? stopFound)
    rcases Exact.isFinite_iff.mp known.1 with ⟨arrival, arrivalEq⟩
    rcases Exact.isFinite_iff.mp known.2 with ⟨departure, departureEq⟩
    exact ⟨arrival, departure, arrivalEq, departureEq⟩
  departures := by
    intro route member departure found
    exact Exact.isFinite_iff.mp ((finite route member.val).2 departure found)

/-- The settings are numbers.  People walk, they wait no negative time for a
change, and nothing has a positive utility. -/
structure RouterSettings.Penalises (settings : RouterSettings (Exact K)) : Prop where
  walkSpeed : ∃ speed : K, 0 < speed ∧ settings.walkSpeed = speed
  beelineFactor : ∃ factor : K, 0 < factor ∧ settings.beelineFactor = factor
  transferTime : ∃ duration : K, 0 ≤ duration ∧ settings.transferTime = duration
  ridingTime : ∃ utility : K, utility ≤ 0 ∧ settings.ridingTimeUtility = utility
  ridingDistance : ∃ utility : K, utility ≤ 0 ∧ settings.ridingDistanceUtility = utility
  walking : ∃ utility : K, utility ≤ 0 ∧ settings.walkingUtility = utility
  waiting : ∃ utility : K, utility ≤ 0 ∧ settings.waitingUtility = utility
  changing : ∃ utility : K, utility ≤ 0 ∧ settings.changingUtility = utility

/-- The settings are numbers.  People walk, they wait no negative time for a change, and
riding longer is not worth more.  Whatever else may be worth anything. -/
structure RouterSettings.ChargesRides (settings : RouterSettings (Exact K)) : Prop where
  walkSpeed : ∃ speed : K, 0 < speed ∧ settings.walkSpeed = speed
  beelineFactor : ∃ factor : K, 0 < factor ∧ settings.beelineFactor = factor
  transferTime : ∃ duration : K, 0 ≤ duration ∧ settings.transferTime = duration
  ridingTime : ∃ utility : K, utility ≤ 0 ∧ settings.ridingTimeUtility = utility
  ridingDistance : ∃ utility : K, settings.ridingDistanceUtility = utility
  walking : ∃ utility : K, settings.walkingUtility = utility
  waiting : ∃ utility : K, settings.waitingUtility = utility
  changing : ∃ utility : K, settings.changingUtility = utility

omit [FloorRing K] [Trigonometry K] in
theorem RouterSettings.Penalises.chargesRides {settings : RouterSettings (Exact K)}
    (penalises : settings.Penalises) : settings.ChargesRides where
  walkSpeed := penalises.walkSpeed
  beelineFactor := penalises.beelineFactor
  transferTime := penalises.transferTime
  ridingTime := penalises.ridingTime
  ridingDistance := penalises.ridingDistance.imp fun _ => And.right
  walking := penalises.walking.imp fun _ => And.right
  waiting := penalises.waiting.imp fun _ => And.right
  changing := penalises.changing.imp fun _ => And.right

namespace Transit

variable {timetable : Timetable (Exact K)} {settings : RouterSettings (Exact K)}
  {link : Graph.Link (Exact K)}

/-- The departures that the cost model looks up for a route. -/
def departuresOf (timetable : Timetable (Exact K)) (route : Nat) : List (Exact K) :=
  (allDepartures timetable).getD route []

theorem departuresOf_finite (finite : timetable.HasFiniteTimes) (route : Nat) :
    Timetable.HasFiniteDepartures (departuresOf timetable route) := by
  intro departure member
  rw [departuresOf, allDepartures, Array.getD_eq_getD_getElem?, Array.getElem?_map] at member
  cases found : timetable.routes[route]? with
  | none => simp [found] at member
  | some item =>
      rw [found, Option.map_some, Option.getD_some, Timetable.Route.sortedDepartures,
        Timetable.sortTimes, List.mem_mergeSort, List.mem_map] at member
      rcases member with ⟨original, originalMember, rfl⟩
      exact finite.departures item (Array.mem_of_getElem? found) original originalMember

/-- A transfer is the same at any time. -/
theorem transfer_steady (isTransfer : link.stretch = none) (time other : Exact K) :
    (costModel timetable settings).travelTime link time =
        (costModel timetable settings).travelTime link other ∧
      (costModel timetable settings).disutility link time =
        (costModel timetable settings).disutility link other := by
  simp [costModel, travelTime, costOf, isTransfer]

/-- A stretch of the timetable takes as long as the ride between its ends. -/
theorem travelTime_stretch (settings : RouterSettings (Exact K)) {stretch : Stretch}
    (isRide : link.stretch = some stretch) {origin destination : Timetable.Stop (Exact K)}
    (ends : ends? timetable stretch = some (origin, destination)) (time : Exact K) :
    (costModel timetable settings).travelTime link time =
      Timetable.rideTime (departuresOf timetable stretch.route) origin.offsets.departure
        destination.offsets.arrival time := by
  simp [costModel, travelTime, isRide, ends, departuresOf]

omit [Field K] [LinearOrder K] [FloorRing K] [Trigonometry K] in
theorem ends?_finite (finite : timetable.HasFiniteTimes) {stretch : Stretch}
    {origin destination : Timetable.Stop (Exact K)}
    (ends : ends? timetable stretch = some (origin, destination)) :
    ∃ departure arrival : K, origin.offsets.departure = departure ∧
      destination.offsets.arrival = arrival := by
  unfold ends? at ends
  cases first : timetable.stop? stretch.route stretch.fromStop with
  | none => simp [first] at ends
  | some start =>
      cases second : timetable.stop? stretch.route stretch.toStop with
      | none => simp [first, second] at ends
      | some finish =>
          obtain ⟨rfl, rfl⟩ : start = origin ∧ finish = destination := by
            simpa [first, second] using ends
          rcases finite.offsets _ _ _ first with ⟨-, departure, -, departureEq⟩
          rcases finite.offsets _ _ _ second with ⟨arrival, -, arrivalEq, -⟩
          exact ⟨departure, arrival, departureEq, arrivalEq⟩

omit [Field K] [LinearOrder K] [FloorRing K] [Trigonometry K] in
theorem ends?_route {stretch : Stretch} {origin destination : Timetable.Stop (Exact K)}
    (ends : ends? timetable stretch = some (origin, destination)) :
    ∃ route, timetable.routes[stretch.route]? = some route := by
  rcases Option.bind_eq_some_iff.mp ends with ⟨start, first, -⟩
  rcases Option.bind_eq_some_iff.mp first with ⟨route, found, -⟩
  exact ⟨route, found⟩

/-- The cost model looks up no departures exactly for a route that has none. -/
theorem departuresOf_eq_nil_iff {number : Nat} {route : Timetable.Route (Exact K)}
    (found : timetable.routes[number]? = some route) :
    departuresOf timetable number = [] ↔ route.departures = [] := by
  rw [departuresOf, allDepartures, Array.getD_eq_getD_getElem?, Array.getElem?_map, found,
    Option.map_some, Option.getD_some, ← List.length_eq_zero_iff, Timetable.Route.sortedDepartures,
    Timetable.sortTimes, List.length_mergeSort, List.length_map, List.length_eq_zero_iff]

/-- Whether a link can be used does not depend on the time. -/
theorem costModel_isAlwaysOpen (finite : timetable.HasFiniteTimes) (graph : Graph (Exact K)) :
    (costModel timetable settings).IsAlwaysOpen graph := by
  intro link _ time other usable
  cases stretchEq : link.stretch with
  | none => rwa [(transfer_steady stretchEq (other : Exact K) time).1]
  | some stretch =>
      cases endsEq : ends? timetable stretch with
      | none => simp [costModel, travelTime, stretchEq, endsEq] at usable ⊢; exact usable
      | some pair =>
          rcases pair with ⟨origin, destination⟩
          rcases ends?_finite finite endsEq with ⟨departure, arrival, departureEq, arrivalEq⟩
          rw [travelTime_stretch settings stretchEq endsEq, departureEq, arrivalEq] at usable ⊢
          by_cases none : departuresOf timetable stretch.route = []
          · rw [none, Timetable.rideTime_nil] at usable
            cases usable
          · rcases
                Timetable.rideTime_finite (departuresOf_finite finite stretch.route) none departure
                  arrival other with
              ⟨duration, takes⟩
            rw [takes]
            rfl

/-! ## Prices -/

/-- No vehicle arrives at the end of a link more than a day before it leaves. -/
def RunsForward (timetable : Timetable (Exact K)) (graph : Graph (Exact K)) : Prop :=
  ∀ link ∈ graph.links, ∀ stretch, link.stretch = some stretch →
    ∀ origin destination, ends? timetable stretch = some (origin, destination) →
      ∀ departure arrival : K, origin.offsets.departure = departure →
        destination.offsets.arrival = arrival →
          departure ≤ arrival + Timetable.daySeconds K

variable [IsStrictOrderedRing K]

theorem rideCost_nonneg (penalises : settings.Penalises) {length duration : K}
    (lengthEq : link.length = length) (lengthNonneg : 0 ≤ length) (nonneg : 0 ≤ duration) :
    ∃ price : K, 0 ≤ price ∧ rideCost settings link duration = price := by
  rcases penalises.ridingTime with ⟨time, timeLe, timeEq⟩
  rcases penalises.ridingDistance with ⟨distance, distanceLe, distanceEq⟩
  refine ⟨-duration * time - length * distance, ?_, ?_⟩
  · have byTime := mul_nonneg_of_nonpos_of_nonpos (neg_nonpos.mpr nonneg) timeLe
    have byDistance := mul_nonpos_of_nonneg_of_nonpos lengthNonneg distanceLe
    linarith
  · rw [rideCost, timeEq, distanceEq, lengthEq]
    simp

/-- A transfer takes the time of a walk and of a pause. -/
theorem transferTime_finite (charges : settings.ChargesRides) {length : K}
    (lengthEq : link.length = length) (lengthNonneg : 0 ≤ length) :
    ∃ walk pause : K, 0 ≤ walk ∧ 0 ≤ pause ∧ settings.transferTime = pause ∧
      transferTime settings link = ↑(walk + pause) := by
  rcases charges.walkSpeed with ⟨speed, speedPos, speedEq⟩
  rcases charges.beelineFactor with ⟨factor, factorPos, factorEq⟩
  rcases charges.transferTime with ⟨pause, pauseNonneg, pauseEq⟩
  have walkNonneg : 0 ≤ length / (speed / factor) :=
    div_nonneg lengthNonneg (div_nonneg speedPos.le factorPos.le)
  refine ⟨length / (speed / factor), pause, walkNonneg, pauseNonneg, pauseEq, ?_⟩
  rw [transferTime, RouterSettings.walkTimeOver, RouterSettings.beelineWalkSpeed, speedEq,
    factorEq, pauseEq, lengthEq, Exact.finite_div_finite _ factorPos.ne',
    Exact.finite_div_finite _ (div_pos speedPos factorPos).ne', Exact.finite_add_finite]

omit [IsStrictOrderedRing K] in
/-- What a walk, a pause and a change are worth makes the price of a transfer. -/
theorem transferCost_eq (walk : K) {pause walking waiting changing : K}
    (pauseEq : settings.transferTime = pause) (walkingEq : settings.walkingUtility = walking)
    (waitingEq : settings.waitingUtility = waiting)
    (changingEq : settings.changingUtility = changing) :
    transferCost settings (walk + pause : K) =
      ↑(-walk * walking - pause * waiting - changing) := by
  rw [transferCost, pauseEq, walkingEq, waitingEq, changingEq]
  simp

theorem transferCost_nonneg (penalises : settings.Penalises) {length : K}
    (lengthEq : link.length = length) (lengthNonneg : 0 ≤ length) :
    ∃ price : K, 0 ≤ price ∧
      transferCost settings (transferTime settings link) = price := by
  rcases transferTime_finite penalises.chargesRides lengthEq lengthNonneg with
    ⟨walk, pause, walkNonneg, pauseNonneg, pauseEq, takes⟩
  rcases penalises.walking with ⟨walking, walkingLe, walkingEq⟩
  rcases penalises.waiting with ⟨waiting, waitingLe, waitingEq⟩
  rcases penalises.changing with ⟨changing, changingLe, changingEq⟩
  refine ⟨_, ?_, by rw [takes, transferCost_eq walk pauseEq walkingEq waitingEq changingEq]⟩
  have byWalking := mul_nonneg_of_nonpos_of_nonpos (neg_nonpos.mpr walkNonneg) walkingLe
  have byWaiting := mul_nonpos_of_nonneg_of_nonpos pauseNonneg waitingLe
  linarith

/-- A stretch whose route has departures can be ridden at any time, and one whose route has
none never can.  A ride takes no less than the time between its two stops, and no negative
time unless it arrives more than a day before it leaves. -/
theorem travelTime_stretch_cases (settings : RouterSettings (Exact K))
    (finite : timetable.HasFiniteTimes) {stretch : Stretch}
    (isRide : link.stretch = some stretch) {origin destination : Timetable.Stop (Exact K)}
    (ends : ends? timetable stretch = some (origin, destination)) {departure arrival : K}
    (departureEq : origin.offsets.departure = departure)
    (arrivalEq : destination.offsets.arrival = arrival) (time : K) :
    departuresOf timetable stretch.route = [] ∧
        (costModel timetable settings).travelTime link time = .infinity ∨
      departuresOf timetable stretch.route ≠ [] ∧
        ∃ duration : K, (costModel timetable settings).travelTime link time = duration ∧
          arrival - departure ≤ duration ∧
          (departure ≤ arrival + Timetable.daySeconds K → 0 ≤ duration) := by
  rw [travelTime_stretch settings isRide ends, departureEq, arrivalEq]
  by_cases none : departuresOf timetable stretch.route = []
  · rw [none, Timetable.rideTime_nil]
    exact .inl ⟨rfl, rfl⟩
  · have finiteDepartures := departuresOf_finite finite stretch.route
    rcases Timetable.rideTime_finite finiteDepartures none departure arrival time with
      ⟨duration, takes⟩
    refine .inr ⟨none, duration, takes,
      Timetable.offsets_le_rideTime finiteDepartures none takes, ?_⟩
    intro forward
    rcases Timetable.rideTime_nonneg finiteDepartures none time forward with
      ⟨seconds, nonneg, secondsEq⟩
    obtain rfl : duration = seconds := Exact.finite.inj (takes.symm.trans secondsEq)
    exact nonneg

/-- A stretch that can be used is a ride between two stops.  It takes no less than the time
between them, and no negative time unless it arrives a day before it leaves. -/
theorem exists_ride (finite : timetable.HasFiniteTimes) {stretch : Stretch}
    (isRide : link.stretch = some stretch) {time : K}
    (usable : Scalar.isFinite ((costModel timetable settings).travelTime link time) = true) :
    ∃ origin destination, ends? timetable stretch = some (origin, destination) ∧
      ∃ departure arrival duration : K, origin.offsets.departure = departure ∧
        destination.offsets.arrival = arrival ∧
        (costModel timetable settings).disutility link time = rideCost settings link duration ∧
        arrival - departure ≤ duration ∧
        (departure ≤ arrival + Timetable.daySeconds K → 0 ≤ duration) := by
  cases endsEq : ends? timetable stretch with
  | none => simp [costModel, travelTime, isRide, endsEq, Exact.isFinite_iff,
      Exact.infinity_eq] at usable
  | some pair =>
      rcases pair with ⟨origin, destination⟩
      rcases ends?_finite finite endsEq with ⟨departure, arrival, departureEq, arrivalEq⟩
      rcases travelTime_stretch_cases settings finite isRide endsEq departureEq arrivalEq time with
        ⟨-, never⟩ | ⟨-, duration, takes, atLeast, nonneg⟩
      · rw [never] at usable
        cases usable
      · refine ⟨origin, destination, rfl, departure, arrival, duration, departureEq, arrivalEq,
          ?_, atLeast, nonneg⟩
        rw [← takes]
        simp [costModel, costOf, isRide]

/-- With settings that penalise, no link has a negative cost. -/
theorem costModel_hasNonnegativePrices (penalises : settings.Penalises)
    (finite : timetable.HasFiniteTimes) {graph : Graph (Exact K)}
    (lengths : ∀ link ∈ graph.links, ∃ length : K, 0 ≤ length ∧ link.length = length)
    (forward : RunsForward timetable graph) :
    (costModel timetable settings).HasNonnegativePrices graph := by
  intro link member time usable
  rcases lengths link member with ⟨length, lengthNonneg, lengthEq⟩
  cases stretchEq : link.stretch with
  | none =>
      have price := transferCost_nonneg penalises lengthEq lengthNonneg
      simpa [costModel, travelTime, costOf, stretchEq] using price
  | some stretch =>
      rcases exists_ride finite stretchEq usable with
        ⟨origin, destination, endsEq, departure, arrival, duration, departureEq, arrivalEq, price,
          -, nonneg⟩
      rw [price]
      exact rideCost_nonneg penalises lengthEq lengthNonneg (nonneg (forward link member stretch
        stretchEq origin destination endsEq departure arrival departureEq arrivalEq))

end Transit

end JourneyTimes
